import LoginServer.Database.Creation
import LoginServer.Server.Schedule

/-!
# Character limits under concurrency

A creation reads the slot count, checks the name, computes the next slot inside its
insert and commits, all in one READ COMMITTED transaction without a lock. What it has
read stays true until its commit as long as no other creation commits in between that
would have changed it; that is the condition `CreationsApart`.

The limits are a property of the list of live characters (`WithinLimits`), which a
deletion can only shorten and a creation extends by the one row that it has inserted.
-/

namespace LoginServer

open Database Interleaving

variable {p : Platform} {cfg : ServerConfig} {c c' : ServerState} {l : ServerLabel}

/-! ## Live characters -/

def Database.live (db : Database) : List CharacterRow :=
  db.characters.filter fun row => row.deletedAt.isNone

def ownedBy (accountId : Int) (rows : List CharacterRow) : List CharacterRow :=
  rows.filter fun row => row.ownerId = accountId

theorem liveCharacters_eq (db : Database) (accountId : Int) :
    db.liveCharacters accountId = ownedBy accountId db.live := by
  rw [liveCharacters, ownedBy, Database.live, List.filter_filter]

theorem ownedBy_sublist {rows rows' : List CharacterRow} (h : rows'.Sublist rows)
    (accountId : Int) : (ownedBy accountId rows').Sublist (ownedBy accountId rows) :=
  h.filter _

theorem ownedBy_append_self (rows : List CharacterRow) (row : CharacterRow) :
    ownedBy row.ownerId (rows ++ [row]) = ownedBy row.ownerId rows ++ [row] := by
  simp [ownedBy, List.filter_append]

theorem ownedBy_append_of_ne {rows : List CharacterRow} {row : CharacterRow} {accountId : Int}
    (h : row.ownerId ≠ accountId) : ownedBy accountId (rows ++ [row]) = ownedBy accountId rows := by
  simp [ownedBy, List.filter_append, h]

/-- At most `MAX_CHARS_PER_ACCOUNT` characters an account, no two equal names without
regard to case, no two characters of an account in one slot. -/
structure WithinLimits (f : SqlFunctions) (rows : List CharacterRow) : Prop where
  count : ∀ accountId, ((ownedBy accountId rows).length : Int) ≤ MAX_CHARS_PER_ACCOUNT
  names : (rows.map fun row => f.lower row.name).Nodup
  slots : ∀ accountId, ((ownedBy accountId rows).map (·.accountSlot)).Nodup

theorem WithinLimits.sublist {f : SqlFunctions} {rows rows' : List CharacterRow}
    (h : WithinLimits f rows) (hsub : rows'.Sublist rows) : WithinLimits f rows' := by
  refine ⟨fun accountId => ?_, h.names.sublist (hsub.map _), fun accountId => ?_⟩
  · have hle := (ownedBy_sublist hsub accountId).length_le
    have hcount := h.count accountId
    omega
  · exact (h.slots accountId).sublist ((ownedBy_sublist hsub accountId).map _)

/-- A row may join if its account has room, its name is free and its slot is above all
others of the account. -/
theorem WithinLimits.append {f : SqlFunctions} {rows : List CharacterRow} {row : CharacterRow}
    (h : WithinLimits f rows)
    (hroom : ((ownedBy row.ownerId rows).length : Int) < MAX_CHARS_PER_ACCOUNT)
    (hname : ∀ r ∈ rows, f.lower r.name ≠ f.lower row.name)
    (hslot : ∀ r ∈ ownedBy row.ownerId rows, r.accountSlot < row.accountSlot) :
    WithinLimits f (rows ++ [row]) := by
  refine ⟨fun accountId => ?_, ?_, fun accountId => ?_⟩
  · by_cases hid : row.ownerId = accountId
    · subst hid
      rw [ownedBy_append_self, List.length_append, List.length_singleton]
      omega
    · rw [ownedBy_append_of_ne hid]
      exact h.count accountId
  · rw [List.map_append]
    refine h.names.append (List.nodup_singleton _) ?_
    simpa [List.disjoint_singleton] using fun r hr => hname r hr
  · by_cases hid : row.ownerId = accountId
    · subst hid
      rw [ownedBy_append_self, List.map_append]
      refine (h.slots row.ownerId).append (List.nodup_singleton _) ?_
      simpa [List.disjoint_singleton] using fun r hr => (hslot r hr).ne
    · rw [ownedBy_append_of_ne hid]
      exact h.slots accountId

/-- The characters that some writes insert. -/
def insertedCharacters (ws : List Write) : List CharacterRow :=
  ws.filterMap fun
    | .insertCharacter row => some row
    | _ => none

theorem live_softDelete (rows : List CharacterRow) (q : CharacterRow → Bool) (now : Time) :
    (updateWhere q (fun row => { row with deletedAt := some now }) rows).filter
      (fun row => row.deletedAt.isNone) =
        (rows.filter fun row => row.deletedAt.isNone).filter fun row => !q row := by
  induction rows with
  | nil => rfl
  | cons row rows ih =>
    rw [updateWhere, List.map_cons]
    change (_ :: updateWhere q _ rows).filter _ = _
    by_cases hq : q row
    · rw [if_pos hq, List.filter_cons_of_neg (by simp), ih]
      by_cases hlive : row.deletedAt.isNone <;> simp [hlive, hq]
    · rw [if_neg hq]
      by_cases hlive : row.deletedAt.isNone <;> simp [hlive, hq, ih]

theorem live_softDeletes (rows : List CharacterRow) (now : Time) (db : Database) :
    ((rows.map fun c => Write.softDelete c.id c.ownerId now).foldl applyWrite db).live =
      db.live.filter fun c => !rows.any fun row => c.id = row.id && c.ownerId = row.ownerId := by
  induction rows generalizing db with
  | nil => simp
  | cons row rows ih =>
    rw [List.map_cons, List.foldl_cons, ih, Database.live, applyWrite, live_softDelete,
      List.filter_filter]
    refine List.filter_congr fun c _ => ?_
    rw [List.any_cons, Bool.not_or, Bool.and_comm]
    simp

theorem live_applyWrite (db : Database) (w : Write) :
    (applyWrite db w).live.Sublist (db.live ++ insertedCharacters [w]) := by
  cases w with
  | insertCharacter row =>
    rw [Database.live, applyWrite, List.filter_append]
    exact (List.Sublist.refl _).append List.filter_sublist
  | softDelete id ownerId now =>
    rw [Database.live, applyWrite, live_softDelete]
    exact List.filter_sublist.trans (List.sublist_append_left ..)
  | _ => exact List.sublist_append_left db.live _

theorem live_foldl (ws : List Write) (db : Database) :
    (ws.foldl applyWrite db).live.Sublist (db.live ++ insertedCharacters ws) := by
  induction ws generalizing db with
  | nil => simp [insertedCharacters]
  | cons w ws ih =>
    refine (ih (applyWrite db w)).trans ?_
    have hsplit : insertedCharacters (w :: ws) =
        insertedCharacters [w] ++ insertedCharacters ws := by
      rw [insertedCharacters, insertedCharacters, insertedCharacters, ← List.filterMap_append]
      rfl
    rw [hsplit, ← List.append_assoc]
    exact (live_applyWrite db w).append (List.Sublist.refl _)

/-! ## What `create_character` inserts -/

theorem lt_nextAccountSlot {db : Database} {accountId : Int} {row : CharacterRow}
    (h : row ∈ db.liveCharacters accountId) : row.accountSlot < db.nextAccountSlot accountId := by
  have hmem : row.accountSlot ∈ (db.liveCharacters accountId).map (·.accountSlot) :=
    List.mem_map.mpr ⟨row, h, rfl⟩
  unfold nextAccountSlot
  cases hmax : ((db.liveCharacters accountId).map (·.accountSlot)).max? with
  | none =>
    rw [List.max?_eq_none_iff.mp hmax] at hmem
    cases hmem
  | some slot =>
    have hle := List.max?_le_iff hmax |>.mp le_rfl _ hmem
    exact Int.lt_add_one_of_le hle

/-- With unique slugs `create_character` inserts one row, or none. -/
theorem run_createCharacter {f : SqlFunctions} {db : Database} {now : Time}
    {seq seq' : Sequences} {accountId : Int} {name classSlug raceSlug genderSlug : Bytes}
    {ids : List Int} {ws : List Write} (hslugs : UniqueSlugs db) (hverbatim : Verbatim 20 name)
    (h : (Query.createCharacter accountId name classSlug raceSlug genderSlug).run db now seq f =
      some (ids, ws, seq')) :
    (ids = [] ∧ insertedCharacters ws = []) ∨
    ∃ row, insertedCharacters ws = [row] ∧ ids = [row.id] ∧ row.ownerId = accountId ∧
      row.name = name ∧ row.accountSlot = db.nextAccountSlot accountId := by
  rcases run_createCharacter_row hslugs hverbatim h with ⟨rfl, rfl⟩ |
    ⟨cc, -, -, r, -, -, cg, -, -, rfl, rfl⟩
  · exact Or.inl ⟨rfl, rfl⟩
  · exact Or.inr ⟨_, rfl, rfl, rfl, rfl, rfl⟩

/-! ## The invariant -/

/-- The open transaction has found room for a character of the account. -/
def SlotClaim (accountId : Int) (h : Hist) : Prop :=
  ∃ count, count.headD 0 < MAX_CHARS_PER_ACCOUNT ∧
    ⟨.execPrepared (.getCharacterSlotCount accountId), some count⟩ ∈ current h

/-- The open transaction has found the name free. -/
def NameClaim (name : Bytes) (h : Hist) : Prop :=
  ⟨.execPrepared (.checkCharacterNameExists name), some []⟩ ∈ current h

/-- The open transaction has executed the insert, with this result. -/
def CreateRan (accountId : Int) (name : Bytes) (ids : List Int) (h : Hist) : Prop :=
  ∃ classSlug raceSlug genderSlug : Bytes,
    ⟨.execPrepared (.createCharacter accountId name classSlug raceSlug genderSlug), some ids⟩ ∈
      current h

/-- The open transaction has inserted a character. -/
def Creates (accountId : Int) (name : Bytes) (h : Hist) : Prop :=
  ∃ id ids, CreateRan accountId name (id :: ids) h

/-- What is known about a transaction that has inserted a character: it has found room and
the name free, and its row is in the slot after those of the committed characters. -/
structure Inserting (accountId : Int) (name : Bytes) (h : Hist) (store : Database.Store)
    (t : Nat) : Prop where
  room : SlotClaim accountId h
  free : NameClaim name h
  row : ∃ row, insertedCharacters (store.log t) = [row] ∧ row.ownerId = accountId ∧
    row.name = name ∧ ∀ r ∈ ownedBy accountId store.committed.live, r.accountSlot < row.accountSlot

structure CharacterInv (f : SqlFunctions) (hist : Nat → Hist) (store : Database.Store) :
    Prop where
  slugs : UniqueSlugs store.committed
  idle : ∀ t accountId name, CreateRan accountId name [] (hist t) →
    insertedCharacters (store.log t) = []
  inserting : ∀ t accountId name, Creates accountId name (hist t) →
    Inserting accountId name (hist t) store t
  room : ∀ t accountId, SlotClaim accountId (hist t) →
    ((ownedBy accountId store.committed.live).length : Int) < MAX_CHARS_PER_ACCOUNT
  free : ∀ t name, NameClaim name (hist t) →
    ∀ r ∈ store.committed.live, f.lower r.name ≠ f.lower name
  limits : WithinLimits f store.committed.live

/-- A creation commits only while no other task has an uncommitted character of the same
account, none counts on a slot of the account that this one fills, and none has found an
equal name free. -/
structure AloneWithCharacter (f : SqlFunctions) (hist : Nat → Hist) (db : Database) (t : Nat) :
    Prop where
  slots : ∀ accountId name, Creates accountId name (hist t) → ∀ t', t' ≠ t →
    ∀ name', ¬ Creates accountId name' (hist t')
  room : ∀ accountId name, Creates accountId name (hist t) → ∀ t', t' ≠ t →
    SlotClaim accountId (hist t') →
    ((ownedBy accountId db.live).length : Int) + 1 < MAX_CHARS_PER_ACCOUNT
  names : ∀ accountId name, Creates accountId name (hist t) → ∀ t', t' ≠ t →
    ∀ name', NameClaim name' (hist t') → f.lower name' ≠ f.lower name

section Call

variable {f : SqlFunctions} {hist : Nat → Hist} {s : Server} {store : Database.Store} {t : Nat}
  {x : Choice} {job : Job} {cmd : Cmd} {r : cmd.Reply}

/-- What the committed live characters become: they shrink, or a commit adds the
character that its transaction has inserted. -/
theorem CharacterInv.committed_live (hI : CharacterInv f hist s.store)
    (hledger : Ledger hist s.store) (heffect : StoreEffect f t x s cmd r store) :
    store.committed.live.Sublist s.store.committed.live ∨
    ((⟨cmd, r⟩ : Σ c, Cmd.Reply c) = ⟨.commitWork, some ()⟩ ∧ x.fails = false ∧
      ∃ row, Creates row.ownerId row.name (hist t) ∧
        insertedCharacters (s.store.log t) = [row] ∧
        store.committed.live.Sublist (s.store.committed.live ++ [row])) := by
  rcases heffect.committed with hsame | ⟨hcommit, hok, hview⟩
  · rw [hsame]
    exact Or.inl (List.Sublist.refl _)
  · have hlive := live_foldl (s.store.log t) s.store.committed
    rw [hview]
    cases hinserted : insertedCharacters (s.store.log t) with
    | nil =>
      rw [hinserted, List.append_nil] at hlive
      exact Or.inl hlive
    | cons row rest =>
      have hmem : row ∈ insertedCharacters (s.store.log t) := by simp [hinserted]
      obtain ⟨w, hw, heq⟩ := List.mem_filterMap.mp hmem
      cases w with
      | insertCharacter row' =>
        obtain ⟨q, rows, hq, hfrom⟩ := hledger t _ hw
        cases q with
        | createCharacter accountId name classSlug raceSlug genderSlug =>
          cases rows with
          | nil =>
            rw [hI.idle t accountId name ⟨_, _, _, hq⟩] at hinserted
            cases hinserted
          | cons id ids =>
            have hcreates : Creates accountId name (hist t) := ⟨id, ids, _, _, _, hq⟩
            obtain ⟨row'', hrow, hid, hname, -⟩ := (hI.inserting t _ _ hcreates).row
            rw [hinserted] at hrow
            obtain ⟨rfl, rfl⟩ := List.cons.inj hrow
            rw [hinserted] at hlive
            refine Or.inr ⟨hcommit, hok, row, ?_, rfl, hlive⟩
            rw [hid, hname]
            exact hcreates
        | _ => exact hfrom.elim
      | _ => cases heq

/-- The insert comes right after the two checks of its transaction. -/
theorem checks_of_mayCreate {h : Hist} {accountId : Int}
    {name classSlug raceSlug genderSlug : Bytes}
    (hmay : mayCall job h
      (.execPrepared (.createCharacter accountId name classSlug raceSlug genderSlug))) :
    Verbatim 20 name ∧ ∃ count, count.headD 0 < MAX_CHARS_PER_ACCOUNT ∧
      current h = [⟨.execPrepared (.checkCharacterNameExists name), some []⟩,
        ⟨.execPrepared (.getCharacterSlotCount accountId), some count⟩] := by
  obtain ⟨-, data, -, -, -, hverbatim, count, h', hcount, rfl⟩ := hmay
  exact ⟨hverbatim, count, hcount, rfl⟩

/-- Before its insert a creation has written nothing. -/
theorem Ledger.log_of_checks (hledger : Ledger hist s.store) (accountId : Int) (name : Bytes)
    (count : List Int) (hsub : ∀ e ∈ current (hist t),
      e = ⟨.execPrepared (.checkCharacterNameExists name), some []⟩ ∨
      e = ⟨.execPrepared (.getCharacterSlotCount accountId), some count⟩) :
    s.store.log t = [] := by
  refine hledger.log_eq_nil fun q rows hmem w hfrom => ?_
  rcases hsub _ hmem with heq | heq
  · cases heq
    cases w <;> exact hfrom
  · cases heq
    cases w <;> exact hfrom

theorem Ledger.view_of_slotCount {accountId : Int} (hledger : Ledger hist s.store)
    (hmay : mayCall job (hist t) (.execPrepared (.getCharacterSlotCount accountId))) :
    s.store.view writes t = s.store.committed := by
  refine Transactions.Store.view_of_log_nil writes (hledger.log_of_current_nil ?_)
  rcases hmay.1 with ⟨-, h', heq⟩ | ⟨q, -, hfollows⟩
  · rw [heq]
    rfl
  · cases hfollows

theorem Ledger.view_of_nameCheck {name : Bytes} (hledger : Ledger hist s.store)
    (hmay : mayCall job (hist t) (.execPrepared (.checkCharacterNameExists name))) :
    s.store.view writes t = s.store.committed := by
  obtain ⟨-, -, accountId, count, h', heq⟩ := hmay
  refine Transactions.Store.view_of_log_nil writes
    (hledger.log_of_checks accountId name count fun e he => Or.inr ?_)
  rw [heq] at he
  exact List.mem_singleton.mp he

theorem checkCharacterNameExists_eq_nil {db : Database} {name : Bytes} :
    db.checkCharacterNameExists f name = [] ↔
      ∀ row ∈ db.live, f.lower row.name ≠ f.lower name := by
  simp [checkCharacterNameExists, Database.live, List.filter_eq_nil_iff]
  grind

/-- A statement other than the insert adds no character. -/
theorem insertedCharacters_of_ne {q : Query} {rows : q.Rows} {ws : List Write} {db : Database}
    {now : Time} {seq seq' : Sequences} (h : q.run db now seq f = some (rows, ws, seq'))
    (hq : ∀ accountId name classSlug raceSlug genderSlug,
      q ≠ .createCharacter accountId name classSlug raceSlug genderSlug) :
    insertedCharacters ws = [] := by
  refine List.filterMap_eq_nil_iff.mpr fun w hw => ?_
  have hfrom := from_of_run h w hw
  cases w with
  | insertCharacter row =>
    cases q with
    | createCharacter => exact absurd rfl (hq _ _ _ _ _)
    | _ => exact hfrom.elim
  | _ => rfl

theorem insertedCharacters_append (ws ws' : List Write) :
    insertedCharacters (ws ++ ws') = insertedCharacters ws ++ insertedCharacters ws' :=
  List.filterMap_append

/-- What the insert of a transaction left behind: no row, or the one that is in order. -/
def CreateLeft (accountId : Int) (name : Bytes) (ids : List Int) (h : Hist)
    (store : Database.Store) (t : Nat) : Prop :=
  (ids = [] → insertedCharacters (store.log t) = []) ∧
  (ids ≠ [] → Inserting accountId name h store t)

/-- A call that leaves the transaction open and adds no character keeps what is known. -/
theorem CharacterInv.createLeft_keep (hI : CharacterInv f hist s.store) {accountId : Int}
    {name : Bytes} {ids : List Int} (hran : CreateRan accountId name ids (hist t))
    (hcurrent : current (⟨cmd, r⟩ :: hist t) = ⟨cmd, r⟩ :: current (hist t))
    (hlog : insertedCharacters (store.log t) = insertedCharacters (s.store.log t))
    (hcommitted : store.committed = s.store.committed) :
    CreateLeft accountId name ids (⟨cmd, r⟩ :: hist t) store t := by
  refine ⟨?_, fun hne => ?_⟩
  · rintro rfl
    rw [hlog]
    exact hI.idle t accountId name hran
  · obtain ⟨id, ids, rfl⟩ := List.exists_cons_of_ne_nil hne
    obtain ⟨⟨count, hcount, hslot⟩, hfree, hrow⟩ :=
      hI.inserting t accountId name ⟨id, ids, hran⟩
    refine ⟨⟨count, hcount, ?_⟩, ?_, ?_⟩
    · rw [hcurrent]
      exact List.mem_cons_of_mem _ hslot
    · rw [NameClaim, hcurrent]
      exact List.mem_cons_of_mem _ hfree
    · rw [hlog, hcommitted]
      exact hrow

theorem CharacterInv.createLeft_call (hI : CharacterInv f hist s.store)
    (hledger : Ledger hist s.store) (heffect : StoreEffect f t x s cmd r store)
    (hmay : mayCall job (hist t) cmd) {accountId : Int} {name : Bytes} {ids : List Int}
    (hran : CreateRan accountId name ids (⟨cmd, r⟩ :: hist t)) :
    CreateLeft accountId name ids (⟨cmd, r⟩ :: hist t) store t := by
  obtain ⟨classSlug, raceSlug, genderSlug, hmem⟩ := hran
  cases heffect with
  | @statement q rows ws sequences txn hactive hrun =>
    have hlog := Transactions.Store.log_record_self writes hactive ws
    rcases List.mem_cons.mp hmem with heq | hold
    · cases heq
      obtain ⟨hverbatim, count, hcount, hcurrent⟩ := checks_of_mayCreate hmay
      have hnil : s.store.log t = [] :=
        hledger.log_of_checks accountId name count fun e he => by simpa [hcurrent] using he
      rw [Transactions.Store.view_of_log_nil writes hnil] at hrun
      rw [hnil, List.nil_append] at hlog
      rcases run_createCharacter hI.slugs hverbatim hrun with ⟨rfl, hnone⟩ |
        ⟨row, hrow, rfl, hid, hrowname, hslot⟩
      · refine ⟨fun _ => ?_, fun hne => absurd rfl hne⟩
        rw [hlog, hnone]
      · refine ⟨fun hids => absurd hids (List.cons_ne_nil _ _), fun _ => ⟨⟨count, hcount, ?_⟩, ?_,
          row, ?_, hid, hrowname, fun r hr => ?_⟩⟩
        · simp [current, hcurrent]
        · simp [NameClaim, current, hcurrent]
        · rw [hlog, hrow]
        · rw [Transactions.Store.committed_record, ← liveCharacters_eq] at hr
          rw [hslot]
          exact lt_nextAccountSlot hr
    · refine hI.createLeft_keep ⟨_, _, _, hold⟩ rfl ?_ rfl
      have hnew : insertedCharacters ws = [] := by
        refine insertedCharacters_of_ne hrun fun accountId' name' _ _ _ heq => ?_
        subst heq
        obtain ⟨-, count, -, hcurrent⟩ := checks_of_mayCreate hmay
        rw [hcurrent] at hold
        rcases List.mem_pair.mp hold with heq | heq <;> cases heq
      rw [hlog, insertedCharacters_append, hnew, List.append_nil]
  | keep hkeeps hquery =>
    rw [hkeeps] at hmem
    rcases List.mem_cons.mp hmem with heq | hold
    · exact absurd heq.symm (hquery _ _)
    · exact hI.createLeft_keep ⟨_, _, _, hold⟩ (hkeeps _) rfl rfl
  | _ => cases hmem

/-- Room that the thread of the call has found is there. -/
theorem CharacterInv.room_call (hI : CharacterInv f hist s.store) (hledger : Ledger hist s.store)
    (heffect : StoreEffect f t x s cmd r store) (hmay : mayCall job (hist t) cmd)
    {accountId : Int} (hclaim : SlotClaim accountId (⟨cmd, r⟩ :: hist t)) :
    ((ownedBy accountId store.committed.live).length : Int) < MAX_CHARS_PER_ACCOUNT := by
  obtain ⟨count, hcount, hmem⟩ := hclaim
  obtain ⟨hcommitted, hold | ⟨heq, now, ws, seq', hrun⟩⟩ := heffect.executed hmem
  · rw [hcommitted]
    exact hI.room t accountId ⟨count, hcount, hold⟩
  · cases heq
    rw [hledger.view_of_slotCount hmay] at hrun
    cases hrun
    rw [hcommitted, ← liveCharacters_eq]
    exact hcount

/-- A name that the thread of the call has found free is free. -/
theorem CharacterInv.free_call (hI : CharacterInv f hist s.store) (hledger : Ledger hist s.store)
    (heffect : StoreEffect f t x s cmd r store) (hmay : mayCall job (hist t) cmd) {name : Bytes}
    (hclaim : NameClaim name (⟨cmd, r⟩ :: hist t)) :
    ∀ row ∈ store.committed.live, f.lower row.name ≠ f.lower name := by
  obtain ⟨hcommitted, hold | ⟨heq, now, ws, seq', hrun⟩⟩ := heffect.executed hclaim
  · rw [hcommitted]
    exact hI.free t name hold
  · cases heq
    rw [hledger.view_of_nameCheck hmay] at hrun
    have hverbatim : Verbatim 20 name := hmay.2.1
    have hrows : s.store.committed.checkCharacterNameExists f name = [] := by
      rw [← hverbatim.upToNul]
      exact congrArg Prod.fst (Option.some.inj hrun)
    rw [hcommitted]
    exact checkCharacterNameExists_eq_nil.mp hrows

/-- What the committed characters become in a step that meets the condition. -/
theorem CharacterInv.live_call (hI : CharacterInv f hist s.store) (hledger : Ledger hist s.store)
    (heffect : StoreEffect f t x s cmd r store)
    (hmeets : cmd = .commitWork → x.fails = false →
      AloneWithCharacter f hist s.store.committed t) :
    store.committed.live.Sublist s.store.committed.live ∨
    ∃ row, Creates row.ownerId row.name (hist t) ∧
      AloneWithCharacter f hist s.store.committed t ∧
      Inserting row.ownerId row.name (hist t) s.store t ∧
      insertedCharacters (s.store.log t) = [row] ∧
      store.committed.live.Sublist (s.store.committed.live ++ [row]) := by
  rcases hI.committed_live hledger heffect with hsub | ⟨heq, hok, row, hcreates, hrow, hsub⟩
  · exact Or.inl hsub
  · cases heq
    exact Or.inr ⟨row, hcreates, hmeets rfl hok, hI.inserting t _ _ hcreates, hrow, hsub⟩

theorem CharacterInv.limits_call (hI : CharacterInv f hist s.store)
    (hledger : Ledger hist s.store) (heffect : StoreEffect f t x s cmd r store)
    (hmeets : cmd = .commitWork → x.fails = false →
      AloneWithCharacter f hist s.store.committed t) :
    WithinLimits f store.committed.live := by
  rcases hI.live_call hledger heffect hmeets with hsub |
    ⟨row, -, -, ⟨hroom, hfree, row', hrow', -, -, hslot⟩, hrow, hsub⟩
  · exact hI.limits.sublist hsub
  · obtain ⟨rfl, -⟩ := List.cons.inj (hrow'.symm.trans hrow)
    exact (hI.limits.append (hI.room t _ hroom) (hI.free t _ hfree) hslot).sublist hsub

/-- The characters of an account after a step, as another task sees them. -/
theorem CharacterInv.room_other (hI : CharacterInv f hist s.store) (hledger : Ledger hist s.store)
    (heffect : StoreEffect f t x s cmd r store)
    (hmeets : cmd = .commitWork → x.fails = false →
      AloneWithCharacter f hist s.store.committed t) {t' : Nat} (ht' : t' ≠ t) {accountId : Int}
    (hclaim : SlotClaim accountId (hist t')) :
    ((ownedBy accountId store.committed.live).length : Int) < MAX_CHARS_PER_ACCOUNT := by
  have hroom := hI.room t' accountId hclaim
  rcases hI.live_call hledger heffect hmeets with hsub | ⟨row, hcreates, halone, -, -, hsub⟩
  · have hle := (ownedBy_sublist hsub accountId).length_le
    omega
  · have hle := (ownedBy_sublist hsub accountId).length_le
    by_cases hid : row.ownerId = accountId
    · subst hid
      have hmore := halone.room _ _ hcreates t' ht' hclaim
      simp only [ownedBy, List.filter_append, List.length_append] at hle hmore ⊢
      simp only [decide_true, List.filter_cons_of_pos, List.filter_nil,
        List.length_singleton] at hle
      omega
    · rw [ownedBy_append_of_ne hid] at hle
      omega

theorem CharacterInv.free_other (hI : CharacterInv f hist s.store) (hledger : Ledger hist s.store)
    (heffect : StoreEffect f t x s cmd r store)
    (hmeets : cmd = .commitWork → x.fails = false →
      AloneWithCharacter f hist s.store.committed t) {t' : Nat} (ht' : t' ≠ t) {name : Bytes}
    (hclaim : NameClaim name (hist t')) :
    ∀ row ∈ store.committed.live, f.lower row.name ≠ f.lower name := by
  intro row' hrow'
  rcases hI.live_call hledger heffect hmeets with hsub | ⟨row, hcreates, halone, -, -, hsub⟩
  · exact hI.free t' name hclaim row' (hsub.subset hrow')
  · rcases List.mem_append.mp (hsub.subset hrow') with hold | hnew
    · exact hI.free t' name hclaim row' hold
    · obtain rfl := List.mem_singleton.mp hnew
      exact (halone.names _ _ hcreates t' ht' name hclaim).symm

theorem CharacterInv.inserting_other (hI : CharacterInv f hist s.store)
    (hledger : Ledger hist s.store) (heffect : StoreEffect f t x s cmd r store)
    (hmeets : cmd = .commitWork → x.fails = false →
      AloneWithCharacter f hist s.store.committed t) {t' : Nat} (ht' : t' ≠ t) {accountId : Int}
    {name : Bytes} (hcreates' : Creates accountId name (hist t')) :
    Inserting accountId name (hist t') store t' := by
  obtain ⟨hroom, hfree, row', hrow', hid', hname', hslot⟩ := hI.inserting t' _ _ hcreates'
  refine ⟨hroom, hfree, row', ?_, hid', hname', fun row'' hrow'' => hslot row'' ?_⟩
  · rw [heffect.log_of_ne ht']
    exact hrow'
  · rcases hI.live_call hledger heffect hmeets with hsub | ⟨row, hcreates, halone, -, -, hsub⟩
    · exact (ownedBy_sublist hsub accountId).subset hrow''
    · have hne : row.ownerId ≠ accountId := by
        rintro rfl
        exact halone.slots _ _ hcreates t' ht' name hcreates'
      have hmem := (ownedBy_sublist hsub accountId).subset hrow''
      rw [ownedBy_append_of_ne hne] at hmem
      exact hmem

theorem CharacterInv.slugs_call (hI : CharacterInv f hist s.store)
    (heffect : StoreEffect f t x s cmd r store) : UniqueSlugs store.committed := by
  rcases heffect.committed with hsame | ⟨-, -, hview⟩
  · rw [hsame]
    exact hI.slugs
  · rw [hview]
    exact hI.slugs.foldl _

theorem CharacterInv.call (hI : CharacterInv f hist s.store) (hledger : Ledger hist s.store)
    (heffect : StoreEffect f t x s cmd r store) (hmay : mayCall job (hist t) cmd)
    (hmeets : cmd = .commitWork → x.fails = false →
      AloneWithCharacter f hist s.store.committed t) :
    CharacterInv f (Function.update hist t (⟨cmd, r⟩ :: hist t)) store := by
  refine ⟨hI.slugs_call heffect, fun t' accountId name hran => ?_,
    fun t' accountId name hcreates => ?_, fun t' accountId hclaim => ?_,
    fun t' name hclaim => ?_, hI.limits_call hledger heffect hmeets⟩
  · by_cases ht' : t' = t
    · subst ht'
      rw [Function.update_self] at hran
      exact (hI.createLeft_call hledger heffect hmay hran).1 rfl
    · rw [Function.update_of_ne ht'] at hran
      rw [heffect.log_of_ne ht']
      exact hI.idle t' accountId name hran
  · by_cases ht' : t' = t
    · subst ht'
      rw [Function.update_self] at hcreates ⊢
      obtain ⟨id, ids, hran⟩ := hcreates
      exact (hI.createLeft_call hledger heffect hmay hran).2 (List.cons_ne_nil id ids)
    · rw [Function.update_of_ne ht'] at hcreates ⊢
      exact hI.inserting_other hledger heffect hmeets ht' hcreates
  · by_cases ht' : t' = t
    · subst ht'
      rw [Function.update_self] at hclaim
      exact hI.room_call hledger heffect hmay hclaim
    · rw [Function.update_of_ne ht'] at hclaim
      exact hI.room_other hledger heffect hmeets ht' hclaim
  · by_cases ht' : t' = t
    · subst ht'
      rw [Function.update_self] at hclaim
      exact hI.free_call hledger heffect hmay hclaim
    · rw [Function.update_of_ne ht'] at hclaim
      exact hI.free_other hledger heffect hmeets ht' hclaim

end Call

/-! ## Runs -/

/-- The steps at which no creation commits while another one counts on what it changes. -/
def CreationsApart (f : SqlFunctions) (c : ServerState) : ServerLabel → Prop
  | .run t x => c.pending t = some .commitWork → x.fails = false →
    AloneWithCharacter f c.hist c.shared.store.committed t
  | _ => True

/-- Transactions one after the other meet the condition. -/
theorem CreationsApart.of_workApart {f : SqlFunctions} {n : Nat} (h : workApart n c l = true)
    (hnone : ∀ t, n ≤ t → c.threads t = none) : CreationsApart f c l := by
  cases l with
  | run t x =>
    have hidle : ∀ t', t' ≠ t → inWork (c.hist t') = false :=
      fun t' ht' => inWork_of_workApart h hnone ht'
    intro _ _
    refine ⟨fun _ _ _ t' ht' _ hcreates => ?_, fun _ _ _ t' ht' hclaim => ?_,
      fun _ _ _ t' ht' _ hclaim => ?_⟩
    · obtain ⟨id, ids, _, _, _, hmem⟩ := hcreates
      exact absurd hmem (not_mem_of_inWork (hidle t' ht'))
    · obtain ⟨count, -, hmem⟩ := hclaim
      exact absurd hmem (not_mem_of_inWork (hidle t' ht'))
    · exact absurd hclaim (not_mem_of_inWork (hidle t' ht'))
  | spawn _ _ => trivial
  | outside _ => trivial

theorem Server.reach_characterInv {s₀ : Server} (h₀ : s₀.Initial)
    (hslugs : UniqueSlugs s₀.store.committed)
    (hlimits : WithinLimits p.toSqlFunctions s₀.store.committed.live)
    (h : (loginServer p cfg).Reach (CreationsApart p.toSqlFunctions) s₀.boot c) :
    CharacterInv p.toSqlFunctions c.hist c.shared.store := by
  refine Server.reach_callInvariant ?_ ?_ h
  · refine CharacterInv.mk hslugs (fun t accountId name hran => ?_)
      (fun t accountId name hcreates => ?_) (fun t accountId hclaim => ?_)
      (fun t name hclaim => nomatch hclaim) hlimits
    · obtain ⟨_, _, _, hmem⟩ := hran
      cases hmem
    · obtain ⟨_, _, _, _, _, hmem⟩ := hcreates
      cases hmem
    · obtain ⟨_, _, hmem⟩ := hclaim
      cases hmem
  · intro c c' t x job cmd r hreach hI hmeets hcall
    refine hI.call (Server.reach_ledger h₀ hreach) (exec_store hcall.exec)
      (hcall.may (Server.reach_obedient hreach)) fun hcommit => ?_
    subst hcommit
    exact hmeets hcall.pending

/-- If a creation commits only while no other one counts on the slot count or the name
check that it outdates, the limits hold in every committed state. -/
theorem character_limits_hold {s₀ : Server} (h₀ : s₀.Initial)
    (hslugs : UniqueSlugs s₀.store.committed)
    (hlimits : WithinLimits p.toSqlFunctions s₀.store.committed.live)
    (h : (loginServer p cfg).Reach (CreationsApart p.toSqlFunctions) s₀.boot c) :
    WithinLimits p.toSqlFunctions c.shared.store.committed.live :=
  (Server.reach_characterInv h₀ hslugs hlimits h).limits

namespace Sample

open Schedule

def createText : Bytes :=
  messageText ("\"eventType\":\"createCharacter\",\"clientId\":1," ++
    "\"hash\":\"11111111-1111-4111-8111-111111111111\"")
    ("\"characterName\":\"Dora\",\"characterClass\":\"mage\"," ++
      "\"characterRace\":\"human\",\"characterGender\":\"male\"")

def createJson : Json :=
  messageJson [(str "eventType", .string (str "createCharacter")), (str "clientId", .number 1),
    (str "hash", .string tokenA)]
    [(str "characterName", .string (str "Dora")), (str "characterClass", .string (str "mage")),
      (str "characterRace", .string (str "human")), (str "characterGender", .string (str "male"))]

def creationPlatform : Platform :=
  .ofTables [(loginText, loginJson), (createText, createJson)] digests

def characterOf (id : Int) (name : String) (slot : Int) : CharacterRow where
  id := id
  name := str name
  ownerId := 1
  classId := 1
  raceId := 1
  gender := 0
  accountSlot := slot

/-- The account has three characters. -/
def threeCharacters : Database where
  users := [anna]
  characters := [characterOf (-3) "Anna" 1, characterOf (-2) "Bea" 2, characterOf (-1) "Cleo" 3]
  characterClass := [{ id := 1, name := str "Mage", slug := some (str "mage") }]
  race := [{ id := 1, name := str "Human", slug := str "human" }]
  characterGenders := [{ id := 0, name := str "male", label := str "Male" }]
  zones := [1]

/-- The calls of a creation up to its insert. -/
def insertCharacter (t : Nat) : List ServerLabel := calls t 6

/-- Its further calls, up to the commit. -/
def initCharacter (t : Nat) : List ServerLabel := calls t 7

end Sample

open Sample Schedule

theorem threeCharacters_uniqueSlugs : UniqueSlugs threeCharacters :=
  ⟨by decide, by decide, by decide⟩

theorem threeCharacters_withinLimits :
    WithinLimits creationPlatform.toSqlFunctions threeCharacters.live := by
  have hlive : threeCharacters.live = threeCharacters.characters := by decide
  rw [hlive]
  refine ⟨fun accountId => ?_, by decide, fun accountId => ?_⟩
  · have hle : (ownedBy accountId threeCharacters.characters).length ≤ 3 :=
      List.length_filter_le ..
    rw [MAX_CHARS_PER_ACCOUNT]
    omega
  · refine List.Nodup.sublist (List.filter_sublist.map _) ?_
    decide

theorem character_limits_hold_fourth : ∃ c,
    (loginServer creationPlatform config).Reach (CreationsApart creationPlatform.toSqlFunctions)
      (Server.over threeCharacters).boot c ∧
    c.shared.store.committed.live.length = 4 ∧
    WithinLimits creationPlatform.toSqlFunctions c.shared.store.committed.live := by
  obtain ⟨c, hreach, hlive⟩ := exists_reach_serial creationPlatform config (.over threeCharacters)
    (P := fun c => c.shared.store.committed.live.length = 4) 2
    (fun c l (hcheck : workApart 2 c l = true) _ _ hnone =>
      CreationsApart.of_workApart hcheck hnone)
    ([frame 1 loginText, frame 1 createText, .spawn 0 .dispatch] ++ login 0 tokenA ++ calls 0 2 ++
      [.spawn 1 .dispatch] ++ insertCharacter 1 ++ initCharacter 1) (by decide) (by decide +kernel)
  exact ⟨c, hreach, hlive, character_limits_hold (Server.over_initial rfl)
    threeCharacters_uniqueSlugs threeCharacters_withinLimits hreach⟩

/-- Two creations of one client, pipelined. Both count three characters, find the name
free and insert in slot four before either commits. -/
theorem concurrent_creations_exceed_limits : ∃ c,
    (loginServer creationPlatform config).Reach (fun _ _ => True)
      (Server.over threeCharacters).boot c ∧
    MAX_CHARS_PER_ACCOUNT < ((ownedBy 1 c.shared.store.committed.live).length : Int) ∧
    ¬ (c.shared.store.committed.live.map fun row => creationPlatform.lower row.name).Nodup ∧
    ¬ ((ownedBy 1 c.shared.store.committed.live).map (·.accountSlot)).Nodup := by
  exact exists_reach creationPlatform config (.over threeCharacters)
    (P := fun c =>
      MAX_CHARS_PER_ACCOUNT < ((ownedBy 1 c.shared.store.committed.live).length : Int) ∧
      ¬ (c.shared.store.committed.live.map fun row => creationPlatform.lower row.name).Nodup ∧
      ¬ ((ownedBy 1 c.shared.store.committed.live).map (·.accountSlot)).Nodup)
    ([frame 1 loginText, frame 1 createText, frame 1 createText, .spawn 0 .dispatch] ++
      login 0 tokenA ++ [.spawn 1 .dispatch, .spawn 2 .dispatch] ++ insertCharacter 1 ++
      insertCharacter 2 ++ initCharacter 1 ++ initCharacter 2)
    (by decide +kernel)

end LoginServer
