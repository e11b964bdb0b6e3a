import LoginServer.Nlohmann.Canonical
import LoginServer.Server.Effects

/-!
# The texts of the database

The columns of a database in UTF-8 hold UTF-8 texts, and a statement that stores a UTF-8 text
keeps it so, also where `varchar(n)` drops blanks at its end (`isText_varchar`) and where the
text ends at a NUL (`isText_upToNul`). What the
statements select for the responses is then UTF-8 (`Query.textual_of_run`).
-/

namespace LoginServer

open Database Transactions

/-! ## `varchar` -/

theorem splitCharacters_append (n : Nat) (s : Bytes) :
    (splitCharacters n s).1 ++ (splitCharacters n s).2 = s := by
  induction s generalizing n with
  | nil => cases n <;> rfl
  | cons b bs ih =>
    unfold splitCharacters
    split
    · exact congrArg (b :: ·) (ih n)
    · cases n with
      | zero => rfl
      | succ n => exact congrArg (b :: ·) (ih n)

theorem isText_of_blank {s : Bytes} (h : IsText (s ++ [32])) : IsText s := by
  rw [Nlohmann.isText_iff] at h ⊢
  obtain ⟨cs, hcs⟩ := h
  rcases List.eq_nil_or_concat cs with rfl | ⟨ds, c, rfl⟩
  · rw [List.flatMap_nil] at hcs
    exact absurd hcs (by simp)
  · rw [List.concat_eq_append, List.flatMap_append, List.flatMap_singleton] at hcs
    have hascii : c.val ≤ 127 := by
      by_contra hbig
      have hlast : (32 : UInt8) ∈ String.utf8EncodeChar c := by
        have hget := congrArg List.getLast? hcs
        rw [List.getLast?_append_of_ne_nil _ String.utf8EncodeChar_ne_nil,
          List.getLast?_concat] at hget
        exact List.mem_of_getLast? hget
      have hle := le_of_mem_utf8EncodeChar (UInt32.not_le.mp hbig) hlast
      exact absurd hle (by decide)
    rw [utf8EncodeChar_of_ascii hascii] at hcs
    exact ⟨ds, (List.append_inj' hcs rfl).1⟩

theorem isText_of_blanks {s : Bytes} (blanks : Bytes) (hblanks : ∀ b ∈ blanks, b = 32)
    (h : IsText (s ++ blanks)) : IsText s := by
  induction blanks using List.reverseRecOn with
  | nil => rwa [List.append_nil] at h
  | append_singleton blanks b ih =>
    rw [List.forall_mem_append, List.forall_mem_singleton] at hblanks
    rw [hblanks.2, ← List.append_assoc] at h
    exact ih hblanks.1 (isText_of_blank h)

theorem isText_varchar {n : Nat} {s s' : Bytes} (h : varchar n s = some s') (hs : IsText s) :
    IsText s' := by
  unfold varchar at h
  split_ifs at h with hblanks
  cases h
  refine isText_of_blanks (splitCharacters n s).2 ?_ ?_
  · simpa using hblanks
  · rw [splitCharacters_append]
    exact hs

/-- Every character but NUL has no NUL among its bytes. -/
theorem zero_notMem_utf8EncodeChar {c : Char} (hc : c.val ≠ 0) :
    0 ∉ String.utf8EncodeChar c := by
  intro hmem
  by_cases hascii : c.val ≤ 127
  · rw [utf8EncodeChar_of_ascii hascii, List.mem_singleton] at hmem
    refine hc (UInt32.toNat_inj.mp ?_)
    have hzero := congrArg UInt8.toNat hmem
    rw [UInt32.le_iff_toNat_le] at hascii
    simp only [UInt32.toNat_toUInt8, UInt8.toNat_ofNat] at hzero
    have hlow : c.val.toNat < 2 ^ 8 := Nat.lt_of_le_of_lt hascii (by decide)
    rw [Nat.mod_eq_of_lt hlow] at hzero
    exact hzero.symm
  · exact absurd (le_of_mem_utf8EncodeChar (UInt32.not_le.mp hascii) hmem) (by decide)

theorem isText_upToNul {s : Bytes} (h : IsText s) : IsText (upToNul s) := by
  rw [Nlohmann.isText_iff] at h ⊢
  obtain ⟨cs, rfl⟩ := h
  induction cs with
  | nil => exact ⟨[], rfl⟩
  | cons c cs ih =>
    obtain ⟨ds, hds⟩ := ih
    rw [List.flatMap_cons, upToNul]
    by_cases hc : c.val = 0
    · refine ⟨[], ?_⟩
      rw [utf8EncodeChar_of_ascii (hc ▸ by decide), hc]
      rfl
    · refine ⟨c :: ds, ?_⟩
      rw [List.takeWhile_append_of_pos fun b hb => ?_, List.flatMap_cons, hds]
      · rfl
      · exact decide_eq_true fun hzero => zero_notMem_utf8EncodeChar hc (hzero ▸ hb)

/-! ## The data -/

/-- The columns that a response can show. -/
structure Database.Textual (db : Database) : Prop where
  userBans : ∀ r ∈ db.userBans, IsText r.reason
  characters : ∀ r ∈ db.characters, IsText r.name
  characterClass : ∀ r ∈ db.characterClass,
    IsText r.name ∧ (∀ s ∈ r.slug, IsText s) ∧ ∀ s ∈ r.description, IsText s
  race : ∀ r ∈ db.race, IsText r.name ∧ IsText r.slug
  characterGenders : ∀ r ∈ db.characterGenders, IsText r.name ∧ IsText r.label
  items : ∀ r ∈ db.items, IsText r.slug

namespace Database

def Write.Textual : Write → Prop
  | .insertCharacter row => IsText row.name
  | _ => True

theorem Textual.applyWrite {db : Database} (h : db.Textual) {w : Write} (hw : w.Textual) :
    (applyWrite db w).Textual := by
  have hsame : ∀ db' : Database, db'.userBans = db.userBans →
      (∀ r ∈ db'.characters, IsText r.name) → db'.characterClass = db.characterClass →
      db'.race = db.race → db'.characterGenders = db.characterGenders → db'.items = db.items →
      db'.Textual := by
    intro db' hbans hcharacters hclass hrace hgenders hitems
    exact ⟨hbans ▸ h.userBans, hcharacters, hclass ▸ h.characterClass, hrace ▸ h.race,
      hgenders ▸ h.characterGenders, hitems ▸ h.items⟩
  cases w with
  | insertCharacter row =>
    refine hsame _ rfl (List.forall_mem_append.mpr ⟨h.characters, ?_⟩) rfl rfl rfl rfl
    exact List.forall_mem_singleton.mpr hw
  | softDelete id ownerId now =>
    refine hsame _ rfl (List.forall_mem_map.mpr fun r hr => ?_) rfl rfl rfl rfl
    split_ifs
    · exact h.characters r hr
    · exact h.characters r hr
  | _ => exact hsame _ rfl h.characters rfl rfl rfl rfl

theorem Textual.foldl {db : Database} (h : db.Textual) {ws : List Write}
    (hws : ∀ w ∈ ws, w.Textual) : (ws.foldl Database.applyWrite db).Textual := by
  induction ws generalizing db with
  | nil => exact h
  | cons w ws ih =>
    rw [List.forall_mem_cons] at hws
    exact ih (h.applyWrite hws.1) hws.2

/-- The committed data and what the open transactions have written. -/
structure TextualStore (store : Store) : Prop where
  committed : store.committed.Textual
  log : ∀ t, ∀ w ∈ store.log t, w.Textual

namespace TextualStore

variable {store : Store}

theorem view (h : TextualStore store) (t : Nat) : (store.view writes t).Textual :=
  h.committed.foldl (h.log t)

theorem idle {db : Database} (h : db.Textual) : TextualStore (.idle db) :=
  ⟨h, fun _ w hw => by cases hw⟩

theorem begin (h : TextualStore store) (t : Nat) (now : Time) :
    TextualStore (store.begin t now) := by
  refine ⟨h.committed, fun t' w hw => ?_⟩
  by_cases ht : t' = t
  · rw [ht, Store.log_begin_self] at hw
    cases hw
  · rw [Store.log_begin_of_ne ht] at hw
    exact h.log t' w hw

theorem close (h : TextualStore store) (t : Nat) : TextualStore (store.close t) := by
  refine ⟨h.committed, fun t' w hw => ?_⟩
  by_cases ht : t' = t
  · rw [ht, Store.log_close_self] at hw
    cases hw
  · rw [Store.log_close_of_ne ht] at hw
    exact h.log t' w hw

theorem commit (h : TextualStore store) (t : Nat) : TextualStore (store.commit writes t) :=
  ⟨h.view t, (h.close t).log⟩

theorem record (h : TextualStore store) {t : Nat} {txn : Txn Write}
    (hactive : store.active t = some txn) {ws : List Write} (hws : ∀ w ∈ ws, w.Textual) :
    TextualStore (store.record writes t ws) := by
  refine ⟨h.committed, fun t' w hw => ?_⟩
  rcases Store.mem_log_record writes hactive hw with hold | ⟨-, hnew⟩
  · exact h.log t' w hold
  · exact hws w hnew

end TextualStore

/-! ## The statements -/

/-- A name that is to be stored is a text. -/
def Query.Textual : Query → Prop
  | .createCharacter _ name _ _ _ => IsText name
  | _ => True

structure CharacterListRow.Textual (row : CharacterListRow) : Prop where
  characterName : IsText row.characterName
  classSlug : ∀ s ∈ row.classSlug, IsText s
  raceSlug : IsText row.raceSlug
  genderSlug : ∀ s ∈ row.genderSlug, IsText s

/-- The columns of the result that a response shows. -/
def Query.RowsTextual : (q : Query) → q.Rows → Prop
  | .checkActiveBan _ => fun (rows : List (Bytes × Bytes)) =>
    ∀ row ∈ rows, IsText row.1 ∧ IsText row.2
  | .getCharactersList _ => fun (rows : List CharacterListRow) => ∀ row ∈ rows, row.Textual
  | .getCharacterEquipmentPreview _ => fun (rows : List (Int × Bytes)) =>
    ∀ row ∈ rows, IsText row.2
  | .getCharacterClasses => fun (rows : List CharacterClassRow) => ∀ r ∈ rows,
    IsText r.name ∧ (∀ s ∈ r.slug, IsText s) ∧ ∀ s ∈ r.description, IsText s
  | .getCharacterRaces => fun (rows : List RaceRow) => ∀ r ∈ rows, IsText r.name ∧ IsText r.slug
  | .getCharacterGenders => fun (rows : List CharacterGenderRow) =>
    ∀ r ∈ rows, IsText r.name ∧ IsText r.label
  | _ => fun _ => True

theorem mem_insertionSort_iff {α : Type} {le : α → α → Prop} [DecidableRel le] {a : α}
    {as : List α} : a ∈ as.insertionSort le ↔ a ∈ as :=
  (List.perm_insertionSort le as).mem_iff

variable {db : Database} {f : SqlFunctions}

theorem Textual.checkActiveBan (h : db.Textual) (hf : ∀ time, IsText (f.timestampText time))
    (now : Time) (userId : Int) :
    ∀ row ∈ db.checkActiveBan now f userId, IsText row.1 ∧ IsText row.2 := by
  intro row hrow
  obtain ⟨r, hr, rfl⟩ := List.mem_map.mp hrow
  have hban : r ∈ db.userBans :=
    (List.mem_filter.mp (mem_insertionSort_iff.mp (List.mem_of_mem_take hr))).1
  refine ⟨h.userBans r hban, ?_⟩
  cases r.expiresAt with
  | none => exact isText_str ""
  | some expiresAt => exact hf expiresAt

theorem Textual.getCharactersList (h : db.Textual) (accountId : Int) :
    ∀ row ∈ db.getCharactersList accountId, row.Textual := by
  intro row hrow
  rw [Database.getCharactersList, mem_insertionSort_iff] at hrow
  obtain ⟨c, hc, hrow⟩ := List.mem_flatMap.mp hrow
  obtain ⟨cc, hcc, hrow⟩ := List.mem_flatMap.mp hrow
  obtain ⟨r, hr, rfl⟩ := List.mem_map.mp hrow
  refine ⟨h.characters c (List.mem_filter.mp hc).1,
    (h.characterClass cc (List.mem_filter.mp hcc).1).2.1, (h.race r (List.mem_filter.mp hr).1).2,
    fun s hs => ?_⟩
  obtain ⟨cg, hcg, rfl⟩ := Option.map_eq_some_iff.mp hs
  exact (h.characterGenders cg (List.mem_of_find?_eq_some hcg)).1

theorem Textual.getCharacterEquipmentPreview (h : db.Textual) (characterId : Int) :
    ∀ row ∈ db.getCharacterEquipmentPreview characterId, IsText row.2 := by
  intro row hrow
  rw [Database.getCharacterEquipmentPreview, mem_insertionSort_iff] at hrow
  obtain ⟨ce, -, hrow⟩ := List.mem_flatMap.mp hrow
  obtain ⟨pi, -, hrow⟩ := List.mem_flatMap.mp hrow
  obtain ⟨i, hi, rfl⟩ := List.mem_map.mp hrow
  exact h.items i (List.mem_filter.mp hi).1

variable {now : Time} {seq seq' : Sequences} {q : Query} {rows : q.Rows} {ws : List Write}

theorem Textual.rows_of_run (h : db.Textual) (hf : ∀ time, IsText (f.timestampText time))
    (hrun : q.run db now seq f = some (rows, ws, seq')) : q.RowsTextual rows := by
  cases q with
  | checkActiveBan userId =>
    cases hrun
    exact h.checkActiveBan hf now userId
  | getCharactersList accountId =>
    cases hrun
    exact h.getCharactersList accountId
  | getCharacterEquipmentPreview characterId =>
    cases hrun
    exact h.getCharacterEquipmentPreview characterId
  | getCharacterClasses =>
    cases hrun
    exact fun r hr => h.characterClass r (mem_insertionSort_iff.mp hr)
  | getCharacterRaces =>
    cases hrun
    exact fun r hr => h.race r (mem_insertionSort_iff.mp hr)
  | getCharacterGenders =>
    cases hrun
    exact fun r hr => h.characterGenders r (mem_insertionSort_iff.mp hr)
  | _ => trivial

theorem Query.textual_of_run (hq : q.Textual)
    (hrun : q.run db now seq f = some (rows, ws, seq')) : ∀ w ∈ ws, w.Textual := by
  intro w hw
  have hfrom := from_of_run hrun w hw
  cases w with
  | insertCharacter row =>
    cases q with
    | createCharacter accountId name classSlug raceSlug genderSlug =>
      exact isText_varchar hfrom.2.1 (isText_upToNul hq)
    | _ => cases hfrom
  | _ => trivial

end Database

end LoginServer
