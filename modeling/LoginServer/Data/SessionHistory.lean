import Mathlib.Data.List.Induction
import LoginServer.Data.ClientData

/-!
# Histories of the session store

`SessionOp` lists the operations that change the store and `run` executes them from the
empty store. `Holds ops id hash` says what a token is worth in terms of the history
alone: it was stored for `id`, and nothing after that replaced, removed or swept it.
The store is a faithful index of this (`exists_find_run_iff`).
-/

namespace LoginServer

inductive SessionOp where
  | storeClientData (clientData : ClientDataStruct) (nowMs : Int)
  | updateClientData (id : Int) (field value : Bytes) (nowMs : Int)
  | updateCharacterData (id : Int) (characterData : CharacterDataStruct) (nowMs : Int)
  | touchSession (id now nowMs : Int)
  | removeClientData (id : Int)
  | sweepExpiredSessions (nowMs ttlMs : Int)

namespace SessionOp

def apply (c : ClientData) : SessionOp → ClientData
  | .storeClientData clientData nowMs => c.storeClientData clientData nowMs
  | .updateClientData id field value nowMs => c.updateClientData id field value nowMs
  | .updateCharacterData id characterData nowMs => c.updateCharacterData id characterData nowMs
  | .touchSession id now nowMs => (c.touchSession id now nowMs).2
  | .removeClientData id => (c.removeClientData id).2
  | .sweepExpiredSessions nowMs ttlMs => (c.sweepExpiredSessions nowMs ttlMs).2

def run (ops : List SessionOp) : ClientData := ops.foldl apply ClientData.empty

theorem run_append_singleton (ops : List SessionOp) (op : SessionOp) :
    run (ops ++ [op]) = op.apply (run ops) := by
  rw [run, List.foldl_append]
  rfl

/-- One of the two `updateClientData` overloads. -/
def IsUpdate : SessionOp → Prop
  | .updateClientData .. => True
  | .updateCharacterData .. => True
  | _ => False

/-- The operation, taken in state `c`, replaces, removes or sweeps the entry of `id`. -/
def Ends (id : Int) (c : ClientData) : SessionOp → Prop
  | .storeClientData clientData _ => clientData.clientId = id
  | .removeClientData id' => id' = id
  | .sweepExpiredSessions nowMs ttlMs => id ∈ (c.sweepExpiredSessions nowMs ttlMs).1
  | _ => False

/-- `clientData` is the latest store for its account, and no later `removeClientData` or
sweep returned the account. -/
def Latest (ops : List SessionOp) (clientData : ClientDataStruct) : Prop :=
  ∃ pre nowMs post, ops = pre ++ .storeClientData clientData nowMs :: post ∧
    ∀ post₁ op post₂, post = post₁ ++ op :: post₂ →
      ¬ op.Ends clientData.clientId
        (run (pre ++ .storeClientData clientData nowMs :: post₁))

/-! ## What one operation does to one entry -/

/-- The fields of an entry that only `storeClientData` writes. -/
def identity (entry : ClientDataStruct) : Int × Bytes × Bytes × Int :=
  (entry.clientId, entry.hash, entry.login, entry.role)

theorem updateField_identity {entry entry' : ClientDataStruct} {field value : Bytes}
    (h : ClientData.updateField entry field value = some entry') :
    identity entry' = identity entry ∧ entry'.password = entry.password := by
  unfold ClientData.updateField at h
  split_ifs at h
  · obtain ⟨n, -, rfl⟩ := Option.map_eq_some_iff.mp h
    exact ⟨rfl, rfl⟩
  · obtain ⟨n, -, rfl⟩ := Option.map_eq_some_iff.mp h
    exact ⟨rfl, rfl⟩
  · cases h
    exact ⟨rfl, rfl⟩
  · cases h
    exact ⟨rfl, rfl⟩

/-- `c'` is `c` with at most one entry changed, outside its identity and password. -/
structure Keeps (c c' : ClientData) : Prop where
  find_none : ∀ id, c.find id = none → c'.find id = none
  find_some : ∀ id entry, c.find id = some entry → ∃ entry', c'.find id = some entry' ∧
    identity entry' = identity entry ∧ entry'.password = entry.password

theorem Keeps.refl (c : ClientData) : Keeps c c :=
  ⟨fun _ h => h, fun _ entry h => ⟨entry, h, rfl, rfl⟩⟩

theorem Keeps.put {c : ClientData} {id : Int} {entry entry' : ClientDataStruct}
    (hf : c.find id = some entry) (hid : identity entry' = identity entry)
    (hpw : entry'.password = entry.password) : Keeps c (c.put id entry') := by
  refine ⟨fun id' h => ?_, fun id' e h => ?_⟩
  · rw [ClientData.find_put, if_neg]
    · exact h
    · rintro rfl
      rw [hf] at h
      cases h
  · by_cases heq : id' = id
    · subst heq
      rw [hf] at h
      cases h
      exact ⟨entry', by rw [ClientData.find_put, if_pos rfl], hid, hpw⟩
    · exact ⟨e, by rw [ClientData.find_put, if_neg heq, h], rfl, rfl⟩

theorem keeps_updateClientData (c : ClientData) (id : Int) (field value : Bytes) (nowMs : Int) :
    Keeps c (c.updateClientData id field value nowMs) := by
  unfold ClientData.updateClientData
  split
  · rename_i entry hf
    split
    · rename_i entry' hu
      obtain ⟨hid, hpw⟩ := updateField_identity hu
      exact Keeps.put hf hid hpw
    · exact Keeps.refl c
  · exact Keeps.refl c

theorem keeps_updateCharacterData (c : ClientData) (id : Int)
    (characterData : CharacterDataStruct) (nowMs : Int) :
    Keeps c (c.updateCharacterData id characterData nowMs) := by
  unfold ClientData.updateCharacterData
  split
  · rename_i entry hf
    exact Keeps.put hf rfl rfl
  · exact Keeps.refl c

theorem keeps_touchSession (c : ClientData) (id now nowMs : Int) :
    Keeps c (c.touchSession id now nowMs).2 := by
  unfold ClientData.touchSession
  split
  · exact Keeps.refl c
  · dsimp only
    split
    · exact Keeps.refl c
    · rename_i entry hf
      exact Keeps.put hf rfl rfl

/-- An operation stores an entry, or keeps the identity of every entry it does not end. -/
theorem find_apply (c : ClientData) (op : SessionOp) (id : Int) :
    (∃ d nowMs, op = .storeClientData d nowMs ∧ d.clientId = id ∧
      (op.apply c).find id = some { d with lastSeenMs := nowMs, password := [] }) ∨
    ((∀ d nowMs, op = .storeClientData d nowMs → d.clientId ≠ id) ∧
      ((op.Ends id c ∧ (op.apply c).find id = none) ∨
      (¬ op.Ends id c ∧ (c.find id = none → (op.apply c).find id = none) ∧
        ∀ entry, c.find id = some entry → ∃ entry', (op.apply c).find id = some entry' ∧
          identity entry' = identity entry ∧ entry'.password = entry.password))) := by
  have hkeeps : ∀ c', Keeps c c' → (c.find id = none → c'.find id = none) ∧
      ∀ entry, c.find id = some entry → ∃ entry', c'.find id = some entry' ∧
        identity entry' = identity entry ∧ entry'.password = entry.password :=
    fun c' h => ⟨h.find_none id, h.find_some id⟩
  cases op with
  | storeClientData d nowMs =>
    by_cases h : d.clientId = id
    · refine Or.inl ⟨d, nowMs, rfl, h, ?_⟩
      rw [apply, ClientData.find_storeClientData, if_pos h.symm]
    · refine Or.inr ⟨?_, Or.inr ⟨h, ?_⟩⟩
      · rintro d' nowMs' heq
        cases heq
        exact h
      · rw [apply, ClientData.find_storeClientData, if_neg (Ne.symm h)]
        exact ⟨fun h => h, fun entry h => ⟨entry, h, rfl, rfl⟩⟩
  | updateClientData id' field value nowMs =>
    exact Or.inr ⟨by simp, Or.inr ⟨fun h => h, hkeeps _ (keeps_updateClientData ..)⟩⟩
  | updateCharacterData id' characterData nowMs =>
    exact Or.inr ⟨by simp, Or.inr ⟨fun h => h, hkeeps _ (keeps_updateCharacterData ..)⟩⟩
  | touchSession id' now nowMs =>
    exact Or.inr ⟨by simp, Or.inr ⟨fun h => h, hkeeps _ (keeps_touchSession ..)⟩⟩
  | removeClientData id' =>
    refine Or.inr ⟨by simp, ?_⟩
    rw [apply, ClientData.find_removeClientData]
    by_cases h : id' = id
    · exact Or.inl ⟨h, if_pos h.symm⟩
    · rw [if_neg (Ne.symm h)]
      exact Or.inr ⟨h, fun h => h, fun entry h => ⟨entry, h, rfl, rfl⟩⟩
  | sweepExpiredSessions nowMs ttlMs =>
    refine Or.inr ⟨by simp, ?_⟩
    rw [apply, ClientData.find_sweepExpiredSessions, Ends,
      ClientData.mem_sweepExpiredSessions]
    cases hf : c.find id with
    | none => simp
    | some entry =>
      by_cases hexp : ClientData.isExpired nowMs ttlMs entry <;>
        simp [Option.filter, hexp]

/-! ## The store is an index of the history -/

theorem latest_append {ops : List SessionOp} {op : SessionOp} {d : ClientDataStruct} :
    Latest (ops ++ [op]) d ↔
      (∃ nowMs, op = .storeClientData d nowMs) ∨
      (Latest ops d ∧ ¬ op.Ends d.clientId (run ops)) := by
  constructor
  · rintro ⟨pre, nowMs, post, heq, hpost⟩
    rcases List.eq_nil_or_concat' post with rfl | ⟨post, last, rfl⟩
    · left
      obtain ⟨-, hop⟩ := List.append_inj' heq rfl
      exact ⟨nowMs, by simpa using hop⟩
    · right
      rw [← List.cons_append, ← List.append_assoc] at heq
      obtain ⟨rfl, hop⟩ := List.append_inj' heq rfl
      obtain rfl : op = last := by simpa using hop
      refine ⟨⟨pre, nowMs, post, rfl, fun post₁ op' post₂ hsplit => ?_⟩, ?_⟩
      · exact hpost post₁ op' (post₂ ++ [op]) (by rw [hsplit]; simp)
      · exact hpost post op [] rfl
  · rintro (⟨nowMs, rfl⟩ | ⟨⟨pre, nowMs, post, rfl, hpost⟩, hlast⟩)
    · exact ⟨ops, nowMs, [], rfl, fun post₁ op post₂ h => by simp at h⟩
    · refine ⟨pre, nowMs, post ++ [op], by simp, fun post₁ op' post₂ hsplit => ?_⟩
      rcases List.eq_nil_or_concat' post₂ with rfl | ⟨post₂, last, rfl⟩
      · obtain ⟨rfl, hop⟩ := List.append_inj' hsplit rfl
        obtain rfl : op = op' := by simpa using hop
        exact hlast
      · have hsplit' : post ++ [op] = (post₁ ++ op' :: post₂) ++ [last] := by
          rw [hsplit]
          simp
        obtain ⟨hpost', -⟩ := List.append_inj' hsplit' rfl
        exact hpost post₁ op' post₂ hpost'

/-- Some entry of `id` carries the identity of a store exactly if that store is the latest
one for `id` and still present. -/
theorem exists_find_run_iff (ops : List SessionOp) (id : Int) (hash : Bytes) :
    (∃ entry, (run ops).find id = some entry ∧ entry.hash = hash) ↔
      ∃ d : ClientDataStruct, d.clientId = id ∧ d.hash = hash ∧ Latest ops d := by
  induction ops using List.reverseRecOn generalizing hash with
  | nil => simp [run, Latest]
  | append_singleton ops op ih =>
    rw [run_append_singleton]
    simp only [latest_append]
    rcases find_apply (run ops) op id with ⟨d, nowMs, rfl, hid, hfind⟩ | ⟨hstore, hcase⟩
    · rw [hfind]
      constructor
      · rintro ⟨entry, hentry, rfl⟩
        cases hentry
        exact ⟨d, hid, rfl, Or.inl ⟨nowMs, rfl⟩⟩
      · rintro ⟨d', hid', rfl, ⟨nowMs', heq⟩ | ⟨-, hends⟩⟩
        · cases heq
          exact ⟨_, rfl, rfl⟩
        · exact absurd (hid.trans hid'.symm) hends
    · rcases hcase with ⟨hends, hnone⟩ | ⟨hends, hnone, hsome⟩
      · rw [hnone]
        constructor
        · rintro ⟨entry, hentry, -⟩
          cases hentry
        · rintro ⟨d, rfl, -, ⟨nowMs, heq⟩ | ⟨-, hno⟩⟩
          · exact absurd rfl (hstore d nowMs heq)
          · exact absurd hends hno
      · have hold : (∃ entry, (op.apply (run ops)).find id = some entry ∧ entry.hash = hash) ↔
            ∃ entry, (run ops).find id = some entry ∧ entry.hash = hash := by
          cases hf : (run ops).find id with
          | none => simp [hnone hf]
          | some entry =>
            obtain ⟨entry', hentry', hident, -⟩ := hsome entry hf
            have hhash : entry'.hash = entry.hash := congrArg (fun i => i.2.1) hident
            simp [hentry', hhash]
        rw [hold, ih]
        refine exists_congr fun d => and_congr_right fun hid => and_congr_right fun _ => ?_
        constructor
        · exact fun h => Or.inr ⟨h, hid ▸ hends⟩
        · rintro (⟨nowMs, heq⟩ | ⟨h, -⟩)
          · exact absurd hid (hstore d nowMs heq)
          · exact h

/-- In every reachable store an entry stands under its own id and has no password. -/
theorem wellFormed_run (ops : List SessionOp) {id : Int} {entry : ClientDataStruct}
    (h : (run ops).find id = some entry) : entry.clientId = id ∧ entry.password = [] := by
  induction ops using List.reverseRecOn generalizing entry with
  | nil => simp [run] at h
  | append_singleton ops op ih =>
    rw [run_append_singleton] at h
    rcases find_apply (run ops) op id with ⟨d, nowMs, rfl, hid, hfind⟩ | ⟨-, hcase⟩
    · rw [hfind] at h
      cases h
      exact ⟨hid, rfl⟩
    · rcases hcase with ⟨-, hnone⟩ | ⟨-, hnone, hsome⟩
      · rw [hnone] at h
        cases h
      · cases hf : (run ops).find id with
        | none =>
          rw [hnone hf] at h
          cases h
        | some old =>
          obtain ⟨entry', hentry', hident, hpw⟩ := hsome old hf
          rw [hentry'] at h
          cases h
          obtain ⟨hid, hnopw⟩ := ih hf
          exact ⟨(congrArg Prod.fst hident).trans hid, hpw.trans hnopw⟩

theorem validateSession_run_iff (ops : List SessionOp) (id : Int) (hash : Bytes) :
    (run ops).validateSession id hash = true ↔
      id ≠ 0 ∧ hash ≠ [] ∧
        ∃ d : ClientDataStruct, d.clientId = id ∧ d.hash = hash ∧ Latest ops d := by
  rw [ClientData.validateSession_iff, exists_find_run_iff]

theorem validateSession_unique {c : ClientData} {id : Int} {hash hash' : Bytes}
    (h : c.validateSession id hash = true) (h' : c.validateSession id hash' = true) :
    hash = hash' := by
  obtain ⟨-, -, entry, hf, rfl⟩ := ClientData.validateSession_iff.mp h
  obtain ⟨-, -, entry', hf', rfl⟩ := ClientData.validateSession_iff.mp h'
  rw [hf] at hf'
  cases hf'
  rfl

/-- After a later store for the same account, a hash that is not stored again is dead. -/
theorem superseded_not_latest {ops pre post : List SessionOp} {d d' : ClientDataStruct}
    {nowMs : Int} (hops : ops = pre ++ .storeClientData d' nowMs :: post)
    (hid : d'.clientId = d.clientId) (hne : d'.hash ≠ d.hash)
    (hlater : ∀ d'' nowMs', .storeClientData d'' nowMs' ∈ post →
      d''.clientId = d.clientId → d''.hash ≠ d.hash)
    {e : ClientDataStruct} (hide : e.clientId = d.clientId) (hhash : e.hash = d.hash) :
    ¬ Latest ops e := by
  rintro ⟨pre', nowMs', post', heq, hpost⟩
  rw [hops] at heq
  rcases List.append_eq_append_iff.mp heq with ⟨as, hpre, hrest⟩ | ⟨bs, hpre, hrest⟩
  · cases as with
    | nil =>
      injection hrest with hd hpost'
      injection hd with hd
      subst hd
      exact hne hhash
    | cons a as =>
      injection hrest with hd hpost'
      subst hd
      refine hlater e nowMs' ?_ hide hhash
      rw [hpost']
      exact List.mem_append_right _ List.mem_cons_self
  · cases bs with
    | nil =>
      injection hrest with hd hpost'
      injection hd with hd
      subst hd
      exact hne hhash
    | cons b bs =>
      injection hrest with hd hpost'
      refine hpost bs (.storeClientData d' nowMs) post hpost' ?_
      exact hid.trans hide.symm

/-- The session store accepts exactly the last issued, still present token, and keeps its
entries well formed. -/
theorem session_store_accepts_latest (ops : List SessionOp) :
    (∀ id hash, (run ops).validateSession id hash = true ↔
      id ≠ 0 ∧ hash ≠ [] ∧ ∃ d : ClientDataStruct, d.clientId = id ∧ d.hash = hash ∧ Latest ops d) ∧
    (∀ id hash hash', (run ops).validateSession id hash = true →
      (run ops).validateSession id hash' = true → hash = hash') ∧
    (∀ pre d' nowMs post (d : ClientDataStruct), ops = pre ++ .storeClientData d' nowMs :: post →
      d'.clientId = d.clientId → d'.hash ≠ d.hash →
      (∀ d'' nowMs', .storeClientData d'' nowMs' ∈ post → d''.clientId = d.clientId →
        d''.hash ≠ d.hash) →
      (run ops).validateSession d.clientId d.hash = false) ∧
    (∀ id entry, (run ops).find id = some entry → entry.clientId = id ∧ entry.password = []) ∧
    (∀ op : SessionOp, op.IsUpdate → ∀ id,
      ((op.apply (run ops)).find id).map identity = ((run ops).find id).map identity) ∧
    (∀ id field value nowMs, field = str "characterId" ∨ field = str "characterLevel" →
      stoi value = none →
      (run ops).updateClientData id field value nowMs = run ops) := by
  refine ⟨validateSession_run_iff ops, fun id hash hash' => validateSession_unique, ?_,
    fun id entry => wellFormed_run ops, ?_, ?_⟩
  · intro pre d' nowMs post d hops hid hne hlater
    rw [Bool.eq_false_iff]
    intro hv
    obtain ⟨-, -, e, hide, hhash, hlatest⟩ := (validateSession_run_iff ops _ _).mp hv
    exact superseded_not_latest hops hid hne hlater hide hhash hlatest
  · intro op hop id
    have hkeeps : Keeps (run ops) (op.apply (run ops)) := by
      cases op with
      | updateClientData => exact keeps_updateClientData ..
      | updateCharacterData => exact keeps_updateCharacterData ..
      | _ => exact hop.elim
    cases hf : (run ops).find id with
    | none => rw [hkeeps.find_none id hf]
    | some entry =>
      obtain ⟨entry', hentry', hident, -⟩ := hkeeps.find_some id entry hf
      rw [hentry', Option.map_some, Option.map_some, hident]
  · intro id field value nowMs hfield hstoi
    unfold ClientData.updateClientData
    cases hf : (run ops).find id with
    | none => rfl
    | some entry =>
      have hnone : ClientData.updateField entry field value = none := by
        rcases hfield with rfl | rfl
        · simp [ClientData.updateField, hstoi]
        · simp [ClientData.updateField, hstoi]
      simp only [hnone]

end SessionOp

end LoginServer
