import Mathlib.Data.List.AList
import LoginServer.Data.DataStructs
import LoginServer.Utils.Stoi

/-!
# The session store

`ClientData` with its map from account ids to entries. What a method does with the map it
does under the mutex, in one step. The value of `nowMs()` is an argument: the store and the
updates read it under the mutex, `touchSession` before, so its value may be an older one.
The map is unordered: an entry changed in place is written as an insertion.
-/

namespace LoginServer

structure ClientData where
  clientDataMap : AList fun _ : Int => ClientDataStruct

namespace ClientData

def empty : ClientData := ⟨∅⟩

def find (c : ClientData) (id : Int) : Option ClientDataStruct := c.clientDataMap.lookup id

def put (c : ClientData) (id : Int) (entry : ClientDataStruct) : ClientData :=
  ⟨c.clientDataMap.insert id entry⟩

@[simp] theorem find_empty (id : Int) : empty.find id = none := AList.lookup_empty id

@[simp] theorem find_put (c : ClientData) (id id' : Int) (entry : ClientDataStruct) :
    (c.put id entry).find id' = if id' = id then some entry else c.find id' := by
  unfold find put
  by_cases h : id' = id
  · subst h
    rw [AList.lookup_insert, if_pos rfl]
  · rw [AList.lookup_insert_ne h, if_neg h]

def storeClientData (c : ClientData) (clientData : ClientDataStruct) (nowMs : Int) : ClientData :=
  c.put clientData.clientId { clientData with lastSeenMs := nowMs, password := [] }

/-- The entry after `updateClientData(id, field, value)`, without the time stamp: `none`
when the field is unknown or `std::stoi` throws. -/
def updateField (entry : ClientDataStruct) (field value : Bytes) : Option ClientDataStruct :=
  if field = str "characterId" then
    (stoi value).map fun n =>
      { entry with characterData := { entry.characterData with characterId := n } }
  else if field = str "characterLevel" then
    (stoi value).map fun n =>
      { entry with characterData := { entry.characterData with characterLevel := n } }
  else if field = str "characterName" then
    some { entry with characterData := { entry.characterData with characterName := value } }
  else if field = str "characterClass" then
    some { entry with characterData := { entry.characterData with characterClass := value } }
  else none

def updateClientData (c : ClientData) (id : Int) (field value : Bytes) (nowMs : Int) :
    ClientData :=
  match c.find id with
  | some entry =>
    match updateField entry field value with
    | some entry => c.put id { entry with lastSeenMs := nowMs }
    | none => c
  | none => c

def updateCharacterData (c : ClientData) (id : Int) (characterData : CharacterDataStruct)
    (nowMs : Int) : ClientData :=
  match c.find id with
  | some entry => c.put id { entry with characterData := characterData, lastSeenMs := nowMs }
  | none => c

def getClientData (c : ClientData) (id : Int) : Option ClientDataStruct :=
  if id = 0 then none else c.find id

/-- `static_cast<unsigned>(a ^ b)` of two chars. -/
def xorChars (a b : UInt8) : UInt32 := (a.toInt8.toInt32 ^^^ b.toInt8.toInt32).toUInt32

/-- The loop of `safeEqual`, over the two strings in step. -/
def diffLoop (diff : UInt32) : Bytes → Bytes → UInt32
  | a :: as, b :: bs => diffLoop (diff ||| xorChars a b) as bs
  | _, _ => diff

def safeEqual (a b : Bytes) : Bool :=
  if a.length ≠ b.length then false else diffLoop 0 a b = 0

def validateSession (c : ClientData) (id : Int) (hash : Bytes) : Bool :=
  if id = 0 || hash.isEmpty then false
  else
    match c.find id with
    | none => false
    | some entry => if entry.hash.isEmpty then false else safeEqual entry.hash hash

/-- `touchSession(id, now)`; the handlers leave `now` at 0, and `nowMs` is what was read from
the clock. -/
def touchSession (c : ClientData) (id now nowMs : Int) : Bool × ClientData :=
  if id = 0 then (false, c)
  else
    let now := if now = 0 then nowMs else now
    match c.find id with
    | none => (false, c)
    | some entry => (true, c.put id { entry with lastSeenMs := now })

def removeClientData (c : ClientData) (id : Int) : Bool × ClientData :=
  match c.find id with
  | some _ => (true, ⟨c.clientDataMap.erase id⟩)
  | none => (false, c)

def isExpired (nowMs ttlMs : Int) (entry : ClientDataStruct) : Bool :=
  nowMs - entry.lastSeenMs > ttlMs

/-- The ids that the loop of `sweepExpiredSessions` erases, and the map it leaves. -/
def sweepExpiredSessions (c : ClientData) (nowMs ttlMs : Int) : List Int × ClientData :=
  (((c.clientDataMap.entries.filter fun e => isExpired nowMs ttlMs e.2).map Sigma.fst),
    ⟨⟨c.clientDataMap.entries.filter fun e => !isExpired nowMs ttlMs e.2,
      c.clientDataMap.nodupKeys.sublist List.filter_sublist⟩⟩)

def getClientsDataMap (c : ClientData) : List ClientDataStruct :=
  c.clientDataMap.entries.map Sigma.snd

def size (c : ClientData) : Nat := c.clientDataMap.entries.length

/-! ## Lookups after each operation -/

theorem find_storeClientData (c : ClientData) (d : ClientDataStruct) (nowMs id : Int) :
    (c.storeClientData d nowMs).find id =
      if id = d.clientId then some { d with lastSeenMs := nowMs, password := [] }
      else c.find id := by
  rw [storeClientData, find_put]

theorem find_touchSession (c : ClientData) (id nowMs id' : Int) :
    (c.touchSession id 0 nowMs).2.find id' =
      if id' = id ∧ id ≠ 0 then (c.find id).map fun entry => { entry with lastSeenMs := nowMs }
      else c.find id' := by
  unfold touchSession
  by_cases hzero : id = 0
  · simp [hzero]
  · have hnow : (if (0 : Int) = 0 then nowMs else 0) = nowMs := if_pos rfl
    rw [if_neg hzero, hnow]
    dsimp only
    by_cases hid : id' = id
    · subst hid
      have hboth : id' = id' ∧ id' ≠ 0 := ⟨rfl, hzero⟩
      rw [if_pos hboth]
      cases hfound : c.find id' with
      | none => exact hfound
      | some entry =>
        rw [Option.map_some]
        exact (find_put ..).trans (if_pos rfl)
    · have hneither : ¬ (id' = id ∧ id ≠ 0) := fun hboth => hid hboth.1
      rw [if_neg hneither]
      cases c.find id with
      | none => rfl
      | some entry => exact (find_put ..).trans (if_neg hid)

theorem find_removeClientData (c : ClientData) (id id' : Int) :
    (c.removeClientData id).2.find id' = if id' = id then none else c.find id' := by
  unfold removeClientData
  by_cases h : id' = id
  · subst h
    rw [if_pos rfl]
    cases hf : c.find id' with
    | none => exact hf
    | some entry => exact AList.lookup_erase _ _
  · rw [if_neg h]
    cases c.find id with
    | none => rfl
    | some entry => exact AList.lookup_erase_ne h

theorem mem_find_iff {c : ClientData} {id : Int} {entry : ClientDataStruct} :
    c.find id = some entry ↔ ⟨id, entry⟩ ∈ c.clientDataMap.entries :=
  AList.mem_lookup_iff

theorem find_sweepExpiredSessions (c : ClientData) (nowMs ttlMs id : Int) :
    (c.sweepExpiredSessions nowMs ttlMs).2.find id =
      (c.find id).filter fun entry => !isExpired nowMs ttlMs entry := by
  apply Option.ext
  intro entry
  rw [mem_find_iff, Option.filter_eq_some_iff, mem_find_iff]
  exact List.mem_filter

theorem mem_sweepExpiredSessions {c : ClientData} {nowMs ttlMs id : Int} :
    id ∈ (c.sweepExpiredSessions nowMs ttlMs).1 ↔
      ∃ entry, c.find id = some entry ∧ isExpired nowMs ttlMs entry := by
  constructor
  · intro h
    obtain ⟨⟨id', entry⟩, he, rfl⟩ := List.mem_map.mp h
    obtain ⟨he, hexp⟩ := List.mem_filter.mp he
    exact ⟨entry, mem_find_iff.mpr he, hexp⟩
  · rintro ⟨entry, he, hexp⟩
    exact List.mem_map.mpr ⟨⟨id, entry⟩, List.mem_filter.mpr ⟨mem_find_iff.mp he, hexp⟩, rfl⟩

/-! ## The branch-free comparison is string equality -/

theorem xorChars_eq_zero_iff {a b : UInt8} : xorChars a b = 0 ↔ a = b := by
  constructor
  · intro h
    have hbits : a.toInt8.toInt32.toBitVec ^^^ b.toInt8.toInt32.toBitVec = 0#32 :=
      congrArg UInt32.toBitVec h
    have h32 : a.toInt8.toInt32 = b.toInt8.toInt32 :=
      Int32.toBitVec_inj.mp (BitVec.xor_eq_zero_iff.mp hbits)
    have h8 : a.toInt8 = b.toInt8 := by
      rw [← Int8.toInt8_toInt32 a.toInt8, h32, Int8.toInt8_toInt32]
    exact congrArg Int8.toUInt8 h8
  · rintro rfl
    rw [xorChars, Int32.xor_self]
    rfl

theorem or_eq_zero_iff {a b : UInt32} : a ||| b = 0 ↔ a = 0 ∧ b = 0 := by
  simp [← UInt32.toNat_inj, Nat.or_eq_zero_iff]

theorem diffLoop_eq_zero_iff {diff : UInt32} {as bs : Bytes} (h : as.length = bs.length) :
    diffLoop diff as bs = 0 ↔ diff = 0 ∧ as = bs := by
  induction as generalizing diff bs with
  | nil =>
    cases bs with
    | nil => simp [diffLoop]
    | cons b bs => cases h
  | cons a as ih =>
    cases bs with
    | nil => cases h
    | cons b bs =>
      rw [diffLoop, ih (by simpa using h), or_eq_zero_iff, xorChars_eq_zero_iff, List.cons.injEq,
        and_assoc]

theorem safeEqual_iff {a b : Bytes} : safeEqual a b = true ↔ a = b := by
  unfold safeEqual
  split
  · rename_i hlen
    simp only [Bool.false_eq_true, false_iff]
    rintro rfl
    exact hlen rfl
  · rename_i hlen
    rw [decide_eq_true_iff, diffLoop_eq_zero_iff (not_not.mp hlen)]
    exact and_iff_right rfl

/-- A session validates exactly against the hash of its entry. -/
theorem validateSession_iff {c : ClientData} {id : Int} {hash : Bytes} :
    c.validateSession id hash = true ↔
      id ≠ 0 ∧ hash ≠ [] ∧ ∃ entry, c.find id = some entry ∧ entry.hash = hash := by
  unfold validateSession
  by_cases hid : id = 0
  · simp [hid]
  · by_cases hh : hash = []
    · simp [hh]
    · cases c.find id with
      | none => simp
      | some entry =>
        by_cases he : entry.hash = []
        · simp [he, hid, hh, Ne.symm hh]
        · simp [he, hid, hh, safeEqual_iff]

end ClientData

end LoginServer
