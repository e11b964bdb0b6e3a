import LoginServer.Network.Reassembly

/-!
# The bound on a connection's buffer

The framing layer once more, with its arithmetic and its string operations as partial
ones: a 32-bit sum that wraps, a `substr` or an `erase` that is not within the string, and
the late overflow branch of `extractV2Messages` have no result. The checked reads always
have one, and it is that of the framing layer.
-/

namespace LoginServer

open protocol

/-- `a + b` where it does not wrap. -/
def addChecked (a b : UInt32) : Option UInt32 :=
  if a.toNat + b.toNat < 2 ^ 32 then some (a + b) else none

/-- `s.substr(pos, count)` where all of it is within `s`. -/
def substrChecked (s : Bytes) (pos count : Nat) : Option Bytes :=
  if pos + count ≤ s.length then some ((s.drop pos).take count) else none

/-- `s.erase(0, count)` where all of it is within `s`. -/
def eraseChecked (s : Bytes) (count : Nat) : Option Bytes :=
  if count ≤ s.length then some (s.drop count) else none

theorem addChecked_of_lt {a b : UInt32} (h : a.toNat + b.toNat < 2 ^ 32) :
    addChecked a b = some (a + b) := if_pos h

theorem substrChecked_of_le {s : Bytes} {pos count : Nat} (h : pos + count ≤ s.length) :
    substrChecked s pos count = some ((s.drop pos).take count) := if_pos h

theorem eraseChecked_of_le {s : Bytes} {count : Nat} (h : count ≤ s.length) :
    eraseChecked s count = some (s.drop count) := if_pos h

namespace NetworkManager

def extractLoopChecked (clientSocket : Socket) :
    Nat → NetworkManager → Bytes → Option (NetworkManager × Option Bytes)
  | 0, nm, accumulatedData => some (nm, some accumulatedData)
  | k + 1, nm, accumulatedData =>
    match accumulatedData with
    | b0 :: b1 :: b2 :: b3 :: _ =>
      let n := frameLength b0 b1 b2 b3
      if n.toNat > kMaxFrameBytes then
        let nm := nm.log clientSocket (.sendResponse (str "error") oversizeError)
        some (nm.reapSocket clientSocket, none)
      else do
        let sum ← addChecked 4 n
        if accumulatedData.length < sum.toNat then
          some (nm, some accumulatedData)
        else
          let message ← substrChecked accumulatedData 4 n.toNat
          let rest ← eraseChecked accumulatedData sum.toNat
          extractLoopChecked clientSocket k (nm.log clientSocket (.processMessage message)) rest
    | _ => some (nm, some accumulatedData)

def extractV2MessagesChecked (nm : NetworkManager) (clientSocket : Socket)
    (accumulatedData : Bytes) : Option NetworkManager := do
  match ← extractLoopChecked clientSocket MAX_MESSAGES_PER_READ nm accumulatedData with
  | (nm, none) => some nm
  | (nm, some accumulatedData) =>
    if accumulatedData.isEmpty then some nm
    else if accumulatedData.length > kMaxAccumulatedBytesV2 then none
    else some (nm.setBuffer clientSocket (some accumulatedData))

def handleClientDataChecked (nm : NetworkManager) (clientSocket : Socket) (dataBuffer : Bytes) :
    Option NetworkManager :=
  let accumulatedData := (nm.socketBuffers clientSocket).getD []
  let nm := nm.setBuffer clientSocket ((nm.socketBuffers clientSocket).map fun _ => [])
  if accumulatedData.length + dataBuffer.length > kMaxAccumulatedBytesV2 then
    let nm := nm.setBuffer clientSocket none
    some ((nm.log clientSocket .overCap).close clientSocket)
  else nm.extractV2MessagesChecked clientSocket (accumulatedData ++ dataBuffer)

def readCompletedChecked (nm : NetworkManager) (clientSocket : Socket) (dataBuffer : Bytes) :
    Option NetworkManager :=
  if nm.isOpen clientSocket then nm.handleClientDataChecked clientSocket dataBuffer
  else some (nm.reapSocket clientSocket)

def readAllChecked (nm : NetworkManager) (reads : List (Socket × Bytes)) :
    Option NetworkManager :=
  reads.foldlM (fun nm r => nm.readCompletedChecked r.1 r.2) nm

/-! ## The checks succeed -/

/-- The length is tested against the cap of a frame before it is added to, and the string
against the sum before it is cut. -/
theorem extractLoopChecked_eq (p : Socket) (k : Nat) (nm : NetworkManager) (data : Bytes) :
    extractLoopChecked p k nm data = some (extractLoop p k nm data) := by
  induction k generalizing nm data with
  | zero => rfl
  | succ k ih =>
    match data with
    | [] => rfl
    | [_] => rfl
    | [_, _] => rfl
    | [_, _, _] => rfl
    | b0 :: b1 :: b2 :: b3 :: tail =>
      simp only [extractLoopChecked, extractLoop]
      by_cases hcap : (frameLength b0 b1 b2 b3).toNat > kMaxFrameBytes
      · rw [if_pos hcap, if_pos hcap]
      · have hsum := four_add_toNat (Nat.not_lt.mp hcap)
        have hadd := addChecked_of_lt (a := 4) (b := frameLength b0 b1 b2 b3) (by
          change 4 + _ < _
          rw [← hsum]
          exact (4 + frameLength b0 b1 b2 b3).toNat_lt)
        rw [if_neg hcap, if_neg hcap, hadd, Option.bind_eq_bind, Option.bind_some]
        by_cases hlen : (b0 :: b1 :: b2 :: b3 :: tail).length <
            (4 + frameLength b0 b1 b2 b3).toNat
        · rw [if_pos hlen, if_pos hlen]
        · have hwithin := Nat.not_lt.mp hlen
          rw [if_neg hlen, if_neg hlen, substrChecked_of_le (hsum ▸ hwithin), Option.bind_eq_bind,
            Option.bind_some, eraseChecked_of_le hwithin, Option.bind_some]
          exact ih _ _

/-- The loop never makes its string longer. -/
theorem length_extractLoop_le {p : Socket} {k : Nat} {nm nm' : NetworkManager} {data rest : Bytes}
    (h : extractLoop p k nm data = (nm', some rest)) : rest.length ≤ data.length := by
  rw [extractLoop_eq] at h
  split at h
  · cases h
  · cases h
    exact wireCodec.length_drain_snd_le k data

theorem extractV2MessagesChecked_eq (nm : NetworkManager) (p : Socket) {data : Bytes}
    (hdata : data.length ≤ kMaxAccumulatedBytesV2) :
    nm.extractV2MessagesChecked p data = some (nm.extractV2Messages p data) := by
  unfold extractV2MessagesChecked extractV2Messages
  rw [extractLoopChecked_eq, Option.bind_eq_bind, Option.bind_some]
  rcases hloop : extractLoop p MAX_MESSAGES_PER_READ nm data with ⟨nm', left⟩
  cases left with
  | none => rfl
  | some rest =>
    have hlate : ¬ rest.length > kMaxAccumulatedBytesV2 := by
      have hle := length_extractLoop_le hloop
      omega
    dsimp only
    rw [if_neg hlate, if_neg hlate]
    split
    · rfl
    · rfl

theorem handleClientDataChecked_eq (nm : NetworkManager) (p : Socket) (chunk : Bytes) :
    nm.handleClientDataChecked p chunk = some (nm.handleClientData p chunk) := by
  unfold handleClientDataChecked handleClientData
  dsimp only
  split
  · rfl
  · rename_i hroom
    refine extractV2MessagesChecked_eq _ p ?_
    rw [List.length_append]
    exact Nat.not_lt.mp hroom

theorem readCompletedChecked_eq (nm : NetworkManager) (p : Socket) (chunk : Bytes) :
    nm.readCompletedChecked p chunk = some (nm.readCompleted p chunk) := by
  unfold readCompletedChecked readCompleted
  split
  · exact handleClientDataChecked_eq nm p chunk
  · rfl

theorem readAllChecked_eq (nm : NetworkManager) (reads : List (Socket × Bytes)) :
    nm.readAllChecked reads = some (nm.readAll reads) := by
  induction reads generalizing nm with
  | nil => rfl
  | cons r reads ih =>
    unfold readAllChecked
    rw [List.foldlM_cons, readCompletedChecked_eq, Option.bind_eq_bind, Option.bind_some]
    exact ih _

/-! ## The bound -/

/-- Every entry of `socketBuffers` is within the cap. -/
def Bounded (nm : NetworkManager) : Prop :=
  ∀ p entry, nm.socketBuffers p = some entry → entry.length ≤ kMaxAccumulatedBytesV2

variable {nm : NetworkManager}

theorem Bounded.setBuffer (h : nm.Bounded) (p : Socket) {entry : Option Bytes}
    (hentry : ∀ data, entry = some data → data.length ≤ kMaxAccumulatedBytesV2) :
    (nm.setBuffer p entry).Bounded := by
  intro q data hdata
  by_cases hq : q = p
  · subst hq
    simp only [NetworkManager.setBuffer, Function.update_self] at hdata
    exact hentry data hdata
  · simp only [NetworkManager.setBuffer, Function.update_of_ne hq] at hdata
    exact h q data hdata

theorem Bounded.erase (h : nm.Bounded) (p : Socket) : (nm.setBuffer p none).Bounded :=
  h.setBuffer p fun _ hdata => by cases hdata

theorem Bounded.reapSocket (h : nm.Bounded) (p : Socket) : (nm.reapSocket p).Bounded :=
  h.erase p

theorem Bounded.extractLoop (h : nm.Bounded) (p : Socket) (k : Nat) (data : Bytes) :
    (extractLoop p k nm data).1.Bounded := by
  have hlogged : ∀ (messages : List Bytes) (nm : NetworkManager), nm.Bounded →
      (nm.logMessages p messages).Bounded := by
    intro messages
    induction messages with
    | nil => exact fun _ h => h
    | cons message messages ih => exact fun nm h => ih _ h
  rw [extractLoop_eq]
  split
  · exact Bounded.reapSocket (hlogged _ nm h) p
  · exact hlogged _ nm h

theorem Bounded.handleClientData (h : nm.Bounded) (p : Socket) (chunk : Bytes) :
    (nm.handleClientData p chunk).Bounded := by
  unfold NetworkManager.handleClientData
  dsimp only
  have hmoved : (nm.setBuffer p ((nm.socketBuffers p).map fun _ => [])).Bounded := by
    refine h.setBuffer p fun data hdata => ?_
    obtain ⟨old, -, rfl⟩ := Option.map_eq_some_iff.mp hdata
    exact Nat.zero_le _
  split
  · exact hmoved.erase p
  · rename_i hroom
    unfold extractV2Messages
    have hloop := hmoved.extractLoop p MAX_MESSAGES_PER_READ
      ((nm.socketBuffers p).getD [] ++ chunk)
    split
    · rename_i hleft
      rwa [hleft] at hloop
    · rename_i nm' rest hleft
      rw [hleft] at hloop
      have hle := length_extractLoop_le hleft
      rw [List.length_append] at hle
      split
      · exact hloop
      · split
        · exact hloop.setBuffer p fun data hdata => by
            cases hdata
            exact Nat.zero_le _
        · exact hloop.setBuffer p fun data hdata => by
            cases hdata
            omega

theorem Bounded.readAll (h : nm.Bounded) (reads : List (Socket × Bytes)) :
    (nm.readAll reads).Bounded := by
  induction reads generalizing nm with
  | nil => exact h
  | cons r reads ih =>
    refine ih ?_
    change (nm.readCompleted r.1 r.2).Bounded
    unfold readCompleted
    split
    · exact h.handleClientData r.1 r.2
    · exact h.reapSocket r.1

end NetworkManager

/-- Whatever is read on whichever connections, in whatever chunks: no buffer holds more
than `kMaxAccumulatedBytesV2` bytes, and the checks of the sums, of the cuts and of the
late overflow branch all succeed. -/
theorem buffers_bounded (reads : List (Socket × Bytes)) :
    (∀ p entry, (NetworkManager.fresh.readAll reads).socketBuffers p = some entry →
      entry.length ≤ kMaxAccumulatedBytesV2) ∧
    NetworkManager.fresh.readAllChecked reads = some (NetworkManager.fresh.readAll reads) := by
  have hfresh : NetworkManager.fresh.Bounded := fun _ _ hdata => by cases hdata
  exact ⟨hfresh.readAll reads, NetworkManager.readAllChecked_eq _ reads⟩

end LoginServer
