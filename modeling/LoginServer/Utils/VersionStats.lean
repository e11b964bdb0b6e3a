import LoginServer.Relations.Tally
import LoginServer.Utils.Bytes

/-!
# Version statistics

`VersionStats`: how often each client version has knocked since the last `clear`, with
`_other` as the bucket of the versions that came when the map was full. The counts and the
total are `uint64_t`; here they are integers, which is the same for the first `2 ^ 64 - 1`
calls of `record` after a `clear`.
-/

namespace LoginServer

open Relations

def kMaxKeyLen : Nat := 32

def kMaxDistinct : Nat := 64

def kOtherBucket : Bytes := str "_other"

def kEmptyBucket : Bytes := str "(empty)"

structure VersionStats where
  counts : List (Bytes × Int) := []
  total : Int := 0

namespace VersionStats

/-- The key that `record` looks up. -/
def keyOf (version : Bytes) : Bytes :=
  let key := version.take kMaxKeyLen
  if key.isEmpty then kEmptyBucket else key

/-- `++counts_[key]`, which starts a missing count at 0. -/
def increment (counts : List (Bytes × Int)) (key : Bytes) : List (Bytes × Int) :=
  upsert (· + ·) (key, 1) counts

def record (stats : VersionStats) (version : Bytes) : VersionStats :=
  let key := keyOf version
  { counts :=
      match stats.counts.find? fun row => row.1 = key with
      | none =>
        if kMaxDistinct ≤ stats.counts.length then increment stats.counts kOtherBucket
        else increment stats.counts key
      | some _ => increment stats.counts key
    total := stats.total + 1 }

def clear (_ : VersionStats) : VersionStats := {}

end VersionStats

/-- The calls that write. -/
inductive StatsCall where
  | record (version : Bytes)
  | clear

namespace StatsCall

def apply (stats : VersionStats) : StatsCall → VersionStats
  | .record version => stats.record version
  | .clear => stats.clear

/-- The versions recorded since the last `clear`, the oldest first. -/
def recorded (versions : List Bytes) : StatsCall → List Bytes
  | .record version => versions ++ [version]
  | .clear => []

end StatsCall

namespace VersionStats

def run (calls : List StatsCall) : VersionStats := calls.foldl StatsCall.apply {}

def recorded (calls : List StatsCall) : List Bytes := calls.foldl StatsCall.recorded []

/-- What a map of counts owes the versions it has been given. -/
structure Counts (stats : VersionStats) (versions : List Bytes) : Prop where
  tallied : Tallied kMaxDistinct kOtherBucket (versions.map keyOf) stats.counts
  total : stats.total = versions.length
  short : ∀ key ∈ keysOf stats.counts, key.length ≤ kMaxKeyLen

theorem length_keyOf (version : Bytes) : (keyOf version).length ≤ kMaxKeyLen := by
  unfold keyOf
  dsimp only
  split
  · decide
  · rw [List.length_take]
    exact Nat.min_le_left _ _

theorem counts_record (stats : VersionStats) (version : Bytes) :
    (stats.record version).counts =
      tally kMaxDistinct kOtherBucket stats.counts (keyOf version) := by
  unfold record tally increment
  dsimp only
  cases hfind : stats.counts.find? fun row => row.1 = keyOf version with
  | none =>
    have hkey : keyOf version ∉ keysOf stats.counts := by
      intro hmem
      obtain ⟨row, hrow, heq⟩ := List.mem_map.mp hmem
      exact List.find?_eq_none.mp hfind row hrow (decide_eq_true heq)
    rw [if_neg hkey]
  | some row =>
    have heq : row.1 = keyOf version := by simpa using List.find?_some hfind
    have hkey : keyOf version ∈ keysOf stats.counts :=
      List.mem_map.mpr ⟨row, List.mem_of_find?_eq_some hfind, heq⟩
    rw [if_pos hkey]

theorem Counts.call {stats : VersionStats} {versions : List Bytes} (h : stats.Counts versions)
    (call : StatsCall) : (call.apply stats).Counts (call.recorded versions) := by
  cases call with
  | clear =>
    exact
      { tallied := .nil _ _
        total := rfl
        short := fun _ hkey => by cases hkey }
  | record version =>
    obtain ⟨key, hunder, heq⟩ :=
      tally_cases kMaxDistinct kOtherBucket stats.counts (keyOf version)
    have hcounts := counts_record stats version
    constructor
    · change Tallied _ _ ((versions ++ [version]).map keyOf) (stats.record version).counts
      rw [List.map_append, hcounts]
      exact h.tallied.step (keyOf version)
    · change stats.total + 1 = ((versions ++ [version]).length : Nat)
      rw [List.length_append, h.total]
      rfl
    · intro key' hkey'
      change key' ∈ keysOf (stats.record version).counts at hkey'
      rw [hcounts, heq, mem_keysOf_upsert] at hkey'
      rcases hkey' with hkey' | rfl
      · exact h.short key' hkey'
      · cases hunder with
        | old _ => exact length_keyOf version
        | new _ _ => exact length_keyOf version
        | turnedAway _ _ => decide

theorem counts_run (calls : List StatsCall) : (run calls).Counts (recorded calls) := by
  have hfold : ∀ (stats : VersionStats) (versions : List Bytes), stats.Counts versions →
      (calls.foldl StatsCall.apply stats).Counts (calls.foldl StatsCall.recorded versions) := by
    induction calls with
    | nil => exact fun _ _ h => h
    | cons call calls ih => exact fun stats versions h => ih _ _ (h.call call)
  exact hfold {} []
    { tallied := .nil _ _
      total := rfl
      short := fun _ hkey => by cases hkey }

end VersionStats

/-- After any calls of `record` and `clear`: the total is the number of versions recorded
since the last `clear` and the sum of the counts; the map has one row for a key, at most 64
besides `_other`, each key of at most 32 bytes; a key other than `_other` counts all its
occurrences, and `_other` those of the keys that have no row, and its own. -/
theorem versionStats_exact (calls : List StatsCall) :
    let stats := VersionStats.run calls
    let keys := (VersionStats.recorded calls).map VersionStats.keyOf
    stats.total = keys.length ∧
    stats.total = total Prod.snd stats.counts ∧
    (keysOf stats.counts).Nodup ∧
    ((keysOf stats.counts).filter fun key => key ≠ kOtherBucket).length ≤ kMaxDistinct ∧
    (∀ key ∈ keysOf stats.counts, key.length ≤ kMaxKeyLen) ∧
    (∀ row ∈ stats.counts, row.1 ≠ kOtherBucket → row.2 = keys.count row.1) ∧
    countOf stats.counts kOtherBucket =
      keys.countP fun key => key = kOtherBucket ∨ key ∉ keysOf stats.counts := by
  intro stats keys
  have hcounts : stats.Counts (VersionStats.recorded calls) := VersionStats.counts_run calls
  obtain ⟨htallied, htotal, hshort⟩ := hcounts
  have hlength : stats.total = keys.length := by rw [htotal, List.length_map]
  have hsum : total Prod.snd stats.counts = keys.length := by
    rw [← htallied.sum, amounts, List.filter_eq_self.mpr fun _ _ => rfl]
  refine ⟨hlength, hlength.trans hsum.symm, htallied.unique, htallied.bounded, hshort, ?_, ?_⟩
  · intro row hrow hne
    rw [← countOf_eq htallied.unique hrow,
      htallied.exact row.1 (List.mem_map_of_mem hrow) hne]
    exact congrArg Nat.cast (List.countP_congr fun _ _ => by simp)
  · rw [htallied.overflow]
    exact congrArg Nat.cast (List.countP_congr fun _ _ => by simp)

end LoginServer
