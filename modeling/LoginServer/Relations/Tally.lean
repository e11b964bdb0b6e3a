import LoginServer.Relations.Grouping

/-!
# Counting under a bounded number of keys

A table of counts that takes in new keys while it has fewer than `cap` rows. Later ones
are counted under `other`, in a row that the bound does not stop. The table never shrinks,
so a key that was turned away once is turned away for good: a key that has a row has had
it since its first occurrence.
-/

namespace Relations

variable {K : Type} [DecidableEq K]

def keysOf (counts : List (K × Int)) : List K := counts.map Prod.fst

/-- One more under `k`, or under `other` when `k` has no row and the table is full. -/
def tally (cap : Nat) (other : K) (counts : List (K × Int)) (k : K) : List (K × Int) :=
  if k ∈ keysOf counts then upsert (· + ·) (k, 1) counts
  else if cap ≤ counts.length then upsert (· + ·) (other, 1) counts
  else upsert (· + ·) (k, 1) counts

/-- The count under a key. -/
def countOf (counts : List (K × Int)) (k : K) : Int := amounts (fun k' => k' = k) counts

variable {cap : Nat} {other k : K} {ks : List K} {counts : List (K × Int)}

theorem countOf_eq (h : (keysOf counts).Nodup) {row : K × Int} (hrow : row ∈ counts) :
    countOf counts row.1 = row.2 := amounts_key h hrow

theorem countOf_upsert (counts : List (K × Int)) (t k : K) :
    countOf (upsert (· + ·) (t, 1) counts) k =
      countOf counts k + ((if t = k then 1 else 0 : Nat) : Int) := by
  rw [countOf, amounts_upsert_add]
  by_cases ht : t = k
  · simp [ht, countOf]
  · simp [ht, countOf]

theorem countOf_of_not_mem (h : k ∉ keysOf counts) : countOf counts k = 0 :=
  amounts_eq_zero fun _ hrow => decide_eq_false fun heq => h (heq ▸ List.mem_map_of_mem hrow)

theorem keysOf_upsert_of_mem {merge : Int → Int → Int} (h : k ∈ keysOf counts) :
    keysOf (upsert merge (k, 1) counts) = keysOf counts :=
  (keys_upsert (k, 1) counts).trans (if_pos h)

theorem keysOf_upsert_of_not_mem {merge : Int → Int → Int} (h : k ∉ keysOf counts) :
    keysOf (upsert merge (k, 1) counts) = keysOf counts ++ [k] :=
  (keys_upsert (k, 1) counts).trans (if_neg h)

theorem mem_keysOf_upsert {merge : Int → Int → Int} {t : K} :
    k ∈ keysOf (upsert merge (t, 1) counts) ↔ k ∈ keysOf counts ∨ k = t := by
  by_cases ht : t ∈ keysOf counts
  · rw [keysOf_upsert_of_mem ht]
    refine ⟨Or.inl, ?_⟩
    rintro (h | rfl)
    · exact h
    · exact ht
  · rw [keysOf_upsert_of_not_mem ht, List.mem_append, List.mem_singleton]

theorem length_le_upsert {merge : Int → Int → Int} (t : K) (counts : List (K × Int)) :
    counts.length ≤ (upsert merge (t, 1) counts).length := by
  have hlengths : ∀ table : List (K × Int), table.length = (keysOf table).length :=
    fun table => (List.length_map _).symm
  rw [hlengths counts, hlengths]
  by_cases ht : t ∈ keysOf counts
  · exact Nat.le_of_eq (congrArg List.length (keysOf_upsert_of_mem ht).symm)
  · rw [keysOf_upsert_of_not_mem ht, List.length_append]
    exact Nat.le_add_right _ _

/-- The key that a call with `k` is counted under. -/
inductive CountedUnder (cap : Nat) (other : K) (counts : List (K × Int)) (k : K) : K → Prop where
  | old (hk : k ∈ keysOf counts) : CountedUnder cap other counts k k
  | new (hk : k ∉ keysOf counts) (hroom : counts.length < cap) : CountedUnder cap other counts k k
  | turnedAway (hk : k ∉ keysOf counts) (hfull : cap ≤ counts.length) :
    CountedUnder cap other counts k other

theorem tally_cases (cap : Nat) (other : K) (counts : List (K × Int)) (k : K) :
    ∃ t, CountedUnder cap other counts k t ∧
      tally cap other counts k = upsert (· + ·) (t, 1) counts := by
  by_cases hk : k ∈ keysOf counts
  · exact ⟨k, .old hk, if_pos hk⟩
  · by_cases hfull : cap ≤ counts.length
    · exact ⟨other, .turnedAway hk hfull, (if_neg hk).trans (if_pos hfull)⟩
    · exact ⟨k, .new hk (by omega), (if_neg hk).trans (if_neg hfull)⟩

/-- The counts that a list of keys, the oldest first, has led to. -/
structure Tallied (cap : Nat) (other : K) (ks : List K) (counts : List (K × Int)) : Prop where
  unique : (keysOf counts).Nodup
  sum : amounts (fun _ => true) counts = ks.length
  bounded : ((keysOf counts).filter fun k => k ≠ other).length ≤ cap
  recorded : ∀ k ∈ keysOf counts, k = other ∨ k ∈ ks
  /-- A key has no row because the table was full, and still is. -/
  full : ∀ k ∈ ks, k ≠ other → k ∉ keysOf counts → cap ≤ counts.length
  exact : ∀ k ∈ keysOf counts, k ≠ other → countOf counts k = ks.count k
  overflow : countOf counts other = ks.countP fun k => k = other ∨ k ∉ keysOf counts

namespace Tallied

theorem nil (cap : Nat) (other : K) : Tallied cap other [] [] where
  unique := List.nodup_nil
  sum := rfl
  bounded := Nat.zero_le _
  recorded _ hk := by cases hk
  full _ hk := by cases hk
  exact _ hk := by cases hk
  overflow := rfl

variable {t : K}

/-- A key that gets a row has not been recorded before. -/
theorem fresh (h : Tallied cap other ks counts) (hk : k ∉ keysOf counts)
    (hroom : counts.length < cap) (hne : k ≠ other) : k ∉ ks := by
  intro hmem
  have hfull := h.full k hmem hne hk
  omega

theorem bounded_upsert (h : Tallied cap other ks counts)
    (ht : CountedUnder cap other counts k t) :
    ((keysOf (upsert (· + ·) (t, 1) counts)).filter fun k => k ≠ other).length ≤ cap := by
  cases ht with
  | old hk =>
    rw [keysOf_upsert_of_mem hk]
    exact h.bounded
  | new hk hroom =>
    rw [keysOf_upsert_of_not_mem hk]
    refine Nat.le_trans (List.length_filter_le _ _) ?_
    rw [List.length_append, List.length_singleton, keysOf, List.length_map]
    exact hroom
  | turnedAway hk hfull =>
    by_cases hother : other ∈ keysOf counts
    · rw [keysOf_upsert_of_mem hother]
      exact h.bounded
    · rw [keysOf_upsert_of_not_mem hother, List.filter_append, List.length_append]
      simpa using h.bounded

theorem full_upsert (h : Tallied cap other ks counts) (ht : CountedUnder cap other counts k t) :
    ∀ k' ∈ ks ++ [k], k' ≠ other → k' ∉ keysOf (upsert (· + ·) (t, 1) counts) →
      cap ≤ (upsert (· + ·) (t, 1) counts).length := by
  intro k' hk' hne habsent
  refine Nat.le_trans ?_ (length_le_upsert t counts)
  rw [mem_keysOf_upsert, not_or] at habsent
  rcases List.mem_append.mp hk' with hk' | hk'
  · exact h.full k' hk' hne habsent.1
  · rw [List.mem_singleton] at hk'
    subst hk'
    cases ht with
    | old hk => exact absurd rfl habsent.2
    | new hk hroom => exact absurd rfl habsent.2
    | turnedAway hk hfull => exact hfull

theorem exact_upsert (h : Tallied cap other ks counts) (ht : CountedUnder cap other counts k t) :
    ∀ k' ∈ keysOf (upsert (· + ·) (t, 1) counts), k' ≠ other →
      countOf (upsert (· + ·) (t, 1) counts) k' = (ks ++ [k]).count k' := by
  intro k' hk' hne
  rw [mem_keysOf_upsert] at hk'
  rw [countOf_upsert, List.count_append, List.count_singleton, Int.natCast_add]
  cases ht with
  | old hk =>
    have hmem : k' ∈ keysOf counts := by
      rcases hk' with hk' | rfl
      · exact hk'
      · exact hk
    rw [h.exact k' hmem hne]
    simp
  | new hk hroom =>
    rcases hk' with hk' | rfl
    · rw [h.exact k' hk' hne]
      simp
    · rw [countOf_of_not_mem hk, List.count_eq_zero_of_not_mem (h.fresh hk hroom hne)]
      simp
  | turnedAway hk hfull =>
    have hmem : k' ∈ keysOf counts := by
      rcases hk' with hk' | rfl
      · exact hk'
      · exact absurd rfl hne
    have hother : k ≠ k' := fun heq => hk (heq ▸ hmem)
    rw [h.exact k' hmem hne, if_neg (Ne.symm hne)]
    simp [hother]

theorem overflow_upsert (h : Tallied cap other ks counts)
    (ht : CountedUnder cap other counts k t) :
    countOf (upsert (· + ·) (t, 1) counts) other =
      (ks ++ [k]).countP fun k' => k' = other ∨ k' ∉ keysOf (upsert (· + ·) (t, 1) counts) := by
  -- The rows that the call adds are of `other` or of a key that is new.
  have hold : ks.countP (fun k' => k' = other ∨ k' ∉ keysOf (upsert (· + ·) (t, 1) counts)) =
      ks.countP fun k' => k' = other ∨ k' ∉ keysOf counts := by
    refine List.countP_congr fun k' hk' => ?_
    simp only [decide_eq_true_eq, mem_keysOf_upsert, not_or]
    refine or_congr_right' fun hne => ⟨And.left, fun habsent => ⟨habsent, ?_⟩⟩
    rintro rfl
    cases ht with
    | old hk => exact habsent hk
    | new hk hroom => exact h.fresh hk hroom hne hk'
    | turnedAway hk hfull => exact hne rfl
  rw [countOf_upsert, h.overflow, List.countP_append, hold, List.countP_singleton,
    Int.natCast_add]
  congr 2
  simp only [decide_eq_true_eq, mem_keysOf_upsert, not_or]
  cases ht with
  | old hk => simp [hk]
  | new hk hroom => simp
  | turnedAway hk hfull =>
    rw [if_pos rfl, if_pos]
    exact Classical.or_iff_not_imp_left.mpr fun hne => ⟨hk, hne⟩

theorem step (h : Tallied cap other ks counts) (k : K) :
    Tallied cap other (ks ++ [k]) (tally cap other counts k) := by
  obtain ⟨t, ht, heq⟩ := tally_cases cap other counts k
  rw [heq]
  exact
    { unique := nodup_upsertAll h.unique [(t, 1)]
      sum := by
        rw [amounts_upsert_add, h.sum]
        simp
      bounded := h.bounded_upsert ht
      recorded := by
        intro k' hk'
        rw [List.mem_append, List.mem_singleton]
        rcases mem_keysOf_upsert.mp hk' with hk' | rfl
        · exact (h.recorded k' hk').imp_right Or.inl
        · cases ht with
          | old _ => exact Or.inr (Or.inr rfl)
          | new _ _ => exact Or.inr (Or.inr rfl)
          | turnedAway _ _ => exact Or.inl rfl
      full := h.full_upsert ht
      exact := h.exact_upsert ht
      overflow := h.overflow_upsert ht }

end Tallied

end Relations
