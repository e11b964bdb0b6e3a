import Mathlib.Data.List.Dedup

/-!
# Sums over groups and additive upserts

A keyed table is a list of amounts under keys. `sumBy` is the `GROUP BY` of a source with
the `SUM` of each group, and `upsertAll` is `INSERT … ON CONFLICT DO UPDATE`. Totals are
taken over all keys of a class: grouping keeps them, and an additive upsert adds them.
-/

namespace Relations

variable {α K : Type}

/-- The `SUM` of a column. -/
def total (value : α → Int) : List α → Int
  | [] => 0
  | a :: rows => value a + total value rows

section total

variable {value : α → Int}

@[simp] theorem total_nil : total value [] = 0 := rfl

@[simp] theorem total_cons (a : α) (rows : List α) :
    total value (a :: rows) = value a + total value rows := rfl

theorem total_append (rows rows' : List α) :
    total value (rows ++ rows') = total value rows + total value rows' := by
  induction rows with
  | nil => simp
  | cons a rows ih =>
    rw [List.cons_append, total_cons, total_cons, ih]
    omega

theorem total_map {β : Type} (f : β → α) (rows : List β) :
    total value (rows.map f) = total (fun b => value (f b)) rows := by
  induction rows with
  | nil => rfl
  | cons b rows ih => rw [List.map_cons, total_cons, total_cons, ih]

theorem total_filter_cons (q : α → Bool) (a : α) (rows : List α) :
    total value ((a :: rows).filter q) =
      (if q a then value a else 0) + total value (rows.filter q) := by
  by_cases hq : q a
  · rw [List.filter_cons_of_pos hq, if_pos hq, total_cons]
  · rw [List.filter_cons_of_neg hq, if_neg hq, Int.zero_add]

theorem total_zero (rows : List α) : total (fun _ => 0) rows = 0 := by
  induction rows with
  | nil => rfl
  | cons a rows ih => rw [total_cons, ih, Int.add_zero]

theorem total_congr {value' : α → Int} {rows : List α} (h : ∀ a ∈ rows, value a = value' a) :
    total value rows = total value' rows := by
  induction rows with
  | nil => rfl
  | cons a rows ih =>
    obtain ⟨ha, h⟩ := List.forall_mem_cons.mp h
    rw [total_cons, total_cons, ha, ih h]

/-- Of a list without repetition one summand counts. -/
theorem total_single [DecidableEq K] {keys : List K} (hkeys : keys.Nodup) {k : K} (hk : k ∈ keys)
    (v : Int) : total (fun k' => if k = k' then v else 0) keys = v := by
  induction keys with
  | nil => cases hk
  | cons k' keys ih =>
    obtain ⟨hnew, hkeys⟩ := List.nodup_cons.mp hkeys
    rw [total_cons]
    rcases List.mem_cons.mp hk with rfl | hk
    · have hzero : ∀ k' ∈ keys, (if k = k' then v else 0) = 0 := by
        intro k' hk'
        exact if_neg fun heq => hnew (by rwa [heq])
      rw [if_pos rfl, total_congr hzero, total_zero, Int.add_zero]
    · have hne : k ≠ k' := fun heq => hnew (heq ▸ hk)
      rw [if_neg hne, ih hkeys hk, Int.zero_add]

theorem total_add (value value' : α → Int) (rows : List α) :
    total (fun a => value a + value' a) rows = total value rows + total value' rows := by
  induction rows with
  | nil => rfl
  | cons a rows ih =>
    rw [total_cons, total_cons, total_cons, ih]
    omega

end total

/-- The amounts under the keys of a class. -/
def amounts (p : K → Bool) (table : List (K × Int)) : Int :=
  total Prod.snd (table.filter fun row => p row.1)

section amounts

variable {p : K → Bool}

@[simp] theorem amounts_nil : amounts p [] = 0 := rfl

theorem amounts_cons (row : K × Int) (table : List (K × Int)) :
    amounts p (row :: table) = (if p row.1 then row.2 else 0) + amounts p table :=
  total_filter_cons (fun r : K × Int => p r.1) row table

theorem amounts_congr {p' : K → Bool} {table : List (K × Int)}
    (h : ∀ row ∈ table, p row.1 = p' row.1) : amounts p table = amounts p' table := by
  unfold amounts
  rw [List.filter_congr h]

/-- No key of the class is in the table. -/
theorem amounts_eq_zero {table : List (K × Int)} (h : ∀ row ∈ table, p row.1 = false) :
    amounts p table = 0 := by
  unfold amounts
  rw [List.filter_eq_nil_iff.mpr fun row hrow => by simp [h row hrow], total_nil]

theorem amounts_nonneg {table : List (K × Int)} (h : ∀ row ∈ table, 0 ≤ row.2) :
    0 ≤ amounts p table := by
  induction table with
  | nil => exact Int.le_refl 0
  | cons row table ih =>
    obtain ⟨hrow, h⟩ := List.forall_mem_cons.mp h
    have hrest := ih h
    rw [amounts_cons]
    split <;> omega

end amounts

variable [DecidableEq K]

/-! ## Grouping -/

/-- `SELECT key, SUM(value) … GROUP BY key`. -/
def sumBy (key : α → K) (value : α → Int) (rows : List α) : List (K × Int) :=
  (rows.map key).dedup.map fun k => (k, total value (rows.filter fun a => key a = k))

variable {key : α → K} {value : α → Int}

theorem keys_sumBy (rows : List α) :
    (sumBy key value rows).map Prod.fst = (rows.map key).dedup := by
  rw [sumBy, List.map_map]
  exact List.map_id _

theorem mem_sumBy {rows : List α} {row : K × Int} (h : row ∈ sumBy key value rows) :
    (∃ a ∈ rows, key a = row.1) ∧
      row.2 = total value (rows.filter fun a => key a = row.1) := by
  obtain ⟨k, hk, rfl⟩ := List.mem_map.mp h
  exact ⟨List.mem_map.mp (List.mem_dedup.mp hk), rfl⟩

/-- The groups of a class of keys together have the sum of its rows. -/
theorem total_groups (p : K → Bool) {keys : List K} (hkeys : keys.Nodup) {rows : List α}
    (hrows : ∀ a ∈ rows, key a ∈ keys) :
    amounts p (keys.map fun k => (k, total value (rows.filter fun a => key a = k))) =
      total value (rows.filter fun a => p (key a)) := by
  have hamounts : ∀ (f : K → Int) (keys : List K),
      amounts p (keys.map fun k => (k, f k)) = total (fun k => if p k then f k else 0) keys := by
    intro f keys
    induction keys with
    | nil => rfl
    | cons k keys ih => rw [List.map_cons, amounts_cons, total_cons, ih]
  rw [hamounts]
  induction rows with
  | nil => exact (total_congr fun _ _ => ite_self _).trans (total_zero keys)
  | cons a rows ih =>
    obtain ⟨ha, hrows⟩ := List.forall_mem_cons.mp hrows
    have hstep : ∀ k, (if p k then total value ((a :: rows).filter fun b => key b = k) else 0) =
        (if key a = k then (if p (key a) then value a else 0) else 0) +
          (if p k then total value (rows.filter fun b => key b = k) else 0) := by
      intro k
      rw [total_filter_cons]
      by_cases hk : key a = k
      · subst hk
        by_cases hp : p (key a)
        · simp [hp]
        · simp [hp]
      · simp [hk]
    rw [funext hstep, total_add, ih hrows, total_single hkeys ha, total_filter_cons]

theorem amounts_sumBy (p : K → Bool) (rows : List α) :
    amounts p (sumBy key value rows) = total value (rows.filter fun a => p (key a)) :=
  total_groups p (List.nodup_dedup _) fun _ ha => List.mem_dedup.mpr (List.mem_map_of_mem ha)

/-! ## Upserts -/

/-- `INSERT … ON CONFLICT (key) DO UPDATE SET amount = merge amount EXCLUDED.amount`. -/
def upsert (merge : Int → Int → Int) (row : K × Int) : List (K × Int) → List (K × Int)
  | [] => [row]
  | old :: table =>
    if old.1 = row.1 then (old.1, merge old.2 row.2) :: table else old :: upsert merge row table

def upsertAll (merge : Int → Int → Int) (rows table : List (K × Int)) : List (K × Int) :=
  rows.foldl (fun table row => upsert merge row table) table

variable {merge : Int → Int → Int}

@[simp] theorem upsertAll_cons (row : K × Int) (rows table : List (K × Int)) :
    upsertAll merge (row :: rows) table = upsertAll merge rows (upsert merge row table) := rfl

theorem keys_upsert (row : K × Int) (table : List (K × Int)) :
    (upsert merge row table).map Prod.fst =
      if row.1 ∈ table.map Prod.fst then table.map Prod.fst
      else table.map Prod.fst ++ [row.1] := by
  induction table with
  | nil => rfl
  | cons old table ih =>
    by_cases hkey : old.1 = row.1
    · simp [upsert, hkey]
    · have hkey' : row.1 ≠ old.1 := fun heq => hkey heq.symm
      rw [upsert, if_neg hkey, List.map_cons, List.map_cons, ih]
      by_cases hmem : row.1 ∈ table.map Prod.fst
      · rw [if_pos hmem, if_pos (List.mem_cons_of_mem _ hmem)]
      · rw [if_neg hmem, if_neg (List.not_mem_cons_of_ne_of_not_mem hkey' hmem), List.cons_append]

theorem nodup_upsertAll {table : List (K × Int)} (h : (table.map Prod.fst).Nodup)
    (rows : List (K × Int)) : ((upsertAll merge rows table).map Prod.fst).Nodup := by
  induction rows generalizing table with
  | nil => exact h
  | cons row rows ih =>
    refine ih ?_
    rw [keys_upsert]
    split
    · exact h
    · rename_i hnew
      exact List.nodup_append.mpr ⟨h, List.nodup_singleton _, fun k hk k' hk' heq =>
        hnew (by rw [← List.mem_singleton.mp hk', ← heq]; exact hk)⟩

theorem mem_keys_upsertAll {rows table : List (K × Int)} {k : K} :
    k ∈ (upsertAll merge rows table).map Prod.fst ↔
      k ∈ table.map Prod.fst ∨ k ∈ rows.map Prod.fst := by
  induction rows generalizing table with
  | nil => simp [upsertAll]
  | cons row rows ih =>
    rw [upsertAll_cons, ih, keys_upsert]
    by_cases hold : row.1 ∈ table.map Prod.fst
    · rw [if_pos hold, List.map_cons, List.mem_cons]
      constructor
      · rintro (h | h)
        · exact Or.inl h
        · exact Or.inr (Or.inr h)
      · rintro (h | rfl | h)
        · exact Or.inl h
        · exact Or.inl hold
        · exact Or.inr h
    · rw [if_neg hold, List.map_cons, List.mem_cons, List.mem_append, List.mem_singleton]
      exact or_assoc

theorem amounts_upsert_add (p : K → Bool) (row : K × Int) (table : List (K × Int)) :
    amounts p (upsert (· + ·) row table) =
      amounts p table + (if p row.1 then row.2 else 0) := by
  induction table with
  | nil => simp [upsert, amounts_cons]
  | cons old table ih =>
    by_cases hkey : old.1 = row.1
    · rw [upsert, if_pos hkey, amounts_cons, amounts_cons, hkey]
      by_cases hp : p row.1
      · rw [if_pos hp, if_pos hp, if_pos hp]
        simp only []
        omega
      · rw [if_neg hp, if_neg hp, if_neg hp]
        omega
    · rw [upsert, if_neg hkey, amounts_cons, amounts_cons, ih]
      omega

theorem amounts_upsertAll_add (p : K → Bool) (rows table : List (K × Int)) :
    amounts p (upsertAll (· + ·) rows table) = amounts p table + amounts p rows := by
  induction rows generalizing table with
  | nil => simp [upsertAll]
  | cons row rows ih =>
    rw [upsertAll_cons, ih, amounts_upsert_add, amounts_cons]
    omega

/-- With unique keys a row has all of the amount under its key. -/
theorem amounts_key {table : List (K × Int)} (h : (table.map Prod.fst).Nodup) {row : K × Int}
    (hrow : row ∈ table) : amounts (fun k => k = row.1) table = row.2 := by
  induction table with
  | nil => cases hrow
  | cons old table ih =>
    obtain ⟨hnew, h⟩ := List.nodup_cons.mp h
    rw [amounts_cons]
    rcases List.mem_cons.mp hrow with rfl | hrow
    · rw [if_pos (by simp), amounts_eq_zero, Int.add_zero]
      intro row' hrow'
      exact decide_eq_false fun heq => hnew (heq ▸ List.mem_map_of_mem hrow')
    · have hne : old.1 ≠ row.1 := fun heq => hnew (heq ▸ List.mem_map_of_mem hrow)
      rw [if_neg (by simpa using hne), ih h hrow, Int.zero_add]

end Relations
