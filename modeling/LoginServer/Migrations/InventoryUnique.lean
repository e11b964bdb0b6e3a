import LoginServer.Migrations.Tables
import LoginServer.Utils.Stoi

/-!
# 074_inventory_unique.sql

One transaction: for each duplicate stack, an owner and an item of more than one row, the
loop deletes the rows and inserts one with their sum. `GROUP BY` takes the rows on the
ground, of owner NULL, for a stack as well, but `character_id = r.character_id` is true of
none of them. The deletions cascade to what is equipped.

After any number of turns the tables have a closed form: what has been deleted is of the
stacks so far, and what has been inserted is one row for each.
-/

namespace LoginServer

namespace Migrations

open Database Relations

/-- What a stack is grouped by; no owner is the ground. -/
structure StackKey where
  characterId : Option Int
  itemId : Int
deriving DecidableEq

def stackKey (pi : InventoryRow) : StackKey := ⟨pi.characterId, pi.itemId⟩

/-- `r` of the loop, without its `cnt`. -/
abbrev Stack := StackKey × Int

/-- `character_id = r.character_id AND item_id = r.item_id`. -/
def deletesRow (r : Stack) (pi : InventoryRow) : Bool :=
  r.1.characterId.isSome && decide (stackKey pi = r.1)

/-- `MAXVALUE` of `player_inventory_id_seq`. -/
def maxInventoryId : Int := 99999999

namespace Tables

variable (t : Tables)

/-- The query of the loop. -/
def duplicates : List Stack :=
  (sumBy stackKey (·.quantity) t.playerInventory).filter fun r =>
    1 < t.playerInventory.countP fun pi => stackKey pi = r.1

def deleteStack (r : Stack) : Tables :=
  let deleted := (t.playerInventory.filter (deletesRow r)).map (·.id)
  { t with
    playerInventory := t.playerInventory.filter fun pi => !deletesRow r pi
    -- ON DELETE CASCADE
    characterEquipment := t.characterEquipment.filter fun ce => ce.inventoryItemId ∉ deleted }

/-- The merged row, under the id that the sequence gives. -/
def insertStack (id : Int) (r : Stack) : Option Tables :=
  if id ≤ maxInventoryId ∧ IsInt32 r.2 ∧ id ∉ t.playerInventory.map (·.id) ∧
      (∀ c ∈ r.1.characterId, c ∈ t.characters) ∧ r.1.itemId ∈ t.itemIds then
    some { t with playerInventory :=
      t.playerInventory ++ [⟨id, r.1.characterId, r.1.itemId, r.2, none, none⟩] }
  else none

/-- The loop from the next value of the sequence on. -/
def mergeStacks (t : Tables) (id : Int) : List Stack → Option Tables
  | [] => some t
  | r :: rest =>
    match (t.deleteStack r).insertStack id r with
    | some t => t.mergeStacks (id + 1) rest
    | none => none

/-- `CREATE UNIQUE INDEX`, in which NULL owners differ. -/
def createUniqueIndex : Option Tables :=
  if ((t.playerInventory.map stackKey).filter fun k => k.characterId.isSome).Nodup then some t
  else none

/-- The migration, on the stacks in the order in which the query gives them. An error rolls
everything back. -/
def inventoryUnique (id : Int) (order : List Stack) : Tables :=
  ((t.mergeStacks id order).bind createUniqueIndex).getD t

/-- What an owner or the ground has of an item. -/
def stackTotal (k : StackKey) : Int :=
  total (·.quantity) (t.playerInventory.filter fun pi => stackKey pi = k)

def stackRows (k : StackKey) : Nat := t.playerInventory.countP fun pi => stackKey pi = k

/-- What the migration owes the players. -/
structure Conserves (t t' : Tables) : Prop where
  totals : ∀ k, t'.stackTotal k = t.stackTotal k
  unique : ∀ k, k.characterId ≠ none → t'.stackRows k ≤ 1
  equipped : t'.characterEquipment = t.characterEquipment

/-- The insert for the next stack is accepted: the sum is an `integer`, and the id that is
drawn is not that of a row that is still there. -/
structure Fits (id : Int) (done : List Stack) (r : Stack) : Prop where
  sum : IsInt32 r.2
  drawn : id + done.length ≤ maxInventoryId
  free : ∀ pi ∈ t.playerInventory, pi.id = id + done.length →
    ∃ r' ∈ done ++ [r], deletesRow r' pi = true

/-- Every insert is accepted. -/
def Accepted (id : Int) (order : List Stack) : Prop :=
  ∀ done r rest, order = done ++ r :: rest → t.Fits id done r

/-! ## The tables after some turns -/

def isDeleted (done : List Stack) (pi : InventoryRow) : Bool := done.any fun r => deletesRow r pi

/-- The rows inserted for the stacks so far. -/
def inserted (id : Int) : List Stack → List InventoryRow
  | [] => []
  | r :: rest => ⟨id, r.1.characterId, r.1.itemId, r.2, none, none⟩ :: inserted (id + 1) rest

def merged (id : Int) (done : List Stack) : Tables :=
  { t with
    playerInventory :=
      (t.playerInventory.filter fun pi => !isDeleted done pi) ++ inserted id done
    characterEquipment := t.characterEquipment.filter fun ce =>
      ∀ pi ∈ t.playerInventory, isDeleted done pi = true → ce.inventoryItemId ≠ pi.id }

variable {t t' : Tables} {id : Int} {done order : List Stack} {r : Stack}

theorem merged_nil (t : Tables) (id : Int) : t.merged id [] = t := by
  simp [merged, inserted, isDeleted]

/-! ## The stacks -/

/-- The stacks are those of more than one row, each with its total. -/
theorem mem_duplicates : r ∈ t.duplicates ↔ 1 < t.stackRows r.1 ∧ r.2 = t.stackTotal r.1 := by
  unfold duplicates
  rw [List.mem_filter, decide_eq_true_eq]
  constructor
  · rintro ⟨hmem, hcount⟩
    exact ⟨hcount, (mem_sumBy hmem).2⟩
  · rintro ⟨hcount, hsum⟩
    refine ⟨?_, hcount⟩
    obtain ⟨pi, hpi, hkey⟩ := List.countP_pos_iff.mp (Nat.lt_of_succ_lt hcount)
    obtain ⟨k, sum⟩ := r
    obtain rfl := of_decide_eq_true hkey
    exact List.mem_map.mpr ⟨_, List.mem_dedup.mpr (List.mem_map_of_mem hpi),
      congrArg (Prod.mk _) hsum.symm⟩

theorem nodup_duplicates (t : Tables) : (t.duplicates.map Prod.fst).Nodup := by
  have hkeys : ((sumBy stackKey (·.quantity) t.playerInventory).map Prod.fst).Nodup := by
    rw [keys_sumBy]
    exact List.nodup_dedup _
  exact hkeys.sublist (List.filter_sublist.map _)

theorem isDeleted_iff {pi : InventoryRow} :
    isDeleted done pi = true ↔ pi.characterId ≠ none ∧ stackKey pi ∈ done.map Prod.fst := by
  simp only [isDeleted, deletesRow, List.any_eq_true, Bool.and_eq_true, decide_eq_true_eq,
    List.mem_map, Option.isSome_iff_ne_none]
  constructor
  · rintro ⟨r, hr, howned, hkey⟩
    exact ⟨by rwa [← hkey] at howned, r, hr, hkey.symm⟩
  · rintro ⟨howned, r, hr, hkey⟩
    exact ⟨r, hr, by rwa [hkey], hkey.symm⟩

theorem stackKey_inserted (id : Int) (done : List Stack) :
    (inserted id done).map stackKey = done.map Prod.fst := by
  induction done generalizing id with
  | nil => rfl
  | cons r done ih => exact congrArg (List.cons r.1) (ih _)

theorem id_of_mem_inserted {pi : InventoryRow} (h : pi ∈ inserted id done) :
    pi.id < id + done.length := by
  induction done generalizing id with
  | nil => cases h
  | cons r done ih =>
    rw [List.length_cons]
    rcases List.mem_cons.mp h with rfl | h
    · change id < _
      omega
    · have := ih h
      omega

theorem inserted_append (id : Int) (done : List Stack) (r : Stack) :
    inserted id (done ++ [r]) =
      inserted id done ++ [⟨id + done.length, r.1.characterId, r.1.itemId, r.2, none, none⟩] := by
  induction done generalizing id with
  | nil => simp [inserted]
  | cons r' done ih =>
    rw [List.cons_append, inserted, ih, inserted, List.cons_append, List.length_cons]
    congr 4
    omega

/-! ## One turn -/

theorem isDeleted_append (done : List Stack) (r : Stack) (pi : InventoryRow) :
    isDeleted (done ++ [r]) pi = (isDeleted done pi || deletesRow r pi) := by
  simp [isDeleted]

/-- The next deletion takes none of the rows that have been inserted. -/
theorem deletes_inserted (hnew : r.1 ∉ done.map Prod.fst) {pi : InventoryRow}
    (hpi : pi ∈ inserted id done) : deletesRow r pi = false := by
  rw [Bool.eq_false_iff]
  intro hdeletes
  have hkey : stackKey pi = r.1 := by
    rw [deletesRow, Bool.and_eq_true, decide_eq_true_eq] at hdeletes
    exact hdeletes.2
  refine hnew ?_
  rw [← hkey, ← stackKey_inserted id done]
  exact List.mem_map_of_mem hpi

theorem deleteStack_merged (hnew : r.1 ∉ done.map Prod.fst) :
    (t.merged id done).deleteStack r =
      { t with
        playerInventory :=
          (t.playerInventory.filter fun pi => !isDeleted (done ++ [r]) pi) ++ inserted id done
        characterEquipment := (t.merged id (done ++ [r])).characterEquipment } := by
  have hkept : (inserted id done).filter (fun pi => !deletesRow r pi) = inserted id done := by
    refine List.filter_eq_self.mpr fun pi hpi => ?_
    rw [deletes_inserted hnew hpi]
    rfl
  have hgone : (inserted id done).filter (deletesRow r) = [] := by
    refine List.filter_eq_nil_iff.mpr fun pi hpi => ?_
    rw [deletes_inserted hnew hpi]
    exact Bool.false_ne_true
  unfold deleteStack merged
  dsimp only
  rw [List.filter_append, List.filter_append, hkept, hgone, List.append_nil, List.filter_filter,
    List.filter_filter, List.filter_filter]
  congr 1
  · congr 1
    refine List.filter_congr fun pi _ => ?_
    rw [isDeleted_append, Bool.not_or, Bool.and_comm]
  · refine List.filter_congr fun ce _ => ?_
    rw [Bool.eq_iff_iff]
    simp only [Bool.and_eq_true, decide_eq_true_eq, List.mem_map, List.mem_filter,
      Bool.not_eq_true', not_exists, isDeleted_append, Bool.or_eq_true]
    constructor
    · rintro ⟨hnow, hbefore⟩ pi hpi hdeleted heq
      rcases Bool.eq_false_or_eq_true (isDeleted done pi) with hold | hold
      · exact hbefore pi hpi hold heq
      · exact hnow pi ⟨⟨hpi, hdeleted.resolve_left (by simp [hold]), hold⟩, heq.symm⟩
    · intro h
      refine ⟨?_, fun pi hpi hold => h pi hpi (Or.inl hold)⟩
      rintro pi ⟨⟨hpi, hdeletes, -⟩, heq⟩
      exact h pi hpi (Or.inr hdeletes) heq.symm

/-- A stack has rows, and refers to what they refer to. -/
theorem references (hc : t.Constraints) (hr : r ∈ t.duplicates) :
    (∀ c ∈ r.1.characterId, c ∈ t.characters) ∧ r.1.itemId ∈ t.itemIds := by
  obtain ⟨pi, hpi, hkey⟩ :=
    List.countP_pos_iff.mp (Nat.lt_of_succ_lt (mem_duplicates.mp hr).1)
  have hkey : stackKey pi = r.1 := of_decide_eq_true hkey
  rw [← hkey]
  exact ⟨hc.player_inventory_character_id_fkey pi hpi, hc.player_inventory_item_id_fkey pi hpi⟩

/-- The id that is drawn is above those of the inserted rows. -/
theorem not_mem_ids_iff : id + done.length ∉
      ((t.playerInventory.filter fun pi => !isDeleted (done ++ [r]) pi) ++
        inserted id done).map (·.id) ↔
    ∀ pi ∈ t.playerInventory, pi.id = id + done.length →
      ∃ r' ∈ done ++ [r], deletesRow r' pi = true := by
  simp only [List.mem_map, List.mem_append, List.mem_filter, Bool.not_eq_true', not_exists,
    not_and]
  constructor
  · intro h pi hpi hid
    by_contra hkept
    refine h pi (Or.inl ⟨hpi, ?_⟩) hid
    rw [Bool.eq_false_iff, isDeleted, ne_eq, List.any_eq_true]
    simpa only [List.mem_append] using hkept
  · rintro h pi (⟨hpi, hkept⟩ | hpi) hid
    · rw [isDeleted, List.any_eq_false] at hkept
      obtain ⟨r', hr', hdeletes⟩ := h pi hpi hid
      exact hkept r' (List.mem_append.mpr hr') hdeletes
    · have hlt := id_of_mem_inserted hpi
      omega

/-- With the rows of the stack deleted, its insert is accepted exactly if it `Fits`. -/
theorem turn_eq (hc : t.Constraints) (hr : r ∈ t.duplicates) (hnew : r.1 ∉ done.map Prod.fst) :
    ((t.merged id done).deleteStack r).insertStack (id + done.length) r = some t' ↔
      t.Fits id done r ∧ t' = t.merged id (done ++ [r]) := by
  have hreferences := references hc hr
  have hfits : (id + done.length ≤ maxInventoryId ∧ IsInt32 r.2 ∧
      id + done.length ∉ ((t.playerInventory.filter fun pi => !isDeleted (done ++ [r]) pi) ++
        inserted id done).map (·.id) ∧
      (∀ c ∈ r.1.characterId, c ∈ t.characters) ∧ r.1.itemId ∈ t.itemIds) ↔
      t.Fits id done r := by
    rw [not_mem_ids_iff]
    exact ⟨fun ⟨hdrawn, hsum, hfree, _⟩ => ⟨hsum, hdrawn, hfree⟩,
      fun ⟨hsum, hdrawn, hfree⟩ => ⟨hdrawn, hsum, hfree, hreferences⟩⟩
  rw [deleteStack_merged hnew]
  unfold insertStack
  rw [← hfits, Option.ite_none_right_eq_some, Option.some_inj]
  refine and_congr_right' ?_
  unfold merged
  rw [inserted_append, List.append_assoc]
  exact eq_comm

/-! ## The loop -/

/-- From any turn on, the loop ends in the closed form exactly if each of the inserts that
are left is accepted. -/
theorem mergeStacks_iff (hc : t.Constraints) {rest : List Stack}
    (hrest : ∀ r ∈ rest, r ∈ t.duplicates) (hkeys : ((done ++ rest).map Prod.fst).Nodup) :
    (t.merged id done).mergeStacks (id + done.length) rest = some t' ↔
      (∀ later r rest', rest = later ++ r :: rest' → t.Fits id (done ++ later) r) ∧
      t' = t.merged id (done ++ rest) := by
  induction rest generalizing done with
  | nil =>
    rw [mergeStacks, List.append_nil, Option.some_inj, eq_comm]
    refine (and_iff_right ?_).symm
    intro later r rest' hnil
    exact absurd hnil (by simp)
  | cons r rest ih =>
    obtain ⟨hr, hrest⟩ := List.forall_mem_cons.mp hrest
    have hnew : r.1 ∉ done.map Prod.fst := by
      rw [List.map_append, List.map_cons] at hkeys
      exact fun hmem => (List.nodup_append.mp hkeys).2.2 _ hmem _ (List.mem_cons_self ..) rfl
    have hsplit : (∀ later r' rest', r :: rest = later ++ r' :: rest' →
          t.Fits id (done ++ later) r') ↔
        t.Fits id done r ∧ ∀ later r' rest', rest = later ++ r' :: rest' →
          t.Fits id (done ++ [r] ++ later) r' := by
      constructor
      · intro h
        refine ⟨by simpa using h [] r rest rfl, fun later r' rest' heq => ?_⟩
        simpa using h (r :: later) r' rest' (congrArg (List.cons r) heq)
      · rintro ⟨hfits, h⟩ later r' rest' heq
        cases later with
        | nil =>
          obtain ⟨rfl, -⟩ := List.cons.inj heq
          simpa using hfits
        | cons r₁ later =>
          obtain ⟨rfl, hrest'⟩ := List.cons.inj heq
          simpa using h later r' rest' hrest'
    have hassoc : done ++ r :: rest = done ++ [r] ++ rest := by simp
    rw [hassoc] at hkeys ⊢
    rw [hsplit, mergeStacks, and_assoc, ← ih hrest hkeys]
    have hturn : ∀ t₁, ((t.merged id done).deleteStack r).insertStack (id + done.length) r =
        some t₁ ↔ t.Fits id done r ∧ t₁ = t.merged id (done ++ [r]) :=
      fun _ => turn_eq hc hr hnew
    cases hinsert : ((t.merged id done).deleteStack r).insertStack (id + done.length) r with
    | some t₁ =>
      obtain ⟨hfits, rfl⟩ := (hturn t₁).mp hinsert
      rw [and_iff_right hfits, List.length_append, List.length_singleton, Int.natCast_add,
        ← Int.add_assoc]
      rfl
    | none =>
      refine iff_of_false (fun h => by cases h) fun h => ?_
      rw [(hturn _).mpr ⟨h.1, rfl⟩] at hinsert
      cases hinsert

/-! ## What is left -/

theorem mem_order_iff (horder : order.Perm t.duplicates) {k : StackKey} :
    k ∈ order.map Prod.fst ↔ 1 < t.stackRows k := by
  rw [List.mem_map]
  constructor
  · rintro ⟨r, hr, rfl⟩
    exact (mem_duplicates.mp (horder.mem_iff.mp hr)).1
  · intro hrows
    exact ⟨(k, t.stackTotal k), horder.mem_iff.mpr (mem_duplicates.mpr ⟨hrows, rfl⟩), rfl⟩

theorem nodup_order (horder : order.Perm t.duplicates) : (order.map Prod.fst).Nodup :=
  (horder.map Prod.fst).nodup_iff.mpr (nodup_duplicates t)

/-- The loop keeps the rows on the ground and those that were alone. -/
theorem filter_kept (horder : order.Perm t.duplicates) (k : StackKey) :
    ((t.playerInventory.filter fun pi => !isDeleted order pi).filter fun pi => stackKey pi = k) =
      if k.characterId ≠ none ∧ 1 < t.stackRows k then []
      else t.playerInventory.filter fun pi => stackKey pi = k := by
  have hdeleted : ∀ pi, stackKey pi = k →
      (isDeleted order pi = true ↔ k.characterId ≠ none ∧ 1 < t.stackRows k) := by
    rintro pi rfl
    rw [isDeleted_iff, mem_order_iff horder]
    rfl
  rw [List.filter_filter]
  split
  · rename_i hgone
    refine List.filter_eq_nil_iff.mpr fun pi _ hboth => ?_
    rw [Bool.and_eq_true, decide_eq_true_eq, Bool.not_eq_true'] at hboth
    rw [(hdeleted pi hboth.1).mpr hgone] at hboth
    cases hboth.2
  · rename_i hkept
    refine List.filter_congr fun pi _ => ?_
    by_cases hkey : stackKey pi = k
    · rw [decide_eq_true hkey, Bool.true_and, Bool.not_eq_true']
      exact Bool.eq_false_iff.mpr fun h => hkept ((hdeleted pi hkey).mp h)
    · rw [decide_eq_false hkey, Bool.false_and]

theorem total_inserted (id : Int) (order : List Stack) (k : StackKey) :
    total (·.quantity) ((inserted id order).filter fun pi => stackKey pi = k) =
      amounts (fun k' => k' = k) order := by
  induction order generalizing id with
  | nil => rfl
  | cons r order ih =>
    rw [inserted, total_filter_cons, ih, amounts_cons]
    rfl

/-- The row that is inserted has the total of its stack. -/
theorem amounts_order (horder : order.Perm t.duplicates) (k : StackKey) :
    amounts (fun k' => k' = k) order = if 1 < t.stackRows k then t.stackTotal k else 0 := by
  split
  · rename_i hrows
    obtain ⟨r, hr, rfl⟩ := List.mem_map.mp ((mem_order_iff horder).mpr hrows)
    rw [amounts_key (nodup_order horder) hr]
    exact (mem_duplicates.mp (horder.mem_iff.mp hr)).2
  · rename_i hrows
    refine amounts_eq_zero fun r hr => decide_eq_false ?_
    rintro rfl
    exact hrows ((mem_order_iff horder).mp (List.mem_map_of_mem hr))

theorem stackTotal_merged (horder : order.Perm t.duplicates) (k : StackKey) :
    (t.merged id order).stackTotal k =
      t.stackTotal k + if k.characterId = none ∧ 1 < t.stackRows k then t.stackTotal k else 0 := by
  unfold stackTotal merged
  dsimp only
  rw [List.filter_append, total_append, filter_kept horder, total_inserted, amounts_order horder]
  by_cases hrows : 1 < t.stackRows k
  · by_cases hground : k.characterId = none
    · simp [hrows, hground, stackTotal]
    · simp [hrows, hground, stackTotal]
  · simp [hrows]

theorem stackRows_merged (horder : order.Perm t.duplicates) {k : StackKey}
    (hk : k.characterId ≠ none) : (t.merged id order).stackRows k ≤ 1 := by
  have hinserted : ((inserted id order).countP fun pi => stackKey pi = k) =
      (order.map Prod.fst).count k := by
    rw [← stackKey_inserted id order, List.count, List.countP_map]
    rfl
  unfold stackRows merged
  dsimp only
  rw [List.countP_append, hinserted, List.countP_eq_length_filter, filter_kept horder]
  by_cases hrows : 1 < t.stackRows k
  · rw [if_pos ⟨hk, hrows⟩, List.length_nil, Nat.zero_add]
    exact List.nodup_iff_count_le_one.mp (nodup_order horder) k
  · have habsent : k ∉ order.map Prod.fst := fun h => hrows ((mem_order_iff horder).mp h)
    rw [if_neg fun h => hrows h.2, List.count_eq_zero_of_not_mem habsent, Nat.add_zero,
      ← List.countP_eq_length_filter]
    exact Nat.not_lt.mp hrows

/-- The index is accepted: every stack of an owner is one row by then. -/
theorem createUniqueIndex_merged (horder : order.Perm t.duplicates) :
    (t.merged id order).createUniqueIndex = some (t.merged id order) := by
  refine if_pos (List.nodup_iff_count_le_one.mpr fun k => ?_)
  by_cases hk : k.characterId = none
  · rw [List.count_eq_zero_of_not_mem]
    · exact Nat.zero_le 1
    · rw [List.mem_filter, hk]
      exact fun h => by cases h.2
  · refine Nat.le_trans (List.Sublist.count_le _ List.filter_sublist) ?_
    rw [List.count, List.countP_map]
    exact stackRows_merged horder hk

theorem characterEquipment_merged (horder : order.Perm t.duplicates) :
    (t.merged id order).characterEquipment = t.characterEquipment ↔
      ∀ ce ∈ t.characterEquipment, ∀ pi ∈ t.playerInventory, ce.inventoryItemId = pi.id →
        pi.characterId = none ∨ t.stackRows (stackKey pi) ≤ 1 := by
  unfold merged
  dsimp only
  rw [List.filter_eq_self]
  refine forall₂_congr fun ce _ => ?_
  rw [decide_eq_true_eq]
  refine forall₂_congr fun pi _ => ?_
  rw [isDeleted_iff, mem_order_iff horder]
  constructor
  · intro h heq
    by_contra hnot
    rw [not_or, Nat.not_le] at hnot
    exact h hnot heq
  · intro h hgone heq
    rcases h heq with hground | halone
    · exact hgone.1 hground
    · exact Nat.not_lt.mpr halone hgone.2

/-! ## The migration -/

theorem mergeStacks_eq (hc : t.Constraints) (horder : order.Perm t.duplicates) :
    t.mergeStacks id order = some t' ↔ t.Accepted id order ∧ t' = t.merged id order := by
  have hloop := @mergeStacks_iff t t' id [] hc order (fun r hr => horder.mem_iff.mp hr)
    (nodup_order horder)
  rw [merged_nil] at hloop
  simpa [Accepted] using hloop

theorem inventoryUnique_of_accepted (hc : t.Constraints) (horder : order.Perm t.duplicates)
    (haccepted : t.Accepted id order) : t.inventoryUnique id order = t.merged id order := by
  unfold inventoryUnique
  rw [(mergeStacks_eq hc horder).mpr ⟨haccepted, rfl⟩, Option.bind_some,
    createUniqueIndex_merged horder]
  rfl

theorem inventoryUnique_of_refused (hc : t.Constraints) (horder : order.Perm t.duplicates)
    (hrefused : ¬ t.Accepted id order) : t.inventoryUnique id order = t := by
  unfold inventoryUnique
  cases hloop : t.mergeStacks id order with
  | none => rfl
  | some t' => exact absurd ((mergeStacks_eq hc horder).mp hloop).1 hrefused

end Tables

/-- On every content that the constraints allow, and whatever order the stacks come in: the
migration conserves what there is exactly if either all its inserts are accepted, each
duplicate stack on the ground sums to 0 and nothing of a duplicate stack is equipped, or one
insert is refused and no owner has a duplicate stack. -/
theorem inventoryUnique_conserves_iff {t : Tables} (hc : t.Constraints) (id : Int)
    {order : List Stack} (horder : order.Perm t.duplicates) :
    t.Conserves (t.inventoryUnique id order) ↔
      (t.Accepted id order ∧
        (∀ k, k.characterId = none → 1 < t.stackRows k → t.stackTotal k = 0) ∧
        ∀ ce ∈ t.characterEquipment, ∀ pi ∈ t.playerInventory, ce.inventoryItemId = pi.id →
          pi.characterId = none ∨ t.stackRows (stackKey pi) ≤ 1) ∨
      (¬ t.Accepted id order ∧ ∀ k, k.characterId ≠ none → t.stackRows k ≤ 1) := by
  by_cases haccepted : t.Accepted id order
  · rw [Tables.inventoryUnique_of_accepted hc horder haccepted]
    simp only [haccepted, true_and, not_true_eq_false, false_and, or_false]
    constructor
    · intro h
      refine ⟨fun k hground hrows => ?_, (Tables.characterEquipment_merged horder).mp h.equipped⟩
      have htotal := h.totals k
      rw [Tables.stackTotal_merged horder, if_pos ⟨hground, hrows⟩] at htotal
      omega
    · rintro ⟨hground, hequipped⟩
      refine ⟨fun k => ?_, fun k hk => Tables.stackRows_merged horder hk,
        (Tables.characterEquipment_merged horder).mpr hequipped⟩
      rw [Tables.stackTotal_merged horder]
      split
      · rename_i hk
        rw [hground k hk.1 hk.2, Int.add_zero]
      · rw [Int.add_zero]
  · rw [Tables.inventoryUnique_of_refused hc horder haccepted]
    simp only [haccepted, false_and, not_false_eq_true, true_and, false_or]
    exact ⟨fun h => h.unique, fun h => ⟨fun _ => rfl, h, rfl⟩⟩

/-- A sword in the bag and one that is worn, and two heaps of arrows on the ground. -/
def swordsAndArrows : Tables where
  characters := [7]
  items := [⟨5, str "sword", 100⟩, ⟨9, str "arrow", 0⟩]
  playerInventory := [⟨1, some 7, 5, 1, some 0, some 90⟩, ⟨2, some 7, 5, 1, some 1, some 40⟩,
    ⟨3, none, 9, 20, none, none⟩, ⟨4, none, 9, 15, none, none⟩]
  characterEquipment := [⟨7, 1, 2⟩]

/-- The arrows on the ground are doubled and the sword is no longer worn. -/
theorem inventoryUnique_doubles_and_unequips :
    swordsAndArrows.Constraints ∧
    ¬ swordsAndArrows.Conserves (swordsAndArrows.inventoryUnique 5 swordsAndArrows.duplicates) ∧
    (swordsAndArrows.inventoryUnique 5 swordsAndArrows.duplicates).stackTotal ⟨none, 9⟩ = 70 ∧
    (swordsAndArrows.inventoryUnique 5 swordsAndArrows.duplicates).characterEquipment = [] := by
  have hequipment : (swordsAndArrows.inventoryUnique 5
      swordsAndArrows.duplicates).characterEquipment = [] := by decide +kernel
  refine ⟨by decide +kernel, fun h => ?_, by decide +kernel, hequipment⟩
  have hworn := h.equipped
  rw [hequipment] at hworn
  cases hworn

/-- Two stacks of arrows in one bag. -/
def arrowsInTheBag : Tables where
  characters := [7]
  items := [⟨9, str "arrow", 0⟩]
  playerInventory := [⟨3, some 7, 9, 20, some 0, none⟩, ⟨4, some 7, 9, 15, some 1, none⟩]

/-- They are merged under the id 5. -/
theorem inventoryUnique_conserves_iff_arrows :
    arrowsInTheBag.Conserves (arrowsInTheBag.inventoryUnique 5 [(⟨some 7, 9⟩, 35)]) := by
  have horder : [(⟨some 7, 9⟩, 35)].Perm arrowsInTheBag.duplicates :=
    .of_eq (by decide +kernel)
  refine (inventoryUnique_conserves_iff (by decide +kernel) 5 horder).mpr (Or.inl ⟨?_, ?_, ?_⟩)
  · intro done r rest hsplit
    cases done with
    | nil =>
      obtain ⟨rfl, -⟩ := List.cons.inj hsplit
      exact ⟨by decide, by decide, by decide⟩
    | cons r' done =>
      have hlength := congrArg List.length hsplit
      simp at hlength
  · intro k hk hrows
    obtain ⟨pi, hpi, hkey⟩ := List.countP_pos_iff.mp (Nat.lt_of_succ_lt hrows)
    obtain rfl := of_decide_eq_true hkey
    have howned : ∀ pi ∈ arrowsInTheBag.playerInventory, pi.characterId ≠ none := by decide
    exact absurd hk (howned pi hpi)
  · intro ce hce
    cases hce

end Migrations

end LoginServer
