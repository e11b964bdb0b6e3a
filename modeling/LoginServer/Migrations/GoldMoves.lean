import LoginServer.Migrations.CurrencyWallet

/-!
# What each statement does to the gold

The backfill is accepted on `Fillable` data only, and then every owner has what the rows of
the inventory held in the wallet as well (`balance_backfill`). The deletion of the rows is always
accepted. No other statement changes a balance or a row of gold.
-/

namespace LoginServer

namespace Migrations

open Database Relations Scripts Transactions

namespace Tables

/-- The backfill is accepted and moves the gold. -/
structure Fillable (t : Tables) : Prop where
  currency : t.goldCurrency ≠ none
  owned : ∀ pi ∈ t.goldRows, pi.characterId ≠ none
  positive : ∀ pi ∈ t.goldRows, 0 ≤ t.held pi.characterId
  fits : ∀ pi ∈ t.goldRows, t.balance pi.characterId + t.held pi.characterId < 2 ^ 63

instance (t : Tables) : Decidable t.Fillable :=
  decidable_of_iff
    (t.goldCurrency ≠ none ∧ (∀ pi ∈ t.goldRows, pi.characterId ≠ none) ∧
      (∀ pi ∈ t.goldRows, 0 ≤ t.held pi.characterId) ∧
      ∀ pi ∈ t.goldRows, t.balance pi.characterId + t.held pi.characterId < 2 ^ 63)
    ⟨fun ⟨a, b, c, d⟩ => ⟨a, b, c, d⟩, fun ⟨a, b, c, d⟩ => ⟨a, b, c, d⟩⟩

variable {t t' : Tables}

/-! ## The join -/

theorem goldCurrency_mem {c : CurrencyRow} (h : t.goldCurrency = some c) :
    c ∈ t.currencies ∧ c.slug = gold :=
  ⟨List.mem_of_find?_eq_some h, by simpa using List.find?_some h⟩

theorem filter_gold_of_none (h : t.goldCurrency = none) :
    (t.currencies.filter fun c => c.slug = gold) = [] := by
  rw [List.filter_eq_nil_iff]
  exact fun c hc => List.find?_eq_none.mp h c hc

theorem filter_gold_of_some (hc : t.Constraints) {c : CurrencyRow} (h : t.goldCurrency = some c) :
    (t.currencies.filter fun c => c.slug = gold) = [c] := by
  obtain ⟨hmem, hslug⟩ := goldCurrency_mem h
  rw [← hslug]
  exact filter_key hc.currencies_slug_key hmem

/-- An item is joined once if it is the gold coin. -/
theorem filter_goldCoin (hc : t.Constraints) (itemId : Int) :
    (∃ i, (t.items.filter fun i => i.id = itemId ∧ i.slug = goldCoin) = [i]) ∧
        t.isGoldCoin itemId = true ∨
      (t.items.filter fun i => i.id = itemId ∧ i.slug = goldCoin) = [] ∧
        t.isGoldCoin itemId = false := by
  cases hcoin : t.isGoldCoin itemId with
  | false =>
    refine Or.inr ⟨List.filter_eq_nil_iff.mpr fun i hi hcond => ?_, rfl⟩
    rw [isGoldCoin, List.any_eq_false] at hcoin
    exact hcoin i hi hcond
  | true =>
    rw [isGoldCoin, List.any_eq_true] at hcoin
    obtain ⟨i, hi, hcond⟩ := hcoin
    obtain ⟨hid, hslug⟩ := of_decide_eq_true hcond
    refine Or.inl ⟨⟨i, ?_⟩, rfl⟩
    have hfilter : (t.items.filter fun j => j.id = i.id) = [i] := filter_key hc.items_pkey hi
    have hsplit : (t.items.filter fun j => j.id = itemId ∧ j.slug = goldCoin) =
        (t.items.filter fun j => j.id = i.id).filter fun j => j.slug = goldCoin := by
      rw [List.filter_filter, hid]
      refine List.filter_congr fun j _ => ?_
      rw [Bool.decide_and, Bool.and_comm]
    rw [hsplit, hfilter, List.filter_cons_of_pos (by simpa using hslug), List.filter_nil]

variable {α K : Type} {itemId : α → Int} {key : α → Int → K} {quantity : α → Int}

theorem goldJoin_of_none (h : t.goldCurrency = none) (rows : List α) :
    t.goldJoin itemId key quantity rows = [] := by
  simp [goldJoin, filter_gold_of_none h]

theorem goldJoin_of_some (hc : t.Constraints) {c : CurrencyRow} (h : t.goldCurrency = some c)
    (rows : List α) :
    t.goldJoin itemId key quantity rows =
      (rows.filter fun r => t.isGoldCoin (itemId r)).map fun r => (key r c.id, quantity r) := by
  unfold goldJoin
  rw [filter_gold_of_some hc h]
  induction rows with
  | nil => rfl
  | cons r rows ih =>
    rw [List.flatMap_cons, ih]
    rcases filter_goldCoin hc (itemId r) with ⟨⟨i, hi⟩, hcoin⟩ | ⟨hi, hcoin⟩
    · rw [hi]
      simp [hcoin]
    · rw [hi]
      simp [hcoin]

/-! ## The grants -/

theorem walletGrants_of_none (h : t.goldCurrency = none) : t.walletGrants = [] := by
  rw [walletGrants, goldJoin_of_none h]
  rfl

theorem walletGrants_of_some (hc : t.Constraints) {c : CurrencyRow} (h : t.goldCurrency = some c) :
    t.walletGrants =
      sumBy Prod.fst Prod.snd
        (t.goldRows.map fun pi => (WalletKey.mk pi.characterId c.id, pi.quantity)) := by
  rw [walletGrants, goldJoin_of_some hc h]
  rfl

theorem amounts_walletGrants (hc : t.Constraints) {c : CurrencyRow} (h : t.goldCurrency = some c)
    (p : WalletKey → Bool) :
    amounts p t.walletGrants =
      total (·.quantity) (t.goldRows.filter fun pi => p ⟨pi.characterId, c.id⟩) := by
  rw [walletGrants_of_some hc h, amounts_sumBy, List.filter_map, total_map]
  rfl

/-- Each grant is what an owner of gold coins holds. -/
theorem mem_walletGrants (hc : t.Constraints) {c : CurrencyRow} (h : t.goldCurrency = some c)
    {row : WalletKey × Int} :
    row ∈ t.walletGrants ↔
      ∃ pi ∈ t.goldRows, row = (⟨pi.characterId, c.id⟩, t.held pi.characterId) := by
  have hheld : ∀ owner : Option Int,
      total Prod.snd ((t.goldRows.map fun pi =>
        (WalletKey.mk pi.characterId c.id, pi.quantity)).filter fun r =>
          r.1 = WalletKey.mk owner c.id) = t.held owner := by
    intro owner
    rw [List.filter_map, total_map]
    unfold held
    congr 1
    refine List.filter_congr fun pi _ => ?_
    simp
  rw [walletGrants_of_some hc h]
  constructor
  · intro hrow
    obtain ⟨⟨r, hr, hkey⟩, hsum⟩ := mem_sumBy hrow
    obtain ⟨pi, hpi, rfl⟩ := List.mem_map.mp hr
    refine ⟨pi, hpi, Prod.ext hkey.symm ?_⟩
    rw [hsum, ← hkey]
    exact hheld pi.characterId
  · rintro ⟨pi, hpi, rfl⟩
    rw [← hheld pi.characterId]
    exact List.mem_map.mpr ⟨_, List.mem_dedup.mpr (List.mem_map_of_mem
      (List.mem_map_of_mem hpi)), rfl⟩

/-! ## The backfill -/

theorem balance_of_some {c : CurrencyRow} (h : t.goldCurrency = some c) (owner : Option Int) :
    t.balance owner = amounts (fun k => k = ⟨owner, c.id⟩) t.characterCurrencies := by
  unfold balance
  refine amounts_congr fun row _ => decide_eq_decide.mpr ?_
  obtain ⟨⟨owner', currencyId⟩, amount⟩ := row
  rw [h, Option.map_some, Option.some.injEq, WalletKey.mk.injEq, eq_comm (b := currencyId)]

theorem balance_of_none (h : t.goldCurrency = none) (owner : Option Int) : t.balance owner = 0 := by
  unfold balance
  refine amounts_eq_zero fun row _ => ?_
  simp [h]

/-- The tables after the backfill. -/
def backfilled (t : Tables) : Tables :=
  { t with characterCurrencies := upsertAll (· + ·) t.walletGrants t.characterCurrencies }

theorem balance_backfilled (hc : t.Constraints) (h : t.goldCurrency ≠ none) (owner : Option Int) :
    t.backfilled.balance owner = t.balance owner + t.held owner := by
  obtain ⟨c, hcur⟩ := Option.ne_none_iff_exists'.mp h
  have hcur' : t.backfilled.goldCurrency = some c := hcur
  rw [balance_of_some hcur', balance_of_some hcur, backfilled, amounts_upsertAll_add,
    amounts_walletGrants hc hcur]
  unfold held
  congr 2
  refine List.filter_congr fun pi _ => ?_
  simp

theorem backfilled_of_none (h : t.goldCurrency = none) : t.backfilled = t := by
  rw [backfilled, walletGrants_of_none h]
  rfl

theorem balance_nonneg (hc : t.Constraints) (owner : Option Int) : 0 ≤ t.balance owner :=
  amounts_nonneg fun row hrow => (hc.character_currencies_amount_check row hrow).1

/-- A selected row passes the checks of its columns. -/
theorem walletGrants_checked (hc : t.Constraints) (hfill : t.Fillable) :
    t.walletGrants.all (fun r => r.1.characterId.isSome ∧ amountCheck r.2) = true := by
  obtain ⟨c, hcur⟩ := Option.ne_none_iff_exists'.mp hfill.currency
  rw [List.all_eq_true]
  intro row hrow
  obtain ⟨pi, hpi, rfl⟩ := (mem_walletGrants hc hcur).mp hrow
  have hfits := hfill.fits pi hpi
  have hbalance := balance_nonneg hc pi.characterId
  exact decide_eq_true ⟨Option.isSome_iff_ne_none.mpr (hfill.owned pi hpi),
    hfill.positive pi hpi, by simp only; omega⟩

/-- A wallet that gets no grant keeps its row. -/
theorem mem_backfilled (hc : t.Constraints) {c : CurrencyRow} (h : t.goldCurrency = some c)
    {row : WalletKey × Int} (hrow : row ∈ t.backfilled.characterCurrencies) :
    row ∈ t.characterCurrencies ∨
      ∃ pi ∈ t.goldRows, row =
        (⟨pi.characterId, c.id⟩, t.balance pi.characterId + t.held pi.characterId) := by
  have hamount := amounts_key (nodup_upsertAll hc.character_currencies_pkey _) hrow
  rw [amounts_upsertAll_add, amounts_walletGrants hc h] at hamount
  by_cases hgrant : ∃ pi ∈ t.goldRows, row.1 = ⟨pi.characterId, c.id⟩
  · obtain ⟨pi, hpi, hkey⟩ := hgrant
    refine Or.inr ⟨pi, hpi, Prod.ext hkey ?_⟩
    rw [← hamount, hkey, ← balance_of_some h]
    unfold held
    congr 2
    refine List.filter_congr fun pi' _ => ?_
    simp
  · left
    have hnone : (t.goldRows.filter fun pi =>
        decide (WalletKey.mk pi.characterId c.id = row.1)) = [] := by
      rw [List.filter_eq_nil_iff]
      exact fun pi hpi heq => hgrant ⟨pi, hpi, (of_decide_eq_true heq).symm⟩
    rw [hnone, total_nil, Int.add_zero] at hamount
    have hkey := mem_keys_upsertAll.mp (List.mem_map_of_mem hrow)
    rcases hkey with hkey | hkey
    · obtain ⟨row', hrow', heq⟩ := List.mem_map.mp hkey
      have hamount' := amounts_key hc.character_currencies_pkey hrow'
      rw [heq, hamount] at hamount'
      rwa [Prod.ext heq.symm hamount']
    · obtain ⟨grant, hmem, heq⟩ := List.mem_map.mp hkey
      obtain ⟨pi, hpi, rfl⟩ := (mem_walletGrants hc h).mp hmem
      exact absurd ⟨pi, hpi, heq.symm⟩ hgrant

theorem constraints_backfilled (hc : t.Constraints) (hfill : t.Fillable) :
    t.backfilled.Constraints := by
  obtain ⟨c, hcur⟩ := Option.ne_none_iff_exists'.mp hfill.currency
  have hgold : ∀ pi ∈ t.goldRows, pi ∈ t.playerInventory := fun pi hpi => List.mem_of_mem_filter hpi
  exact { hc with
    character_currencies_pkey := nodup_upsertAll hc.character_currencies_pkey _
    character_currencies_not_null := by
      intro row hrow
      rcases mem_backfilled hc hcur hrow with hold | ⟨pi, hpi, rfl⟩
      · exact hc.character_currencies_not_null row hold
      · exact hfill.owned pi hpi
    character_currencies_amount_check := by
      intro row hrow
      rcases mem_backfilled hc hcur hrow with hold | ⟨pi, hpi, rfl⟩
      · exact hc.character_currencies_amount_check row hold
      · exact ⟨Int.add_nonneg (balance_nonneg hc _) (hfill.positive pi hpi), hfill.fits pi hpi⟩
    character_currencies_character_id_fkey := by
      intro row hrow
      rcases mem_backfilled hc hcur hrow with hold | ⟨pi, hpi, rfl⟩
      · exact hc.character_currencies_character_id_fkey row hold
      · exact hc.player_inventory_character_id_fkey pi (hgold pi hpi)
    character_currencies_currency_id_fkey := by
      intro row hrow
      rcases mem_backfilled hc hcur hrow with hold | ⟨pi, hpi, rfl⟩
      · exact hc.character_currencies_currency_id_fkey row hold
      · exact List.mem_map_of_mem (goldCurrency_mem hcur).1 }

/-- What the backfill needs follows from its acceptance. -/
theorem fillable_of_accepted (hc : t.Constraints) (hcur : t.goldCurrency ≠ none)
    (hchecked : t.walletGrants.all (fun r => r.1.characterId.isSome ∧ amountCheck r.2) = true)
    (hc' : t.backfilled.Constraints) : t.Fillable := by
  obtain ⟨c, hc'cur⟩ := Option.ne_none_iff_exists'.mp hcur
  have hgrant : ∀ pi ∈ t.goldRows, pi.characterId.isSome ∧ amountCheck (t.held pi.characterId) :=
    fun pi hpi => of_decide_eq_true
      (List.all_eq_true.mp hchecked _ ((mem_walletGrants hc hc'cur).mpr ⟨pi, hpi, rfl⟩))
  refine ⟨hcur, fun pi hpi => Option.isSome_iff_ne_none.mp (hgrant pi hpi).1,
    fun pi hpi => (hgrant pi hpi).2.1, fun pi hpi => ?_⟩
  have hkey : (⟨pi.characterId, c.id⟩ : WalletKey) ∈
      t.backfilled.characterCurrencies.map Prod.fst :=
    mem_keys_upsertAll.mpr (Or.inr (List.mem_map.mpr
      ⟨_, (mem_walletGrants hc hc'cur).mpr ⟨pi, hpi, rfl⟩, rfl⟩))
  obtain ⟨row, hrow, heq⟩ := List.mem_map.mp hkey
  have hamount := amounts_key hc'.character_currencies_pkey hrow
  have hcur' : t.backfilled.goldCurrency = some c := hc'cur
  rw [heq, ← balance_of_some hcur', balance_backfilled hc hcur] at hamount
  rw [hamount]
  exact (hc'.character_currencies_amount_check row hrow).2

/-! ## The other statements -/

theorem isGoldCoin_mem {itemId : Int} (h : t.isGoldCoin itemId = true) :
    ∃ i ∈ t.items, i.id = itemId ∧ i.slug = goldCoin := by
  obtain ⟨i, hi, hcond⟩ := List.any_eq_true.mp h
  exact ⟨i, hi, of_decide_eq_true hcond⟩

/-- No wallet is in a currency that is new. -/
theorem balance_insertGold (hc : t.Constraints) {drawn : Int}
    (h : effect .insertGold drawn t = some t') (hc' : t'.Constraints) (owner : Option Int) :
    t'.balance owner = t.balance owner := by
  simp only [effect] at h
  split at h
  · cases h
    rfl
  · rename_i hnone
    cases h
    have hcur : t.goldCurrency = none := List.find?_eq_none.mpr fun c hmem hslug =>
      hnone (List.any_eq_true.mpr ⟨c, hmem, hslug⟩)
    rw [balance_of_none hcur]
    have hcur' : goldCurrency { t with currencies := t.currencies ++ [⟨drawn, gold⟩] } =
        some ⟨drawn, gold⟩ := by
      unfold goldCurrency
      rw [List.find?_append, show t.currencies.find? (fun c => c.slug = gold) = none from hcur]
      simp
    rw [balance_of_some hcur']
    refine amounts_eq_zero fun row hrow => decide_eq_false fun heq => ?_
    have hold := hc.character_currencies_currency_id_fkey row hrow
    rw [heq] at hold
    have hnew := hc'.currencies_pkey
    rw [currencyIds, List.map_append] at hnew
    exact (List.nodup_append.mp hnew).2.2 drawn hold drawn (by simp) rfl

/-- The item can be deleted only when no row of gold is left. -/
theorem goldRows_deleteItems (hc : t.Constraints) {drawn : Int}
    (h : effect .deleteItems drawn t = some t') (hc' : t'.Constraints) :
    t.goldRows = [] ∧ t'.goldRows = [] := by
  cases h
  have hcoin : ∀ pi ∈ t.playerInventory, t.isGoldCoin pi.itemId = false := by
    intro pi hpi
    rw [Bool.eq_false_iff]
    intro hgold
    obtain ⟨i, hi, hid, hslug⟩ := isGoldCoin_mem hgold
    obtain ⟨j, hj, hjd⟩ := List.mem_map.mp (hc'.player_inventory_item_id_fkey pi hpi)
    obtain ⟨hj, hkept⟩ := List.mem_filter.mp hj
    have hij : j = i := List.inj_on_of_nodup_map hc.items_pkey hj hi (hjd.trans hid.symm)
    rw [hij, hslug] at hkept
    simp at hkept
  refine ⟨List.filter_eq_nil_iff.mpr fun pi hpi => by simp [hcoin pi hpi],
    List.filter_eq_nil_iff.mpr fun pi hpi hgold => ?_⟩
  obtain ⟨i, hi, -, hslug⟩ := isGoldCoin_mem hgold
  obtain ⟨-, hkept⟩ := List.mem_filter.mp hi
  rw [hslug] at hkept
  simp at hkept

/-- The tables after the deletion from `player_inventory`. -/
def deleted (t : Tables) : Tables :=
  { t with
    playerInventory := t.playerInventory.filter fun pi => !t.isGoldCoin pi.itemId
    characterEquipment := t.characterEquipment.filter fun ce =>
      (t.playerInventory.filter fun pi => !t.isGoldCoin pi.itemId).any fun pi =>
        pi.id = ce.inventoryItemId }

theorem goldRows_deleted (t : Tables) : t.deleted.goldRows = [] := by
  refine List.filter_eq_nil_iff.mpr fun pi hpi hgold => ?_
  have hkept := (List.mem_filter.mp hpi).2
  have hgold' : t.isGoldCoin pi.itemId = true := hgold
  rw [hgold'] at hkept
  cases hkept

/-- The deletion is always accepted. -/
theorem constraints_deleted (hc : t.Constraints) : t.deleted.Constraints :=
  { hc with
    player_inventory_pkey := hc.player_inventory_pkey.sublist (List.filter_sublist.map _)
    player_inventory_character_id_fkey := fun pi hpi =>
      hc.player_inventory_character_id_fkey pi (List.mem_of_mem_filter hpi)
    player_inventory_item_id_fkey := fun pi hpi =>
      hc.player_inventory_item_id_fkey pi (List.mem_of_mem_filter hpi)
    character_equipment_inventory_item_id_fkey := by
      intro ce hce
      obtain ⟨pi, hpi, hid⟩ := List.any_eq_true.mp (List.mem_filter.mp hce).2
      exact List.mem_map.mpr ⟨pi, hpi, of_decide_eq_true hid⟩ }

end Tables

/-! ## Steps -/

open Scripts.Language (Attempt)

/-- The backfill is accepted and there is gold to move. -/
def backfills (d : migration.Content) (a : Attempt Statement Int) : Bool :=
  a.1 = .backfillWallets ∧ a.2.isExecuted ∧ d.val.goldRows ≠ [] ∧ d.val.Fillable

/-- The deletion from `player_inventory` is executed and there is gold to delete. -/
def deletes (d : migration.Content) (a : Attempt Statement Int) : Bool :=
  a.1 = .deletePlayerInventory ∧ a.2.isExecuted ∧ d.val.goldRows ≠ []

theorem constraints (d : migration.Content) : d.val.Constraints := of_decide_eq_true d.property

theorem held_of_goldRows_nil {t : Tables} (h : t.goldRows = []) (owner : Option Int) :
    t.held owner = 0 := by
  rw [Tables.held, h]
  rfl

theorem goldRows_attempt (d : migration.Content) (a : Attempt Statement Int) :
    (migration.attempt d a).val.goldRows = if deletes d a then [] else d.val.goldRows := by
  have hc' := constraints (migration.attempt d a)
  obtain ⟨c, fate⟩ := a
  rcases migration.attempt_cases d (c, fate) with ⟨drawn, hfate, heffect⟩ | ⟨hstill, hrefused⟩
  · change effect c drawn d.val = some _ at heffect
    have hstays : c ≠ .deletePlayerInventory →
        (migration.attempt d (c, fate)).val.goldRows = d.val.goldRows →
        (migration.attempt d (c, fate)).val.goldRows =
          if deletes d (c, fate) then [] else d.val.goldRows := by
      intro hne hrows
      rw [if_neg (by simp [deletes, hne]), hrows]
    cases c with
    | deletePlayerInventory =>
      have hdeleted : (migration.attempt d (.deletePlayerInventory, fate)).val = d.val.deleted :=
        (Option.some.inj heffect).symm
      rw [hdeleted, Tables.goldRows_deleted]
      split
      · rfl
      · rename_i hnot
        by_contra hne
        refine hnot ?_
        have hexec : fate.isExecuted = true := by
          rw [show fate = .executed drawn from hfate]
          rfl
        simpa [deletes, hexec] using fun h => hne h.symm
    | deleteItems =>
      obtain ⟨hbefore, hafter⟩ := Tables.goldRows_deleteItems (constraints d) heffect hc'
      exact hstays (fun h => by cases h) (hafter.trans hbefore.symm)
    | insertGold =>
      refine hstays (fun h => by cases h) ?_
      simp only [effect] at heffect
      split at heffect
      · rw [← Option.some.inj heffect]
      · rw [← Option.some.inj heffect]
        rfl
    | backfillWallets =>
      refine hstays (fun h => by cases h) ?_
      simp only [effect] at heffect
      split at heffect
      · rw [← Option.some.inj heffect]
        rfl
      · cases heffect
    | backfillStarterWallets =>
      refine hstays (fun h => by cases h) ?_
      simp only [effect] at heffect
      split at heffect
      · rw [← Option.some.inj heffect]
        rfl
      · cases heffect
    | createTable | commentOn | addColumn | deleteClassStarterItems | deleteMobLootInfo
    | tagTransactions =>
      exact hstays (fun h => by cases h)
        ((congrArg Tables.goldRows (Option.some.inj heffect).symm).trans rfl)
  · rw [hstill, if_neg]
    intro hdeletes
    obtain ⟨rfl, hexec, -⟩ := of_decide_eq_true hdeletes
    cases fate with
    | failed => cases hexec
    | executed drawn =>
      have hcheck : migration.check d.val.deleted = true :=
        decide_eq_true (Tables.constraints_deleted (constraints d))
      exact hrefused drawn rfl ⟨d.val.deleted, hcheck⟩ rfl

theorem balance_attempt (d : migration.Content) (a : Attempt Statement Int)
    (owner : Option Int) :
    (migration.attempt d a).val.balance owner =
      d.val.balance owner + if backfills d a then d.val.held owner else 0 := by
  have hc' := constraints (migration.attempt d a)
  obtain ⟨c, fate⟩ := a
  rcases migration.attempt_cases d (c, fate) with ⟨drawn, hfate, heffect⟩ | ⟨hstill, hrefused⟩
  · change effect c drawn d.val = some _ at heffect
    have hstays : c ≠ .backfillWallets →
        (migration.attempt d (c, fate)).val.balance owner = d.val.balance owner →
        (migration.attempt d (c, fate)).val.balance owner =
          d.val.balance owner + if backfills d (c, fate) then d.val.held owner else 0 := by
      intro hne hbalance
      rw [if_neg (by simp [backfills, hne]), hbalance, Int.add_zero]
    cases c with
    | backfillWallets =>
      simp only [effect] at heffect
      split at heffect
      · rename_i hchecked
        have hafter : (migration.attempt d (.backfillWallets, fate)).val = d.val.backfilled :=
          (Option.some.inj heffect).symm
        rw [hafter] at hc' ⊢
        have hexec : fate.isExecuted = true := by
          rw [show fate = .executed drawn from hfate]
          rfl
        by_cases hcur : d.val.goldCurrency = none
        · rw [Tables.backfilled_of_none hcur, if_neg, Int.add_zero]
          intro hbackfills
          exact (of_decide_eq_true hbackfills).2.2.2.currency hcur
        · have hfill := Tables.fillable_of_accepted (constraints d) hcur hchecked hc'
          rw [Tables.balance_backfilled (constraints d) hcur]
          by_cases hrows : d.val.goldRows = []
          · rw [held_of_goldRows_nil hrows, ite_self]
          · have hbackfills : backfills d (.backfillWallets, fate) = true :=
              decide_eq_true ⟨rfl, hexec, hrows, hfill⟩
            rw [if_pos hbackfills]
      · cases heffect
    | insertGold =>
      exact hstays (fun h => by cases h)
        (Tables.balance_insertGold (constraints d) heffect hc' owner)
    | backfillStarterWallets =>
      refine hstays (fun h => by cases h) ?_
      simp only [effect] at heffect
      split at heffect
      · rw [← Option.some.inj heffect]
        rfl
      · cases heffect
    | createTable | commentOn | addColumn | deleteClassStarterItems | deleteMobLootInfo
    | tagTransactions | deletePlayerInventory | deleteItems =>
      exact hstays (fun h => by cases h)
        ((congrArg (Tables.balance · owner) (Option.some.inj heffect).symm).trans rfl)
  · rw [hstill, if_neg, Int.add_zero]
    intro hbackfills
    obtain ⟨rfl, hexec, -, hfill⟩ := of_decide_eq_true hbackfills
    cases fate with
    | failed => cases hexec
    | executed drawn =>
      have hcheck : migration.check d.val.backfilled = true :=
        decide_eq_true (Tables.constraints_backfilled (constraints d) hfill)
      refine hrefused drawn rfl ⟨d.val.backfilled, hcheck⟩ ?_
      exact if_pos (Tables.walletGrants_checked (constraints d) hfill)

end Migrations

end LoginServer
