import LoginServer.Database.Schema
import LoginServer.Relations.Grouping

/-!
# The tables behind the currencies

The tables that the currency migration reads or writes, with the columns it uses and the
constraints of the dump on them. A character is only its id here, and a row of
`mob_loot_info`, of `vendor_inventory` or of `currency_transactions` only what it refers
to. A wallet is the amounts under its keys.
-/

namespace LoginServer

namespace Migrations

open Database Relations

structure CurrencyRow where
  id : Int
  slug : Bytes
deriving DecidableEq

/-- The primary key of `character_currencies`. -/
structure WalletKey where
  characterId : Option Int
  currencyId : Int
deriving DecidableEq

/-- The primary key of `class_starter_currencies`. -/
structure StarterKey where
  classId : Int
  currencyId : Int
deriving DecidableEq

structure Tables where
  characters : List Int := []
  items : List ItemRow := []
  currencies : List CurrencyRow := []
  playerInventory : List InventoryRow := []
  characterEquipment : List EquipmentRow := []
  characterCurrencies : List (WalletKey × Int) := []
  classStarterItems : List StarterItemRow := []
  classStarterCurrencies : List (StarterKey × Int) := []
  mobLootInfo : List Int := []
  vendorInventory : List Int := []
  currencyTransactions : List (Option Int) := []

/-- `amount BIGINT … CHECK (amount >= 0)`. -/
def amountCheck (amount : Int) : Prop := 0 ≤ amount ∧ amount < 2 ^ 63

instance (amount : Int) : Decidable (amountCheck amount) :=
  inferInstanceAs (Decidable (_ ∧ _))

namespace Tables

variable (t : Tables)

def itemIds : List Int := t.items.map (·.id)

def currencyIds : List Int := t.currencies.map (·.id)

/-- The constraints of the dump, under their names there. -/
structure Constraints : Prop where
  items_pkey : t.itemIds.Nodup
  uq_items_slug : (t.items.map (·.slug)).Nodup
  currencies_pkey : t.currencyIds.Nodup
  currencies_slug_key : (t.currencies.map (·.slug)).Nodup
  player_inventory_pkey : (t.playerInventory.map (·.id)).Nodup
  player_inventory_character_id_fkey :
    ∀ pi ∈ t.playerInventory, ∀ c ∈ pi.characterId, c ∈ t.characters
  player_inventory_item_id_fkey : ∀ pi ∈ t.playerInventory, pi.itemId ∈ t.itemIds
  character_equipment_inventory_item_id_fkey :
    ∀ ce ∈ t.characterEquipment, ce.inventoryItemId ∈ t.playerInventory.map (·.id)
  character_currencies_pkey : (t.characterCurrencies.map Prod.fst).Nodup
  character_currencies_not_null : ∀ r ∈ t.characterCurrencies, r.1.characterId ≠ none
  character_currencies_amount_check : ∀ r ∈ t.characterCurrencies, amountCheck r.2
  character_currencies_character_id_fkey :
    ∀ r ∈ t.characterCurrencies, ∀ c ∈ r.1.characterId, c ∈ t.characters
  character_currencies_currency_id_fkey :
    ∀ r ∈ t.characterCurrencies, r.1.currencyId ∈ t.currencyIds
  class_starter_items_item_id_fkey : ∀ csi ∈ t.classStarterItems, csi.itemId ∈ t.itemIds
  class_starter_currencies_pkey : (t.classStarterCurrencies.map Prod.fst).Nodup
  class_starter_currencies_amount_check : ∀ r ∈ t.classStarterCurrencies, amountCheck r.2
  class_starter_currencies_currency_id_fkey :
    ∀ r ∈ t.classStarterCurrencies, r.1.currencyId ∈ t.currencyIds
  mob_loot_info_item_id_fkey : ∀ id ∈ t.mobLootInfo, id ∈ t.itemIds
  vendor_inventory_item_id_fkey : ∀ id ∈ t.vendorInventory, id ∈ t.itemIds
  currency_transactions_currency_id_fkey :
    ∀ ref ∈ t.currencyTransactions, ∀ id ∈ ref, id ∈ t.currencyIds

instance : Decidable t.Constraints :=
  decidable_of_iff
    ((t.itemIds.Nodup ∧ (t.items.map (·.slug)).Nodup ∧ t.currencyIds.Nodup ∧
        (t.currencies.map (·.slug)).Nodup) ∧
      ((t.playerInventory.map (·.id)).Nodup ∧
        (∀ pi ∈ t.playerInventory, ∀ c ∈ pi.characterId, c ∈ t.characters) ∧
        (∀ pi ∈ t.playerInventory, pi.itemId ∈ t.itemIds) ∧
        ∀ ce ∈ t.characterEquipment, ce.inventoryItemId ∈ t.playerInventory.map (·.id)) ∧
      ((t.characterCurrencies.map Prod.fst).Nodup ∧
        (∀ r ∈ t.characterCurrencies, r.1.characterId ≠ none) ∧
        (∀ r ∈ t.characterCurrencies, amountCheck r.2) ∧
        (∀ r ∈ t.characterCurrencies, ∀ c ∈ r.1.characterId, c ∈ t.characters) ∧
        ∀ r ∈ t.characterCurrencies, r.1.currencyId ∈ t.currencyIds) ∧
      ((∀ csi ∈ t.classStarterItems, csi.itemId ∈ t.itemIds) ∧
        (t.classStarterCurrencies.map Prod.fst).Nodup ∧
        (∀ r ∈ t.classStarterCurrencies, amountCheck r.2) ∧
        ∀ r ∈ t.classStarterCurrencies, r.1.currencyId ∈ t.currencyIds) ∧
      (∀ id ∈ t.mobLootInfo, id ∈ t.itemIds) ∧ (∀ id ∈ t.vendorInventory, id ∈ t.itemIds) ∧
        ∀ ref ∈ t.currencyTransactions, ∀ id ∈ ref, id ∈ t.currencyIds)
    ⟨fun ⟨⟨a, b, c, d⟩, ⟨e, f, g, h⟩, ⟨i, j, k, l, m⟩, ⟨n, o, p, q⟩, r, s, u⟩ =>
      ⟨a, b, c, d, e, f, g, h, i, j, k, l, m, n, o, p, q, r, s, u⟩,
    fun ⟨a, b, c, d, e, f, g, h, i, j, k, l, m, n, o, p, q, r, s, u⟩ =>
      ⟨⟨a, b, c, d⟩, ⟨e, f, g, h⟩, ⟨i, j, k, l, m⟩, ⟨n, o, p, q⟩, r, s, u⟩⟩

end Tables

end Migrations

end LoginServer
