import LoginServer.Migrations.Tables
import LoginServer.Scripts.Psql
import LoginServer.Transactions.Tables

/-!
# 110_currency_wallet.sql

The statements of the migration in the order of the file. The gold of a character is the
`balance` of the wallet and what is `held` in `gold_coin` rows of the inventory. Two
statements move gold: the backfill adds what is held to the wallets, and the deletion from
`player_inventory` removes it. The data on which the backfill is accepted are `Fillable`.
-/

namespace LoginServer

namespace Migrations

open Database Relations Scripts Transactions

def gold : Bytes := str "gold"

def goldCoin : Bytes := str "gold_coin"

namespace Tables

variable (t : Tables)

/-- `currencies.slug = 'gold'`. -/
def goldCurrency : Option CurrencyRow := t.currencies.find? fun c => c.slug = gold

def isGoldCoin (itemId : Int) : Bool := t.items.any fun i => i.id = itemId ∧ i.slug = goldCoin

/-- The rows of a table of items joined with `gold_coin` and with `gold`. -/
def goldJoin {α K : Type} (itemId : α → Int) (key : α → Int → K) (quantity : α → Int)
    (rows : List α) : List (K × Int) :=
  rows.flatMap fun r =>
    (t.items.filter fun i => i.id = itemId r ∧ i.slug = goldCoin).flatMap fun _ =>
      (t.currencies.filter fun c => c.slug = gold).map fun c => (key r c.id, quantity r)

/-- The rows that the wallet backfill selects. -/
def walletGrants : List (WalletKey × Int) :=
  sumBy Prod.fst Prod.snd
    (t.goldJoin (·.itemId) (fun pi c => WalletKey.mk pi.characterId c) (·.quantity)
      t.playerInventory)

/-- The rows that the backfill of the starter wallets selects. -/
def starterGrants : List (StarterKey × Int) :=
  sumBy Prod.fst Prod.snd
    (t.goldJoin (·.itemId) (fun csi c => StarterKey.mk csi.classId c) (·.quantity)
      t.classStarterItems)

def goldRows : List InventoryRow := t.playerInventory.filter fun pi => t.isGoldCoin pi.itemId

/-- The gold in the wallet of an owner. -/
def balance (owner : Option Int) : Int :=
  amounts (fun k => k.characterId = owner ∧ (t.goldCurrency.map (·.id)) = some k.currencyId)
    t.characterCurrencies

/-- The gold coins of an owner. -/
def held (owner : Option Int) : Int :=
  total (·.quantity) (t.goldRows.filter fun pi => pi.characterId = owner)

end Tables

inductive Statement where
  | createTable
  | commentOn
  | insertGold
  | backfillWallets
  | backfillStarterWallets
  | deleteClassStarterItems
  | deleteMobLootInfo
  | deletePlayerInventory
  | deleteItems
  | addColumn
  | tagTransactions
deriving DecidableEq

open Statement in
/-- The file. -/
def currencyWallet : List Statement :=
  [createTable, commentOn, insertGold,
    createTable, commentOn,
    createTable,
    backfillWallets,
    backfillStarterWallets,
    deleteClassStarterItems, deleteMobLootInfo, deletePlayerInventory, deleteItems,
    addColumn, addColumn, tagTransactions]

/-- What a statement makes of the tables. The number is the one that `currencies_id_seq` gives.
The tables and the columns that the file would create are in the dump. -/
def effect (c : Statement) (drawn : Int) (t : Tables) : Option Tables :=
  match c with
  | .createTable | .commentOn | .addColumn => some t
  | .insertGold =>
    if t.currencies.any fun c => c.slug = gold then some t
    else some { t with currencies := t.currencies ++ [⟨drawn, gold⟩] }
  | .backfillWallets =>
    -- A selected row is checked before its key is compared with those of the table.
    if t.walletGrants.all fun r => r.1.characterId.isSome ∧ amountCheck r.2 then
      some { t with characterCurrencies := upsertAll (· + ·) t.walletGrants t.characterCurrencies }
    else none
  | .backfillStarterWallets =>
    if t.starterGrants.all fun r => amountCheck r.2 then
      some { t with
        classStarterCurrencies :=
          upsertAll (fun _ excluded => excluded) t.starterGrants t.classStarterCurrencies }
    else none
  | .deleteClassStarterItems =>
    some { t with
      classStarterItems := t.classStarterItems.filter fun csi => !t.isGoldCoin csi.itemId }
  | .deleteMobLootInfo =>
    some { t with mobLootInfo := t.mobLootInfo.filter fun id => !t.isGoldCoin id }
  | .deletePlayerInventory =>
    let kept := t.playerInventory.filter fun pi => !t.isGoldCoin pi.itemId
    -- `character_equipment_inventory_item_id_fkey` cascades.
    some { t with
      playerInventory := kept
      characterEquipment :=
        t.characterEquipment.filter fun ce => kept.any fun pi => pi.id = ce.inventoryItemId }
  | .deleteItems =>
    let kept := t.items.filter fun i => !(i.slug = goldCoin)
    -- The keys of `mob_loot_info` and of `class_starter_items` cascade, those of
    -- `player_inventory` and of `vendor_inventory` do not.
    some { t with
      items := kept
      mobLootInfo := t.mobLootInfo.filter fun id => kept.any fun i => i.id = id
      classStarterItems :=
        t.classStarterItems.filter fun csi => kept.any fun i => i.id = csi.itemId }
  | .tagTransactions =>
    some { t with
      currencyTransactions :=
        t.currencyTransactions.map fun ref => ref.or (t.goldCurrency.map (·.id)) }

/-- The migration, on the tables of the dump. -/
def migration : Language Statement Int Tables where
  check t := decide t.Constraints
  effect := effect

end Migrations

end LoginServer
