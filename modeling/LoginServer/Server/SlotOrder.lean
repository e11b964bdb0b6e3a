import LoginServer.Server.CharacterLimits

/-!
# Slots in the order of creation

A new character gets the slot above all live ones of its account, and a deletion takes a row
out. So the slots of an account increase along the table, and `get_characters_list`, which
sorts by slot, gives the live characters in the order in which they were inserted.
-/

namespace LoginServer

open Database

/-- The slots of each account increase along the rows. -/
def SlotOrder (rows : List CharacterRow) : Prop :=
  ∀ accountId, (ownedBy accountId rows).Pairwise fun r r' => r.accountSlot < r'.accountSlot

namespace SlotOrder

variable {rows rows' : List CharacterRow} {row : CharacterRow}

theorem nil : SlotOrder [] := fun _ => List.Pairwise.nil

theorem sublist (h : SlotOrder rows) (hsub : rows'.Sublist rows) : SlotOrder rows' :=
  fun accountId => (h accountId).sublist (ownedBy_sublist hsub accountId)

/-- A row may join above the rows of its account. -/
theorem append (h : SlotOrder rows)
    (hslot : ∀ r ∈ ownedBy row.ownerId rows, r.accountSlot < row.accountSlot) :
    SlotOrder (rows ++ [row]) := by
  intro accountId
  by_cases hid : row.ownerId = accountId
  · subst hid
    rw [ownedBy_append_self, List.pairwise_append]
    refine ⟨h row.ownerId, List.pairwise_singleton .., fun r hr r' hr' => ?_⟩
    rw [List.mem_singleton.mp hr']
    exact hslot r hr
  · rw [ownedBy_append_of_ne hid]
    exact h accountId

theorem nodup (h : SlotOrder rows) (accountId : Int) :
    ((ownedBy accountId rows).map (·.accountSlot)).Nodup :=
  List.pairwise_map.mpr ((h accountId).imp fun hlt => hlt.ne)

/-- The list shows the live characters as they stand in the table. -/
theorem getCharactersList {db : Database} (h : SlotOrder db.live) (hkeys : db.ListKeys)
    (accountId : Int) :
    (db.getCharactersList accountId).map (·.characterId) =
      (ownedBy accountId db.live).map (·.id) := by
  obtain ⟨cs, hperm, hsorted, hrows⟩ := hkeys.getCharactersList_rows accountId
  rw [liveCharacters_eq] at hperm
  have hsame : cs = ownedBy accountId db.live := by
    refine hperm.eq_of_pairwise (fun c c' hc hc' hle hle' => ?_) hsorted
      ((h accountId).imp fun hlt => hlt.le)
    exact List.inj_on_of_nodup_map (h.nodup accountId) (hperm.subset hc) hc' (le_antisymm hle hle')
  rw [← hsame]
  refine List.forall₂_eq_eq_eq ▸ ?_
  rw [List.forall₂_map_left_iff, List.forall₂_map_right_iff]
  exact hrows.flip.imp fun row c hrow => hrow.characterId

end SlotOrder

end LoginServer
