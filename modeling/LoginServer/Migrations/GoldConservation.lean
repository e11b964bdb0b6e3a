import LoginServer.Migrations.GoldMoves

/-!
# Gold over the runs of the migration

In any order of attempts each backfill adds what is held to the wallets, until the first
deletion, after which nothing is held. So gold is conserved exactly if there is none, or if
there are as many backfills as deletions: none of either, or one of each.
-/

namespace LoginServer

namespace Migrations

open Scripts
open Scripts.Language (Attempt)

/-- The gold of a character, in the wallet and in the inventory. -/
def Tables.goldOf (t : Tables) (character : Int) : Int :=
  t.balance (some character) + t.held (some character)

variable (d : migration.Content) (attempts : List (Attempt Statement Int))

theorem held_attempt (a : Attempt Statement Int) (owner : Option Int) :
    (migration.attempt d a).val.held owner = if deletes d a then 0 else d.val.held owner := by
  unfold Tables.held
  rw [goldRows_attempt]
  split
  · rfl
  · rfl

theorem occurrences_of_goldRows_nil {d : migration.Content} (h : d.val.goldRows = []) :
    migration.occurrences backfills d attempts = 0 ∧
      migration.occurrences deletes d attempts = 0 := by
  induction attempts generalizing d with
  | nil => exact ⟨rfl, rfl⟩
  | cons a attempts ih =>
    have hrest : (migration.attempt d a).val.goldRows = [] := by
      rw [goldRows_attempt, h, ite_self]
    obtain ⟨hbackfills, hdeletes⟩ := ih hrest
    rw [Language.occurrences_cons, Language.occurrences_cons, hbackfills, hdeletes]
    have hback : backfills d a = false := by simp [backfills, h]
    have hdel : deletes d a = false := by simp [deletes, h]
    rw [hback, hdel]
    exact ⟨rfl, rfl⟩

/-- Gold is deleted at most once. Until then the inventory keeps it. -/
theorem held_run (owner : Option Int) :
    migration.occurrences deletes d attempts ≤ 1 ∧
      (migration.run d attempts).val.held owner =
        d.val.held owner - migration.occurrences deletes d attempts * d.val.held owner := by
  induction attempts generalizing d with
  | nil => simp [Language.occurrences, Language.history, Language.run]
  | cons a attempts ih =>
    obtain ⟨hle, hheld⟩ := ih (migration.attempt d a)
    rw [Language.run_cons, hheld, Language.occurrences_cons, held_attempt]
    by_cases hdel : deletes d a = true
    · have hnil : (migration.attempt d a).val.goldRows = [] := by
        rw [goldRows_attempt, if_pos hdel]
      rw [(occurrences_of_goldRows_nil attempts hnil).2, if_pos hdel, if_pos hdel]
      simp
    · rw [if_neg hdel, if_neg hdel]
      exact ⟨hle, rfl⟩

/-- Each backfill adds what the inventory held at first. -/
theorem balance_run (owner : Option Int) :
    (migration.run d attempts).val.balance owner =
      d.val.balance owner + migration.occurrences backfills d attempts * d.val.held owner := by
  induction attempts generalizing d with
  | nil => simp [Language.occurrences, Language.history, Language.run]
  | cons a attempts ih =>
    rw [Language.run_cons, ih, Language.occurrences_cons, balance_attempt, held_attempt]
    by_cases hdel : deletes d a = true
    · have hnil : (migration.attempt d a).val.goldRows = [] := by
        rw [goldRows_attempt, if_pos hdel]
      have hnot : backfills d a = false := by
        obtain ⟨hstatement, -⟩ := of_decide_eq_true hdel
        simp [backfills, hstatement]
      rw [(occurrences_of_goldRows_nil attempts hnil).1, hnot]
      simp
    · rw [if_neg hdel]
      split
      · push_cast
        rw [Int.add_mul, Int.one_mul]
        omega
      · simp

/-- Gold is conserved exactly if no character holds any, or the backfill moves it as often as
the deletion removes it. -/
theorem gold_conserved_iff (runs : List (List (Fate Int))) :
    (∀ character, (migration.run d (Language.attempts currencyWallet runs)).val.goldOf character =
        d.val.goldOf character) ↔
      (∀ character, d.val.held (some character) = 0) ∨
        migration.occurrences backfills d (Language.attempts currencyWallet runs) =
          migration.occurrences deletes d (Language.attempts currencyWallet runs) := by
  have hgold : ∀ character,
      (migration.run d (Language.attempts currencyWallet runs)).val.goldOf character =
          d.val.goldOf character ↔
        d.val.held (some character) = 0 ∨
          migration.occurrences backfills d (Language.attempts currencyWallet runs) =
            migration.occurrences deletes d (Language.attempts currencyWallet runs) := by
    intro character
    unfold Tables.goldOf
    rw [balance_run, (held_run d _ _).2]
    generalize migration.occurrences backfills d (Language.attempts currencyWallet runs) = b
    generalize migration.occurrences deletes d (Language.attempts currencyWallet runs) = n
    have hdiff : ((b : Int) - n) * d.val.held (some character) = 0 ↔
        d.val.held (some character) = 0 ∨ b = n := by
      rw [Int.mul_eq_zero, or_comm]
      exact or_congr_right (by omega)
    rw [← hdiff, Int.sub_mul]
    omega
  constructor
  · intro hall
    by_cases heq : migration.occurrences backfills d (Language.attempts currencyWallet runs) =
        migration.occurrences deletes d (Language.attempts currencyWallet runs)
    · exact Or.inr heq
    · exact Or.inl fun character => ((hgold character).mp (hall character)).resolve_right heq
  · rintro (hnone | heq) character
    · exact (hgold character).mpr (Or.inl (hnone character))
    · exact (hgold character).mpr (Or.inr heq)

/-- A character has ten gold coins, five more lie on the ground. -/
def coinsOnTheGround : migration.Content where
  val :=
    { characters := [7]
      items := [⟨16, goldCoin, 1⟩]
      currencies := [⟨1, gold⟩]
      playerInventory := [⟨1, some 7, 16, 10, none, none⟩, ⟨2, none, 16, 5, none, none⟩] }
  property := by decide

/-- A character has ten gold coins. -/
def coinsInTheBag : migration.Content where
  val :=
    { characters := [7]
      items := [⟨16, goldCoin, 1⟩]
      currencies := [⟨1, gold⟩]
      playerInventory := [⟨1, some 7, 16, 10, none, none⟩] }
  property := by decide

/-- The backfill is refused and the coins are deleted. And a run that stops after the backfill
doubles the gold for the run after it. -/
theorem gold_lost_and_doubled :
    (coinsOnTheGround.val.goldOf 7 = 10 ∧
      (migration.run coinsOnTheGround
        (Language.attempts currencyWallet [List.replicate 15 (.executed 2)])).val.goldOf 7 = 0) ∧
    coinsInTheBag.val.goldOf 7 = 10 ∧
    (migration.run coinsInTheBag
      (Language.attempts currencyWallet
        [List.replicate 7 (.executed 2), List.replicate 15 (.executed 3)])).val.goldOf 7 = 20 := by
  decide +kernel

end Migrations

end LoginServer
