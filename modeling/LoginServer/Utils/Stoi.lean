import LoginServer.Utils.Bytes

/-!
# `std::stoi`

Leading blanks, an optional sign, the longest run of decimal digits: no digit is
`std::invalid_argument`, a value outside a 32-bit `int` is `std::out_of_range`. What
follows the digits is not looked at.
-/

namespace LoginServer

/-- `isspace` of the C locale. -/
def isSpace (c : UInt8) : Bool := c = 32 || (9 ≤ c && c ≤ 13)

def isDigit (c : UInt8) : Bool := 48 ≤ c && c ≤ 57

/-- The number that a run of digits denotes. -/
def digitsValue (digits : Bytes) : Nat :=
  digits.foldl (fun n c => 10 * n + (c.toNat - 48)) 0

/-- `std::stoi(s)`; `none` is either exception. -/
def stoi (s : Bytes) : Option Int :=
  let s := s.dropWhile isSpace
  let negative := s.head? = some 45
  let s := if s.head? = some 45 ∨ s.head? = some 43 then s.tail else s
  let digits := s.takeWhile isDigit
  let value : Int := if negative then -(digitsValue digits : Int) else digitsValue digits
  if digits.isEmpty then none
  else if value < -2 ^ 31 ∨ 2 ^ 31 ≤ value then none
  else some value

example : stoi (str " -42x") = some (-42) := by decide

example : stoi (str "2147483648") = none := by decide

/-- The values of a 32-bit `int`. -/
def IsInt32 (n : Int) : Prop := -2 ^ 31 ≤ n ∧ n < 2 ^ 31

instance (n : Int) : Decidable (IsInt32 n) := inferInstanceAs (Decidable (_ ∧ _))

theorem bmod_eq_self_iff {n : Int} : n.bmod (2 ^ 32) = n ↔ IsInt32 n := by
  rw [Int.bmod_def]
  unfold IsInt32
  split <;> omega

theorem isInt32_bmod (n : Int) : IsInt32 (n.bmod (2 ^ 32)) := by
  rw [Int.bmod_def]
  unfold IsInt32
  split <;> omega

theorem isInt32_of_stoi {s : Bytes} {n : Int} (h : stoi s = some n) : IsInt32 n := by
  unfold stoi at h
  dsimp only at h
  split_ifs at h <;> cases h <;> constructor <;> omega

end LoginServer
