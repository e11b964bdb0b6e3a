import Mathlib.Algebra.Group.Int.Defs
import Mathlib.Algebra.Group.Nat.Defs
import Mathlib.Data.List.Basic

/-!
# Byte strings

A `std::string` of the server is a sequence of bytes, also where it holds text: its
`size()` counts bytes, and the strings that come from the wire are compared byte by
byte. `str` gives the bytes of a literal.
-/

namespace LoginServer

/-- `std::string`. -/
abbrev Bytes := List UInt8

/-- The bytes of a string literal of the source. -/
def str (s : String) : Bytes := s.toUTF8.data.toList

theorem str_injective : Function.Injective str := by
  intro s t h
  apply String.toByteArray_inj.mp
  change s.toUTF8 = t.toUTF8
  cases hs : s.toUTF8
  cases ht : t.toUTF8
  simp only [str, hs, ht] at h
  rw [Array.toList_inj.mp h]

@[simp] theorem str_inj {s t : String} : str s = str t ↔ s = t := str_injective.eq_iff

/-- A text of 36 characters without a NUL, as `boost::uuids::to_string` gives. -/
abbrev IsUuidText (s : Bytes) : Prop := s.length = 36 ∧ 0 ∉ s

/-- The socket object of a connection, named by its address. -/
abbrev Socket := Nat

end LoginServer
