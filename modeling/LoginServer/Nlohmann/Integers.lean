import LoginServer.Nlohmann.Numbers
import LoginServer.Nlohmann.Serializer
import LoginServer.Utils.Numeral

/-!
# The serializer writes integers in decimal

`dump_integer` counts the digits first and then fills its buffer backwards, two digits at a
time. What it takes out of the buffer is the decimal text (`dump_integer_eq`), so what the
buffer held before does not matter, and the lexer reads that text back
(`lexeme_to_string`).
-/

namespace LoginServer.Nlohmann

/-! ## Counting -/

theorem decimal_of_lt {n : Nat} (h : n < 10) : decimal n = [.ofNat (48 + n)] := by
  rw [decimal, if_pos h]

theorem decimal_of_ge {n : Nat} (h : 10 ≤ n) :
    decimal n = decimal (n / 10) ++ [.ofNat (48 + n % 10)] := by
  rw [decimal, if_neg (Nat.not_lt.mpr h)]

theorem length_decimal_of_ge {n : Nat} (h : 10 ≤ n) :
    (decimal n).length = (decimal (n / 10)).length + 1 := by
  rw [decimal_of_ge h, List.length_append, List.length_singleton]

theorem count_digits_eq (x n_digits : Nat) :
    count_digits x n_digits + 1 = n_digits + (decimal x).length := by
  induction x using Nat.strong_induction_on generalizing n_digits with
  | _ x ih =>
    rw [count_digits]
    split_ifs with h1 h2 h3 h4
    · rw [decimal_of_lt h1, List.length_singleton]
    · rw [length_decimal_of_ge (by omega), decimal_of_lt (by omega), List.length_singleton]
    · rw [length_decimal_of_ge (by omega), length_decimal_of_ge (by omega),
        decimal_of_lt (by omega), List.length_singleton]
    · rw [length_decimal_of_ge (by omega), length_decimal_of_ge (by omega),
        length_decimal_of_ge (by omega), decimal_of_lt (by omega), List.length_singleton]
    · have hlength : (decimal x).length = (decimal (x / 10000)).length + 4 := by
        rw [length_decimal_of_ge (by omega), length_decimal_of_ge (by omega),
          length_decimal_of_ge (by omega), length_decimal_of_ge (by omega), Nat.div_div_eq_div_mul,
          Nat.div_div_eq_div_mul, Nat.div_div_eq_div_mul]
      rw [ih (x / 10000) (by omega), hlength]
      omega

theorem length_decimal_le {n k : Nat} (h : n < 10 ^ (k + 1)) : (decimal n).length ≤ k + 1 := by
  induction k generalizing n with
  | zero =>
    rw [decimal_of_lt (by omega), List.length_singleton]
  | succ k ih =>
    by_cases hsmall : n < 10
    · rw [decimal_of_lt hsmall, List.length_singleton]
      omega
    · rw [length_decimal_of_ge (by omega)]
      have := ih (n := n / 10) (by rw [Nat.pow_succ] at h; omega)
      omega

/-! ## Filling the buffer -/

theorem set_length (before after : Bytes) (x d : UInt8) :
    (before ++ x :: after).set before.length d = before ++ d :: after := by
  rw [List.set_append_right _ _ (Nat.le_refl _), Nat.sub_self, List.set_cons_zero]

theorem set_pair (before after : Bytes) (x y d d' : UInt8) :
    ((before ++ x :: y :: after).set (before.length + 1) d').set before.length d =
      before ++ d :: d' :: after := by
  have hlast : (before ++ x :: y :: after).set (before.length + 1) d' =
      before ++ x :: d' :: after := by
    rw [List.set_append_right _ _ (Nat.le_add_right _ 1), Nat.add_sub_cancel_left]
    rfl
  rw [hlast, set_length]

theorem exists_pair {digits : Bytes} {n : Nat} (h : digits.length = n + 2) :
    ∃ more x y, digits = more ++ [x, y] ∧ more.length = n := by
  have hdrop : (digits.drop n).length = 2 := by
    rw [List.length_drop]
    omega
  obtain ⟨x, y, hpair⟩ := List.length_eq_two.mp hdrop
  refine ⟨digits.take n, x, y, ?_, ?_⟩
  · rw [← hpair, List.take_append_drop]
  · rw [List.length_take]
    omega

theorem decimal_pair {n : Nat} (h : 10 ≤ n) (h' : n < 100) :
    decimal n = [(digits_to_99 n).1, (digits_to_99 n).2] := by
  rw [decimal_of_ge h, decimal_of_lt (by omega)]
  rfl

theorem decimal_append_pair {n : Nat} (h : 100 ≤ n) :
    decimal n =
      decimal (n / 100) ++ [(digits_to_99 (n % 100)).1, (digits_to_99 (n % 100)).2] := by
  have htens : n / 10 % 10 = n % 100 / 10 := by omega
  have hones : n % 10 = n % 100 % 10 := by omega
  rw [decimal_of_ge (by omega), decimal_of_ge (show 10 ≤ n / 10 by omega), Nat.div_div_eq_div_mul,
    htens, hones, List.append_assoc]
  rfl

/-- The digits replace as many bytes before the pointer. -/
theorem fillDigits_eq (abs_value : Nat) (before digits after : Bytes)
    (hdigits : digits.length = (decimal abs_value).length) :
    fillDigits (before ++ (digits ++ after)) (before.length + digits.length) abs_value =
      before ++ (decimal abs_value ++ after) := by
  induction abs_value using Nat.strong_induction_on generalizing digits after with
  | _ abs_value ih =>
    rw [fillDigits]
    split_ifs with hhundred hten
    · rw [decimal_append_pair hhundred, List.length_append] at hdigits
      obtain ⟨more, x, y, rfl, hmore⟩ := exists_pair hdigits
      have hpair := set_pair (before ++ more) after x y (digits_to_99 (abs_value % 100)).1
        (digits_to_99 (abs_value % 100)).2
      simp only [List.append_assoc, List.length_append, List.length_cons, List.length_nil,
        List.cons_append, List.nil_append] at hpair ⊢
      rw [show before.length + (more.length + (0 + 1 + 1)) - 1 = before.length + more.length + 1
        by omega, show before.length + (more.length + (0 + 1 + 1)) - 2 =
        before.length + more.length by omega, hpair, ih (abs_value / 100) (by omega) more _ hmore,
        decimal_append_pair hhundred, List.append_assoc]
      rfl
    · rw [decimal_pair hten (by omega)] at hdigits ⊢
      obtain ⟨x, y, rfl⟩ := List.length_eq_two.mp hdigits
      exact set_pair before after x y _ _
    · rw [decimal_of_lt (by omega)] at hdigits ⊢
      obtain ⟨x, rfl⟩ := List.length_eq_one_iff.mp hdigits
      exact set_length before after x _

/-- With the digits at the end of the buffer's used part. -/
theorem fillDigits_take (abs_value : Nat) (before : Bytes) {rest : Bytes}
    (h : (decimal abs_value).length ≤ rest.length) :
    (fillDigits (before ++ rest) (before.length + (decimal abs_value).length) abs_value).take
      (before.length + (decimal abs_value).length) = before ++ decimal abs_value := by
  have hlength : (rest.take (decimal abs_value).length).length = (decimal abs_value).length := by
    rw [List.length_take]
    omega
  have hfill := fillDigits_eq abs_value before (rest.take (decimal abs_value).length)
    (rest.drop (decimal abs_value).length) hlength
  rw [List.take_append_drop, hlength] at hfill
  rw [hfill, ← List.append_assoc, List.take_left' (by rw [List.length_append])]

/-- Whatever the number before has left in the buffer. -/
theorem dump_integer_eq {number_buffer : Bytes} {x : Int} (hbuffer : number_buffer.length = 64)
    (hx : -2 ^ 63 ≤ x ∧ x < 2 ^ 64) : dump_integer number_buffer x = to_string x := by
  have hdigits : (decimal x.natAbs).length ≤ 20 := length_decimal_le (k := 19) (by omega)
  have hcount : count_digits x.natAbs 1 = (decimal x.natAbs).length := by
    have := count_digits_eq x.natAbs 1
    omega
  unfold dump_integer to_string
  by_cases hzero : x = 0
  · subst hzero
    rw [if_pos rfl, Int.natAbs_zero, decimal_of_lt (by decide)]
    rfl
  · rw [if_neg hzero]
    by_cases hneg : x < 0
    · have habs : remove_sign x = x.natAbs := by
        unfold remove_sign
        omega
      obtain ⟨b, rest, rfl⟩ :=
        List.exists_cons_of_length_pos (show 0 < number_buffer.length by omega)
      rw [List.length_cons] at hbuffer
      rw [if_pos hneg, if_pos hneg]
      dsimp only
      rw [habs, List.set_cons_zero, hcount]
      exact fillDigits_take x.natAbs [0x2D] (by omega)
    · rw [if_neg hneg, if_neg hneg]
      dsimp only
      rw [show x.toNat = x.natAbs by omega, hcount]
      have hroom : (decimal x.natAbs).length ≤ number_buffer.length := by omega
      have htake := fillDigits_take x.natAbs [] hroom
      rw [List.length_nil, Nat.zero_add] at htake
      exact htake

/-! ## Reading back -/

theorem head_decimal {n : Nat} (h : 0 < n) : (decimal n).head? ≠ some 0x30 := by
  induction n using Nat.strong_induction_on with
  | _ n ih =>
    by_cases hsmall : n < 10
    · rw [decimal_of_lt hsmall]
      intro heq
      have hvalue := congrArg UInt8.toNat (Option.some.inj heq)
      rw [toNat_digit hsmall] at hvalue
      exact absurd hvalue (by simp; omega)
    · have hrest := ih (n / 10) (by omega) (by omega)
      rw [decimal_of_ge (by omega), List.head?_append_of_ne_nil _ (decimal_ne_nil _)]
      exact hrest

theorem integer_decimal (n : Nat) : Integer (decimal n) := by
  refine ⟨⟨decimal_ne_nil n, isDigit_of_mem_decimal⟩, fun hhead => ?_⟩
  rcases Nat.eq_zero_or_pos n with rfl | hpos
  · exact decimal_of_lt (by decide)
  · exact absurd hhead (head_decimal hpos)

theorem lexeme_to_string (strtod : Bytes → UInt64) {x : Int} (hx : -2 ^ 63 ≤ x ∧ x < 2 ^ 64) :
    ∃ token, Lexeme strtod token (to_string x) ∧ Value [token] (.number x) := by
  have hvalue := digitsValue_decimal x.natAbs
  by_cases hneg : x < 0
  · have hlexeme : Lexeme strtod _ _ :=
      .value_integer (integer_decimal x.natAbs) (by rw [hvalue]; omega)
    rw [hvalue, show (-(x.natAbs : Int)) = x by omega] at hlexeme
    refine ⟨.value_integer x, ?_, .value_integer x⟩
    rw [to_string, if_pos hneg]
    exact hlexeme
  · have hlexeme : Lexeme strtod _ _ :=
      .value_unsigned (integer_decimal x.natAbs) (by rw [hvalue]; omega)
    rw [hvalue] at hlexeme
    refine ⟨.value_unsigned x.natAbs, ?_, ?_⟩
    · rw [to_string, if_neg hneg]
      exact hlexeme
    · have hnumber := Value.value_unsigned x.natAbs
      rwa [show (x.natAbs : Int) = x by omega] at hnumber

end LoginServer.Nlohmann
