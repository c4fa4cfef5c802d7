/-
# TreeIR.Proofs.DecimalText -- a written decimal says which decimal it is

The digits in front of the point are a whole number, the digits behind it a number below a power
of ten, padded to as many digits as there are places.  So the text shows the number of places, and
digits before and behind read back to the two parts of the significand (`digits_injective`).

`value` is the number that a decimal stands for.  Trimming zeros off does not change it, so the
decimal made for a multiple of a power of ten has the value of this multiple (`value_multiple`).
-/
import Mathlib
import TreeIR.Decimal

namespace TreeIR

set_option autoImplicit false

-- Powers of naturals are the core library's, whatever else is in scope.
attribute [local instance (2000)] instPowNat

namespace Decimal

variable {d e : Decimal} {width n : Nat}

/-! ## Digits -/

theorem length_padded (positive : 0 < width) (fits : n < 10 ^ width) :
    (padded width n).length = width := by
  have short : (Nat.toDigits 10 n).length ≤ width :=
    (Nat.length_toDigits_le_iff (by decide) positive).2 fits
  rw [padded, List.length_append, List.length_replicate, Nat.sub_add_cancel short]

/-- Zeros in front do not count. -/
theorem ofDigitChars_padded (width n : Nat) : Nat.ofDigitChars 10 (padded width n) 0 = n := by
  rw [padded, Nat.ofDigitChars_append, Nat.ofDigitChars_replicate_zero, Nat.mul_zero,
    Nat.ofDigitChars_ten_toDigits]

/-- The digits behind the point, with the point. -/
def fraction (d : Decimal) : List Char :=
  if d.places = 0 then [] else '.' :: padded d.places (d.significand % 10 ^ d.places)

theorem digits_eq (d : Decimal) :
    d.digits = Nat.toDigits 10 (d.significand / 10 ^ d.places) ++ d.fraction := by
  unfold digits fraction
  split
  · simp
  · rfl

/-- The first character is a digit. -/
theorem exists_digits_eq_cons (d : Decimal) :
    ∃ c rest, d.digits = c :: rest ∧ c.isDigit = true := by
  obtain ⟨c, rest, whole⟩ : ∃ c rest, Nat.toDigits 10 (d.significand / 10 ^ d.places) = c :: rest :=
    List.exists_cons_of_ne_nil Nat.toDigits_ne_nil
  have digit : c ∈ Nat.toDigits 10 (d.significand / 10 ^ d.places) := whole ▸ List.mem_cons_self
  refine ⟨c, rest ++ d.fraction, ?_, Nat.isDigit_of_mem_toDigits (by decide) (by decide) digit⟩
  rw [digits_eq, whole, List.cons_append]

/-- The whole number ends where the digits end. -/
theorem cut_digits (d : Decimal) :
    d.digits.takeWhile Char.isDigit = Nat.toDigits 10 (d.significand / 10 ^ d.places) ∧
    d.digits.dropWhile Char.isDigit = d.fraction := by
  have whole (c : Char) (inWhole : c ∈ Nat.toDigits 10 (d.significand / 10 ^ d.places)) :
      c.isDigit = true := Nat.isDigit_of_mem_toDigits (by decide) (by decide) inWhole
  have point : d.fraction.takeWhile Char.isDigit = [] ∧
      d.fraction.dropWhile Char.isDigit = d.fraction := by
    unfold fraction
    split <;> simp
  rw [digits_eq, List.takeWhile_append_of_pos whole, List.dropWhile_append_of_pos whole, point.1,
    point.2, List.append_nil]
  exact ⟨rfl, rfl⟩

/-- The fraction shows how many places there are, and what is in them. -/
theorem parts_eq_of_fraction (same : d.fraction = e.fraction) :
    d.places = e.places ∧
    d.significand % 10 ^ d.places = e.significand % 10 ^ e.places := by
  have bound (d : Decimal) : d.significand % 10 ^ d.places < 10 ^ d.places :=
    Nat.mod_lt _ (Nat.pow_pos (by decide))
  unfold fraction at same
  split at same <;> split at same
  case isTrue.isTrue first second => simp [first, second, Nat.mod_one]
  case isFalse.isFalse first second =>
    have padding := List.tail_eq_of_cons_eq same
    have places := congrArg List.length padding
    rw [length_padded (Nat.pos_of_ne_zero first) (bound d),
      length_padded (Nat.pos_of_ne_zero second) (bound e)] at places
    have numbers := congrArg (Nat.ofDigitChars 10 · 0) padding
    simp only [ofDigitChars_padded] at numbers
    exact ⟨places, numbers⟩
  all_goals cases same

theorem digits_injective : Function.Injective digits := by
  intro d e same
  obtain ⟨wholeOf, fractionOf⟩ := d.cut_digits
  rw [same, e.cut_digits.1] at wholeOf
  rw [same, e.cut_digits.2] at fractionOf
  obtain ⟨places, remainders⟩ := parts_eq_of_fraction fractionOf.symm
  have wholes := congrArg (Nat.ofDigitChars 10 · 0) wholeOf
  simp only [Nat.ofDigitChars_ten_toDigits] at wholes
  have significands : d.significand = e.significand :=
    calc d.significand
        = 10 ^ d.places * (d.significand / 10 ^ d.places) + d.significand % 10 ^ d.places :=
          (Nat.div_add_mod _ _).symm
      _ = 10 ^ e.places * (e.significand / 10 ^ e.places) + e.significand % 10 ^ e.places := by
          rw [← wholes, remainders, places]
      _ = e.significand := Nat.div_add_mod _ _
  exact congrArg₂ mk significands places

/-! ## Values -/

/-- The number that a decimal stands for. -/
def value (d : Decimal) : ℚ := d.significand / 10 ^ d.places

theorem value_trim (significand places : Nat) :
    (trim significand places).value = significand / 10 ^ places := by
  have crosswise := congrArg (Nat.cast (R := ℚ)) (trim_significand significand places)
  push_cast at crosswise
  rw [value, div_eq_div_iff (by positivity) (by positivity), crosswise]

theorem value_multiple (count : Nat) (step : ℤ) :
    (multiple count step).value = count * 10 ^ step := by
  rw [multiple, value_trim]
  obtain ⟨n, rfl | rfl⟩ := step.eq_nat_or_neg
  · simp
  · simp [div_eq_mul_inv]

end Decimal

end TreeIR
