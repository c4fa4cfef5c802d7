/-
# TreeIR.Decimal -- decimals written out in full

A `Decimal` is a count of some negative power of ten: `significand / 10 ^ places`.
Its text is positional, never with an exponent, and shows exactly `places` digits
after the point.  `trim` takes the places that only hold zeros away first, so a whole
number is written without a point.

Nothing here rounds; `TreeIR.Magnitude` chooses the decimal.
-/

namespace TreeIR

set_option autoImplicit false

-- Powers of naturals are the core library's, whatever else is in scope.
attribute [local instance (2000)] instPowNat

/-- The number `significand / 10 ^ places`. -/
structure Decimal where
  significand : Nat
  places : Nat
  deriving DecidableEq, Repr

namespace Decimal

/-- Drops trailing zeros after the point, and the point with the last of them. -/
def trim : Nat → Nat → Decimal
  | significand, 0 => ⟨significand, 0⟩
  | significand, places + 1 =>
      if significand % 10 = 0 then trim (significand / 10) places
      else ⟨significand, places + 1⟩

/-- The multiple `count * 10 ^ step`, trimmed. -/
def multiple (count : Nat) (step : Int) : Decimal :=
  trim (count * 10 ^ step.toNat) (-step).toNat

/-- The digits of `n`, with zeros in front up to `width`. -/
def padded (width n : Nat) : List Char :=
  let digits := Nat.toDigits 10 n
  List.replicate (width - digits.length) '0' ++ digits

/-- All digits in their places, a point before the fraction if there is one. -/
def digits (d : Decimal) : List Char :=
  let scale := 10 ^ d.places
  let whole := Nat.toDigits 10 (d.significand / scale)
  if d.places = 0 then whole
  else whole ++ '.' :: padded d.places (d.significand % scale)

def text (d : Decimal) : String :=
  String.ofList d.digits

/-- Trimming keeps the number: crosswise, both stand for the same quotient. -/
theorem trim_significand (significand places : Nat) :
    (trim significand places).significand * 10 ^ places =
      significand * 10 ^ (trim significand places).places := by
  fun_induction trim significand places with
  | case1 => rfl
  | case2 significand places h ih =>
    have whole : significand / 10 * 10 = significand :=
      Nat.div_mul_cancel (Nat.dvd_of_mod_eq_zero h)
    calc (trim (significand / 10) places).significand * 10 ^ (places + 1)
        = (trim (significand / 10) places).significand * 10 ^ places * 10 := by
          rw [Nat.pow_succ, Nat.mul_assoc]
      _ = significand / 10 * 10 ^ (trim (significand / 10) places).places * 10 := by rw [ih]
      _ = significand / 10 * 10 * 10 ^ (trim (significand / 10) places).places := by
          rw [Nat.mul_right_comm]
      _ = _ := by rw [whole]
  | case3 => rfl

end Decimal

end TreeIR
