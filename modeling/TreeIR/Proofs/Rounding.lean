/-
# TreeIR.Proofs.Rounding -- what is printed rounds to what is meant

A magnitude stands for the numbers that round to it, from `lower` to `upper`, with the two ends if
its mantissa is even (`Rounds`).  The end of one interval is the start of the next, in the same unit
or across a change of it.

The search for the shortest decimal compares naturals only; brought
to one denominator these comparisons say whether a multiple of a power of ten is in that interval
(`holds_iff`).  So whatever decimal comes out of the search rounds to the magnitude, and where the
search gives up the magnitude itself does (`rounds_shortest`).
-/
import TreeIR.Magnitude
import TreeIR.Proofs.DecimalText

namespace TreeIR

set_option autoImplicit false

-- Powers of naturals are the core library's, whatever else is in scope.
attribute [local instance (2000)] instPowNat

namespace Magnitude

variable {x : Magnitude} {v : ℚ}

/-! ## The interval -/

/-- A quarter of the magnitude's own unit. -/
def quarter (x : Magnitude) : ℚ := 2 ^ (x.exponent - 2)

/-- The lower end of the rounding interval. -/
def lower (x : Magnitude) : ℚ := x.low * x.quarter

/-- The upper end of the rounding interval. -/
def upper (x : Magnitude) : ℚ := x.high * x.quarter

/-- The number rounds to the magnitude, to even where two are equally near. -/
def Rounds (x : Magnitude) (v : ℚ) : Prop :=
  x.lower ≤ v ∧ v ≤ x.upper ∧ (v = x.lower ∨ v = x.upper → x.closed = true)

theorem quarter_pos (x : Magnitude) : 0 < x.quarter := zpow_pos (by norm_num) _

theorem lower_lt_upper (x : Magnitude) : x.lower < x.upper := by
  have ends : x.low < x.high := by
    unfold low high
    omega
  exact mul_lt_mul_of_pos_right (by exact_mod_cast ends) x.quarter_pos

/-! ## Neighbours -/

/-- With the same unit, the interval of the next mantissa begins where this one ends. -/
theorem upper_eq_lower_of_next {y : Magnitude} (unit : y.exponent = x.exponent)
    (next : y.mantissa = x.mantissa + 1) (even : y.fineBelow = false) : x.upper = y.lower := by
  have ends : y.low = x.high := by
    simp only [low, high, middle, next, even, Bool.false_eq_true, if_false]
    omega
  rw [upper, lower, quarter, quarter, unit, ends]

/-- Where the unit doubles, the mantissa halves. -/
theorem upper_eq_lower_of_doubled {y : Magnitude} (unit : y.exponent = x.exponent + 1)
    (next : 2 * y.mantissa = x.mantissa + 1) (fine : y.fineBelow = true) :
    x.upper = y.lower := by
  have ends : 2 * y.low = x.high := by
    simp only [low, high, middle, fine, if_true]
    omega
  have quarters : y.quarter = 2 * x.quarter := by
    rw [quarter, quarter, unit, add_sub_right_comm, zpow_add_one₀ (by norm_num), mul_comm]
  rw [upper, lower, quarters, ← ends]
  push_cast
  ring

/-! ## One denominator -/

/-- The positive part of an exponent, in terms of the negative one. -/
theorem zpow_mul_pow_toNat {b : ℚ} (nonzero : b ≠ 0) (k : ℤ) :
    b ^ k * b ^ (-k).toNat = b ^ k.toNat := by
  rw [← zpow_natCast, ← zpow_natCast, ← zpow_add₀ nonzero]
  congr 1
  omega

/-- What both scales are multiplied by. -/
def denominator (x : Magnitude) (step : ℤ) : ℚ := 2 ^ (2 - x.exponent).toNat * 10 ^ (-step).toNat

theorem denominator_pos (x : Magnitude) (step : ℤ) : 0 < x.denominator step := by
  unfold denominator
  positivity

theorem cast_decimalScale (x : Magnitude) (step : ℤ) :
    (x.decimalScale step : ℚ) = 10 ^ step * x.denominator step := by
  have tens := zpow_mul_pow_toNat (b := 10) (by norm_num) step
  unfold decimalScale denominator
  push_cast
  rw [← tens]
  ring

theorem cast_binaryScale (x : Magnitude) (step : ℤ) :
    (x.binaryScale step : ℚ) = x.quarter * x.denominator step := by
  have twos := zpow_mul_pow_toNat (b := 2) (by norm_num) (x.exponent - 2)
  rw [neg_sub] at twos
  unfold binaryScale quarter denominator
  push_cast
  rw [← twos]
  ring

/-- Multiplied by the denominator, a count of quarters and a point of the grid are naturals. -/
theorem scaled_le_iff (x : Magnitude) (step : ℤ) (count quarters : Nat) :
    (quarters * x.binaryScale step ≤ count * x.decimalScale step ↔
      (quarters * x.quarter : ℚ) ≤ count * 10 ^ step) ∧
    (count * x.decimalScale step ≤ quarters * x.binaryScale step ↔
      (count * 10 ^ step : ℚ) ≤ quarters * x.quarter) := by
  have positive := x.denominator_pos step
  rw [← Nat.cast_le (α := ℚ), ← Nat.cast_le (α := ℚ), Nat.cast_mul, Nat.cast_mul,
    cast_binaryScale, cast_decimalScale, ← mul_assoc, ← mul_assoc,
    mul_le_mul_iff_of_pos_right positive, mul_le_mul_iff_of_pos_right positive]
  exact ⟨Iff.rfl, Iff.rfl⟩

/-- The comparisons of the search say whether a point of the grid rounds to the magnitude. -/
theorem holds_iff {step : ℤ} {count : Nat} :
    x.holds step count = true ↔ x.Rounds (count * 10 ^ step) := by
  obtain ⟨lowLe, leLow⟩ := x.scaled_le_iff step count x.low
  obtain ⟨highLe, leHigh⟩ := x.scaled_le_iff step count x.high
  unfold holds Rounds lower upper
  by_cases even : x.closed = true
  · simp [even, lowLe, leHigh]
  · simp only [even, Bool.false_eq_true, if_false, Bool.and_eq_true, decide_eq_true_eq]
    rw [← not_le, ← not_le, leLow, highLe, not_le, not_le]
    constructor
    · rintro ⟨above, below⟩
      exact ⟨above.le, below.le, fun ends => ends.elim above.ne' below.ne⟩
    · rintro ⟨above, below, inner⟩
      exact ⟨above.lt_of_ne fun same => inner (.inl same.symm),
        below.lt_of_ne fun same => inner (.inr same)⟩

/-! ## The decimal that is found -/

/-- The number itself. -/
def value (x : Magnitude) : ℚ := x.mantissa * 2 ^ x.exponent

theorem value_exact (x : Magnitude) : x.exact.value = x.value := by
  rw [exact, Decimal.value_trim, value]
  obtain ⟨n, whole | fractional⟩ := x.exponent.eq_nat_or_neg
  · simp [whole]
  · have fives : (5 : ℚ) ^ n * 2 ^ n = 10 ^ n := by rw [← mul_pow]; norm_num
    rw [fractional, neg_neg, Int.toNat_natCast, Int.toNat_neg_natCast, zpow_neg, zpow_natCast]
    push_cast
    field_simp
    linear_combination (x.mantissa : ℚ) * fives

theorem value_eq (x : Magnitude) : x.value = x.middle * x.quarter := by
  have unit : (2 : ℚ) ^ x.exponent = 4 * 2 ^ (x.exponent - 2) := by
    rw [zpow_sub₀ (by norm_num)]
    norm_num
    ring
  rw [value, unit, middle, quarter]
  push_cast
  ring

/-- A magnitude rounds to itself.  It is an end of its interval only if it is zero. -/
theorem rounds_value (x : Magnitude) : x.Rounds x.value := by
  have positive := x.quarter_pos
  have inside : x.low ≤ x.middle ∧ x.middle ≤ x.high := by
    unfold low high
    omega
  rw [value_eq]
  refine ⟨?_, ?_, ?_⟩
  · exact mul_le_mul_of_nonneg_right (by exact_mod_cast inside.1) positive.le
  · exact mul_le_mul_of_nonneg_right (by exact_mod_cast inside.2) positive.le
  · intro ends
    have counts : x.middle = x.low ∨ x.middle = x.high := by
      simpa [lower, upper, positive.ne'] using ends
    have zero : x.mantissa = 0 := by
      unfold low high middle at counts
      split at counts <;> omega
    simp [closed, zero]

/-- Whatever comes out of the search rounds to the magnitude. -/
theorem rounds_shortest (x : Magnitude) : x.Rounds x.shortest.value := by
  unfold shortest
  dsimp only
  cases search : (List.range maxDigits).findSome? _ with
  | none =>
    rw [Option.getD_none, value_exact]
    exact x.rounds_value
  | some d =>
    obtain ⟨extra, -, finds⟩ := List.exists_of_findSome?_eq_some search
    obtain ⟨count, onGrid, rfl⟩ := Option.map_eq_some_iff.1 finds
    rw [Option.getD_some, Decimal.value_multiple]
    exact holds_iff.1 (holds_of_onGrid? onGrid)

end Magnitude

end TreeIR
