/-
# TreeIR.Proofs.FloatText -- a printed float is the word it was printed from

Without their signs the finite words of a format are counted upwards, and so are the numbers that
they stand for: where the interval of one ends the interval of the next begins
(`upper_ofNat`), also where the unit doubles.  The end between two belongs to the one of them that
is even (`closed_ofNat`).  So no number rounds to two of them (`rounds_unique`).

The text of a finite word is a sign and a decimal that rounds to its magnitude.  The decimal can be
read off the text, hence the magnitude, hence the word.  Infinities and NaNs have texts that start
with a letter, and NaNs are the only words that share one (`text_eq_iff`).
-/
import TreeIR.FloatFormat
import TreeIR.Proofs.Rounding

namespace TreeIR

set_option autoImplicit false

-- Powers of naturals are the core library's, whatever else is in scope.
attribute [local instance (2000)] instPowNat

namespace FloatFormat

variable {format : FloatFormat} {word other n m : Nat} {v : ℚ}

/-! ## Words in ascending order -/

/-- The magnitude of the word with this number and no sign. -/
def ofNat (format : FloatFormat) (n : Nat) : Magnitude :=
  format.magnitude (n / 2 ^ format.fractionBits) (n % 2 ^ format.fractionBits)

theorem ofNat_of_parts {exponent fraction : Nat} (within : fraction < 2 ^ format.fractionBits) :
    format.ofNat (2 ^ format.fractionBits * exponent + fraction) =
      format.magnitude exponent fraction := by
  rw [ofNat, Nat.mul_add_div (Nat.pow_pos (by decide)), Nat.mul_add_mod,
    Nat.div_eq_of_lt within, Nat.mod_eq_of_lt within, Nat.add_zero]

theorem exists_parts (format : FloatFormat) (n : Nat) :
    ∃ exponent fraction, fraction < 2 ^ format.fractionBits ∧
      n = 2 ^ format.fractionBits * exponent + fraction :=
  ⟨_, _, Nat.mod_lt n (Nat.pow_pos (by decide)), (Nat.div_add_mod n _).symm⟩

/-- Inside a row of words with one exponent the mantissa is counted up. -/
theorem upper_magnitude_of_inside (format : FloatFormat) (exponent fraction : Nat) :
    (format.magnitude exponent fraction).upper =
      (format.magnitude exponent (fraction + 1)).lower := by
  apply Magnitude.upper_eq_lower_of_next
  all_goals
    unfold magnitude
    split <;> simp [Nat.add_assoc]

/-- The last word of a row is followed by the first of the next.  Only between the first two rows
the unit is the same. -/
theorem upper_magnitude_of_last {exponent fraction : Nat}
    (last : fraction + 1 = 2 ^ format.fractionBits) :
    (format.magnitude exponent fraction).upper = (format.magnitude (exponent + 1) 0).lower := by
  cases exponent with
  | zero => apply Magnitude.upper_eq_lower_of_next <;> simp [magnitude, last]
  | succ exponent =>
    apply Magnitude.upper_eq_lower_of_doubled
    · simp [magnitude, Int.add_assoc]
    · simp only [magnitude, Nat.succ_ne_zero, if_false]
      omega
    · simp [magnitude]

/-- Where one interval ends the next begins. -/
theorem upper_ofNat (format : FloatFormat) (n : Nat) :
    (format.ofNat n).upper = (format.ofNat (n + 1)).lower := by
  obtain ⟨exponent, fraction, within, rfl⟩ := format.exists_parts n
  rw [ofNat_of_parts within]
  by_cases last : fraction + 1 = 2 ^ format.fractionBits
  · have next : 2 ^ format.fractionBits * exponent + fraction + 1 =
        2 ^ format.fractionBits * (exponent + 1) + 0 := by
      rw [Nat.mul_succ]
      omega
    rw [next, ofNat_of_parts (Nat.pow_pos (by decide)), upper_magnitude_of_last last]
  · rw [Nat.add_assoc, ofNat_of_parts (by omega), upper_magnitude_of_inside]

theorem upper_strictMono (format : FloatFormat) : StrictMono fun n => (format.ofNat n).upper := by
  refine strictMono_nat_of_lt_succ fun n => ?_
  rw [upper_ofNat]
  exact Magnitude.lower_lt_upper _

/-- The mantissa is even as the word is. -/
theorem closed_ofNat (fractional : 0 < format.fractionBits) :
    (format.ofNat n).closed = true ↔ n % 2 = 0 := by
  obtain ⟨exponent, fraction, within, rfl⟩ := format.exists_parts n
  obtain ⟨half, row⟩ : ∃ half, 2 ^ format.fractionBits = 2 * half :=
    ⟨_, (Nat.mul_div_cancel' (dvd_pow_self 2 fractional.ne')).symm⟩
  rw [ofNat_of_parts within, Magnitude.closed, beq_iff_eq, row, Nat.mul_assoc, Nat.mul_add_mod]
  unfold magnitude
  split
  · rfl
  · rw [row, Nat.mul_add_mod]

/-- No number rounds to two magnitudes. -/
theorem rounds_unique (fractional : 0 < format.fractionBits)
    (first : (format.ofNat n).Rounds v) (second : (format.ofNat m).Rounds v) : n = m := by
  wlog lower : n < m generalizing n m
  · rcases Nat.lt_or_eq_of_le (Nat.le_of_not_lt lower) with above | same
    · exact (this second first above).symm
    · exact same.symm
  obtain ⟨k, rfl⟩ := Nat.exists_eq_add_of_lt lower
  obtain ⟨-, upper, endsEven⟩ := first
  obtain ⟨low, -, startsEven⟩ := second
  rw [← upper_ofNat] at low startsEven
  -- The number is the upper end of the one and the lower end of the other, so these are
  -- neighbours, and both are even.
  have ascending : (format.ofNat n).upper ≤ (format.ofNat (n + k)).upper :=
    (upper_strictMono format).monotone (Nat.le_add_right n k)
  have atEnd : v = (format.ofNat n).upper := le_antisymm upper (ascending.trans low)
  have atStart : v = (format.ofNat (n + k)).upper := le_antisymm (upper.trans ascending) low
  have neighbours : n = n + k := (upper_strictMono format).injective (atEnd.symm.trans atStart)
  have evenFirst := (closed_ofNat fractional).1 (endsEven (.inr atEnd))
  have evenSecond := (closed_ofNat fractional).1 (startsEven (.inl atStart))
  omega

/-! ## Reading words -/

/-- The word without its sign. -/
def unsigned (format : FloatFormat) (word : Nat) : Nat :=
  word % 2 ^ (format.fractionBits + format.exponentBits)

theorem unsigned_div (format : FloatFormat) (word : Nat) :
    format.unsigned word / 2 ^ format.fractionBits =
      word / 2 ^ format.fractionBits % 2 ^ format.exponentBits := by
  rw [unsigned, Nat.pow_add, Nat.mod_mul_right_div_self]

theorem unsigned_mod (format : FloatFormat) (word : Nat) :
    format.unsigned word % 2 ^ format.fractionBits = word % 2 ^ format.fractionBits := by
  rw [unsigned, Nat.pow_add, Nat.mod_mul_right_mod]

/-- Whether the sign bit is set. -/
def negative (format : FloatFormat) (word : Nat) : Bool :=
  word.testBit (format.fractionBits + format.exponentBits)

/-- A word is its sign and the rest. -/
theorem eq_of_unsigned_of_negative
    (fits : word < 2 ^ (format.fractionBits + format.exponentBits + 1))
    (fitsOther : other < 2 ^ (format.fractionBits + format.exponentBits + 1))
    (rest : format.unsigned word = format.unsigned other)
    (signs : format.negative word = format.negative other) : word = other := by
  unfold unsigned at rest
  unfold negative at signs
  generalize format.fractionBits + format.exponentBits = width at *
  rw [Nat.testBit_eq_decide_div_mod_eq, Nat.testBit_eq_decide_div_mod_eq, decide_eq_decide] at signs
  rw [Nat.pow_succ] at fits fitsOther
  have tops : word / 2 ^ width = other / 2 ^ width := by
    have top : word / 2 ^ width < 2 := Nat.div_lt_of_lt_mul fits
    have topOther : other / 2 ^ width < 2 := Nat.div_lt_of_lt_mul fitsOther
    rw [Nat.mod_eq_of_lt top, Nat.mod_eq_of_lt topOther] at signs
    generalize word / 2 ^ width = high at *
    generalize other / 2 ^ width = highOther at *
    omega
  rw [← Nat.div_add_mod word (2 ^ width), tops, rest, Nat.div_add_mod]

/-- The exponent is all ones, and the fraction is not zero. -/
def IsNaN (format : FloatFormat) (word : Nat) : Prop :=
  word / 2 ^ format.fractionBits % 2 ^ format.exponentBits + 1 = 2 ^ format.exponentBits ∧
    word % 2 ^ format.fractionBits ≠ 0

/-- The exponent is all ones, and the fraction is zero. -/
def IsInfinite (format : FloatFormat) (word : Nat) : Prop :=
  word / 2 ^ format.fractionBits % 2 ^ format.exponentBits + 1 = 2 ^ format.exponentBits ∧
    word % 2 ^ format.fractionBits = 0

/-- All infinities are the same but for the sign. -/
theorem unsigned_of_isInfinite (infinite : format.IsInfinite word) :
    format.unsigned word = 2 ^ format.fractionBits * (2 ^ format.exponentBits - 1) := by
  obtain ⟨extreme, whole⟩ := infinite
  rw [← unsigned_div] at extreme
  rw [← unsigned_mod] at whole
  rw [← Nat.div_add_mod (format.unsigned word) (2 ^ format.fractionBits), whole, ← extreme]
  simp

theorem decode_cases (format : FloatFormat) (word : Nat) :
    (format.IsNaN word ∧ format.decode word = .nan) ∨
    (format.IsInfinite word ∧ format.decode word = .infinite (format.negative word)) ∨
    (¬format.IsNaN word ∧
      format.decode word =
        .finite (format.negative word) (format.ofNat (format.unsigned word))) := by
  unfold decode
  dsimp only
  by_cases extreme :
      word / 2 ^ format.fractionBits % 2 ^ format.exponentBits + 1 = 2 ^ format.exponentBits
  · by_cases whole : word % 2 ^ format.fractionBits = 0
    · exact .inr (.inl ⟨⟨extreme, whole⟩, by rw [if_pos extreme, if_pos whole]; rfl⟩)
    · exact .inl ⟨⟨extreme, whole⟩, by rw [if_pos extreme, if_neg whole]⟩
  · refine .inr (.inr ⟨fun nan => extreme nan.1, ?_⟩)
    rw [if_neg extreme, ofNat, unsigned_div, unsigned_mod]
    rfl

theorem decode_eq_nan_iff : format.decode word = .nan ↔ format.IsNaN word := by
  rcases format.decode_cases word with ⟨nan, reads⟩ | ⟨infinite, reads⟩ | ⟨number, reads⟩
  · simp [nan, reads]
  · simp [reads, IsNaN, infinite.2]
  · simp [reads, number]

theorem of_decode_infinite {sign : Bool} (reads : format.decode word = .infinite sign) :
    format.IsInfinite word ∧ sign = format.negative word := by
  rcases format.decode_cases word with ⟨-, decoded⟩ | ⟨infinite, decoded⟩ | ⟨-, decoded⟩
  · cases decoded.symm.trans reads
  · cases decoded.symm.trans reads
    exact ⟨infinite, rfl⟩
  · cases decoded.symm.trans reads

theorem of_decode_finite {sign : Bool} {x : Magnitude}
    (reads : format.decode word = .finite sign x) :
    sign = format.negative word ∧ x = format.ofNat (format.unsigned word) := by
  rcases format.decode_cases word with ⟨-, decoded⟩ | ⟨-, decoded⟩ | ⟨-, decoded⟩
  · cases decoded.symm.trans reads
  · cases decoded.symm.trans reads
  · cases decoded.symm.trans reads
    exact ⟨rfl, rfl⟩

/-! ## Texts -/

theorem toList_signed (negative : Bool) (text : String) :
    (signed negative text).toList = if negative then '-' :: text.toList else text.toList := by
  cases negative <;> simp [signed]

/-- In front of a text that does not start with one, a minus sign is seen. -/
theorem signed_inj {negative second : Bool} {text tail : String}
    (unsigned : text.toList.head? ≠ some '-') (unsignedTail : tail.toList.head? ≠ some '-')
    (same : signed negative text = signed second tail) : negative = second ∧ text = tail := by
  have letters := congrArg String.toList same
  rw [toList_signed, toList_signed] at letters
  cases negative <;> cases second <;>
    simp only [if_true, if_false, Bool.false_eq_true, List.cons.injEq, true_and] at letters
  case false.false | true.true => exact ⟨rfl, String.toList_inj.1 letters⟩
  case true.false => exact absurd (letters ▸ rfl) unsignedTail
  case false.true => exact absurd (letters ▸ rfl) unsigned

namespace Reading

variable {reading second : Reading}

/-- Infinities and numbers have a sign. -/
def negative : Reading → Bool
  | nan => false
  | infinite negative => negative
  | finite negative _ => negative

/-- The decimal that is printed for a magnitude. -/
def decimal (x : Magnitude) : Decimal := if x.mantissa = 0 then ⟨0, 0⟩ else x.shortest

/-- The text without the sign. -/
def body : Reading → String
  | nan => "NaN"
  | infinite _ => "inf"
  | finite _ magnitude => (decimal magnitude).text

theorem text_eq (reading : Reading) : reading.text = signed reading.negative reading.body := by
  cases reading with
  | nan => rfl
  | infinite negative => rfl
  | finite negative magnitude =>
    rw [text, body, decimal]
    split <;> rfl

/-- A number starts with a digit. -/
theorem exists_decimal_text (d : Decimal) :
    ∃ c rest, d.text.toList = c :: rest ∧ c.isDigit = true := by
  rw [Decimal.text, String.toList_ofList]
  exact d.exists_digits_eq_cons

/-- So no text that starts with something else is a number. -/
theorem text_decimal_ne (d : Decimal) {c : Char} {rest : List Char} (letter : c.isDigit = false) :
    d.text ≠ String.ofList (c :: rest) := by
  intro same
  obtain ⟨first, more, letters, digit⟩ := exists_decimal_text d
  rw [same, String.toList_ofList] at letters
  cases letters
  cases digit.symm.trans letter

theorem head?_body (reading : Reading) : reading.body.toList.head? ≠ some '-' := by
  cases reading with
  | nan => decide
  | infinite negative =>
    show "inf".toList.head? ≠ some '-'
    decide
  | finite negative magnitude =>
    obtain ⟨c, rest, letters, digit⟩ := exists_decimal_text (decimal magnitude)
    rw [body, letters]
    rintro ⟨⟩
    cases digit

/-- NaNs, infinities and numbers do not look alike, and a number shows its decimal. -/
theorem body_inj (same : reading.body = second.body) :
    (reading = .nan ∧ second = .nan) ∨
    (∃ negative other, reading = .infinite negative ∧ second = .infinite other) ∨
    ∃ negative other x y, reading = .finite negative x ∧ second = .finite other y ∧
      decimal x = decimal y := by
  cases reading <;> cases second
  case nan.nan => exact .inl ⟨rfl, rfl⟩
  case infinite.infinite negative other => exact .inr (.inl ⟨negative, other, rfl, rfl⟩)
  case finite.finite negative x other y =>
    refine .inr (.inr ⟨negative, other, x, y, rfl, rfl, Decimal.digits_injective ?_⟩)
    exact String.ofList_injective same
  case nan.infinite => exact absurd same (show "NaN" ≠ "inf" by decide)
  case infinite.nan => exact absurd same (show "inf" ≠ "NaN" by decide)
  case nan.finite | infinite.finite => exact absurd same.symm (text_decimal_ne _ rfl)
  case finite.nan | finite.infinite => exact absurd same (text_decimal_ne _ rfl)

end Reading

/-- The decimal printed for a magnitude rounds to it, zero included. -/
theorem rounds_decimal (x : Magnitude) : x.Rounds (Reading.decimal x).value := by
  unfold Reading.decimal
  split
  case isTrue zero =>
    have none : (⟨0, 0⟩ : Decimal).value = x.value := by
      simp [Decimal.value, Magnitude.value, zero]
    rw [none]
    exact x.rounds_value
  case isFalse positive => exact x.rounds_shortest

/-- **The text of a float identifies it**, but for NaNs, which are all written alike. -/
theorem text_eq_iff (fractional : 0 < format.fractionBits)
    (fits : word < 2 ^ (format.fractionBits + format.exponentBits + 1))
    (fitsOther : other < 2 ^ (format.fractionBits + format.exponentBits + 1)) :
    format.text word = format.text other ↔
      word = other ∨ format.IsNaN word ∧ format.IsNaN other := by
  constructor
  · intro same
    rw [text, text, Reading.text_eq, Reading.text_eq] at same
    obtain ⟨signs, bodies⟩ := signed_inj (Reading.head?_body _) (Reading.head?_body _) same
    rcases Reading.body_inj bodies with
      ⟨nan, second⟩ | ⟨negative, last, infinite, second⟩ |
        ⟨negative, last, x, y, finite, second, one⟩
    · exact .inr ⟨decode_eq_nan_iff.1 nan, decode_eq_nan_iff.1 second⟩
    · rw [infinite, second] at signs
      obtain ⟨extreme, rfl⟩ := of_decode_infinite infinite
      obtain ⟨extremeOther, rfl⟩ := of_decode_infinite second
      refine .inl (eq_of_unsigned_of_negative fits fitsOther ?_ signs)
      rw [unsigned_of_isInfinite extreme, unsigned_of_isInfinite extremeOther]
    · rw [finite, second] at signs
      obtain ⟨rfl, rfl⟩ := of_decode_finite finite
      obtain ⟨rfl, rfl⟩ := of_decode_finite second
      refine .inl (eq_of_unsigned_of_negative fits fitsOther ?_ signs)
      exact rounds_unique fractional (rounds_decimal _) (one ▸ rounds_decimal _)
  · rintro (rfl | ⟨nan, second⟩)
    · rfl
    · rw [text, text, decode_eq_nan_iff.2 nan, decode_eq_nan_iff.2 second]

end FloatFormat

end TreeIR
