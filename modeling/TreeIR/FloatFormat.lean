/-
# TreeIR.FloatFormat -- floating-point words and their text

A format splits a word into sign, exponent and fraction.  `decode` reads the word as
a NaN, an infinity or a signed magnitude; `text` writes it with the fewest digits
that read back to the same word, always positional.  NaNs are written alike whatever
their sign and payload; the sign of a zero is kept.
-/
import TreeIR.Magnitude

namespace TreeIR

set_option autoImplicit false

-- Powers of naturals are the core library's, whatever else is in scope.
attribute [local instance (2000)] instPowNat

/-- Widths of the two fields below the sign bit. -/
structure FloatFormat where
  fractionBits : Nat
  exponentBits : Nat
  deriving DecidableEq, Repr

namespace FloatFormat

def single : FloatFormat := ⟨23, 8⟩

def double : FloatFormat := ⟨52, 11⟩

/-- What a word stands for.  A magnitude with mantissa 0 is a zero. -/
inductive Reading
  | nan
  | infinite (negative : Bool)
  | finite (negative : Bool) (magnitude : Magnitude)
  deriving DecidableEq, Repr

/-- The lowest bit of a number with the least exponent is `2 ^ leastExponent`. -/
def leastExponent (format : FloatFormat) : Int :=
  2 - 2 ^ (format.exponentBits - 1) - format.fractionBits

/-- Exponent field 0 has no hidden bit and shares its unit with exponent field 1. -/
def magnitude (format : FloatFormat) (exponent fraction : Nat) : Magnitude :=
  if exponent = 0 then ⟨fraction, format.leastExponent, false⟩
  else ⟨2 ^ format.fractionBits + fraction, format.leastExponent + (exponent - 1 : Nat),
    fraction = 0 ∧ 1 < exponent⟩

def decode (format : FloatFormat) (word : Nat) : Reading :=
  let fraction := word % 2 ^ format.fractionBits
  let exponent := word / 2 ^ format.fractionBits % 2 ^ format.exponentBits
  let negative := word.testBit (format.fractionBits + format.exponentBits)
  if exponent + 1 = 2 ^ format.exponentBits then
    if fraction = 0 then .infinite negative else .nan
  else .finite negative (format.magnitude exponent fraction)

/-- A minus sign for everything negative, a negative zero included. -/
def signed (negative : Bool) (text : String) : String :=
  if negative then "-" ++ text else text

def Reading.text : Reading → String
  | nan => "NaN"
  | infinite negative => signed negative "inf"
  | finite negative magnitude =>
      signed negative (if magnitude.mantissa = 0 then "0" else magnitude.shortest.text)

def text (format : FloatFormat) (word : Nat) : String :=
  (format.decode word).text

end FloatFormat

end TreeIR
