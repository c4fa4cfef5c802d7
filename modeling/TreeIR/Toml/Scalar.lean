/-
# TreeIR.Toml.Scalar -- numbers, booleans and dates

An unquoted value is a run of letters, digits and the marks `+ - . _ :`.  The whole run
has to be one scalar; the four languages have no text in common, so the order in which
they are tried does not matter.

Numbers may have single underscores between digits and no leading zeros.  Integers are
those of 64 bits with a sign; floats may be out of range only on the negative side.  Dates and
times follow the calendar, and a minute may have a leap second.
-/
import TreeIR.Toml.Quoted
import TreeIR.Toml.Value

namespace TreeIR.Toml

set_option autoImplicit false

-- Powers of naturals are the core library's, whatever else is in scope.
attribute [local instance (2000)] instPowNat

/-! ## Digits -/

/-- Takes the underscores out of a number; each has to stand between two digits. -/
def ungroup? (isDigit : Char → Bool) : List Char → Option (List Char)
  | [] => none
  | [c] => if isDigit c then some [c] else none
  | c :: '_' :: rest => if isDigit c then (ungroup? isDigit rest).map (c :: ·) else none
  | c :: rest => if isDigit c then (ungroup? isDigit rest).map (c :: ·) else none

/-- The decimal digits of a number that has no leading zero. -/
def decimal? (text : List Char) : Option (List Char) := do
  let digits ← ungroup? Char.isDigit text
  if digits.head? = some '0' ∧ text ≠ ['0'] then none
  return digits

def natOfDigits (digits : List Char) : Nat := Nat.ofDigitChars 10 digits 0

/-- The value of a number in another base, where the base's digits allow it. -/
def natOfBase? (base : Nat) (text : List Char) : Option Nat := do
  let digits ← ungroup? (fun c => (hexDigit? c).any (· < base)) text
  digits.foldlM (fun value c => (base * value + ·) <$> hexDigit? c) 0

/-! ## Integers -/

def integer? : List Char → Option Int
  | '0' :: 'x' :: rest => bounded? (natOfBase? 16 rest)
  | '0' :: 'o' :: rest => bounded? (natOfBase? 8 rest)
  | '0' :: 'b' :: rest => bounded? (natOfBase? 2 rest)
  | '-' :: rest => do
      let magnitude := natOfDigits (← decimal? rest)
      if magnitude ≤ integerLimit then some (-magnitude) else none
  | '+' :: rest => bounded? ((decimal? rest).map natOfDigits)
  | text => bounded? ((decimal? text).map natOfDigits)
where
  /-- A number without a minus sign, if there is one and it fits. -/
  bounded? (magnitude : Option Nat) : Option Int := do
    let magnitude ← magnitude
    if magnitude < integerLimit then some magnitude else none

/-! ## Floats -/

/-- Splits off the sign; `true` stands for a minus. -/
def sign : List Char → Bool × List Char
  | '-' :: rest => (true, rest)
  | '+' :: rest => (false, rest)
  | text => (false, text)

def isGroupedDigit (c : Char) : Bool := c.isDigit || c == '_'

/-- The exponent behind its mark, which may have leading zeros; 0 where there is none. -/
def exponent? : List Char → Option Int
  | [] => some 0
  | mark :: rest => do
      if mark ≠ 'e' ∧ mark ≠ 'E' then none
      let (negative, digits) := sign rest
      let magnitude : Int := natOfDigits (← ungroup? Char.isDigit digits)
      return if negative then -magnitude else magnitude

/-- The digits behind the point, and what follows them. -/
def fraction? : List Char → Option (List Char × List Char)
  | '.' :: rest => do
      let digits ← ungroup? Char.isDigit (rest.takeWhile isGroupedDigit)
      return (digits, rest.dropWhile isGroupedDigit)
  | text => some ([], text)

/-- The least integer that is rounded to infinity instead of to a double. -/
def doubleLimit : Nat := (2 ^ (54 : Nat) - 1) * 2 ^ (970 : Nat)

/-- Whether `significand * 10 ^ exponent` is too large for a double.  Most exponents decide
by themselves, and only near the limit the power is worked out. -/
def overflows (significand : Nat) (exponent : Int) : Bool :=
  let order := (Nat.toDigits 10 significand).length + exponent
  if significand = 0 ∨ order < 309 then false
  else if 310 < order then true
  else doubleLimit * 10 ^ (-exponent).toNat ≤ significand * 10 ^ exponent.toNat

/-- Whether the text is a float in range: at least a fraction or an exponent has to be there. -/
def isFloat (text : List Char) : Bool :=
  let (negative, text) := sign text
  let read : Option Bool := do
    let whole ← decimal? (text.takeWhile isGroupedDigit)
    let rest := text.dropWhile isGroupedDigit
    if rest = [] then none
    let (fraction, rest) ← fraction? rest
    let exponent ← exponent? rest
    let significand := natOfDigits (whole ++ fraction)
    return negative || !overflows significand (exponent - fraction.length)
  text == ['i', 'n', 'f'] || text == ['n', 'a', 'n'] || read.getD false

/-! ## Dates and times -/

/-- Reads a number of exactly `width` digits. -/
def fixed? (width : Nat) (text : List Char) : Option (Nat × List Char) :=
  let digits := text.take width
  if digits.length = width ∧ digits.all Char.isDigit then
    some (natOfDigits digits, text.drop width)
  else none

/-- Reads the mark `c`. -/
def mark? (c : Char) : List Char → Option (List Char)
  | d :: rest => if c = d then some rest else none
  | [] => none

def isLeapYear (year : Nat) : Bool :=
  year % 4 == 0 && (year % 100 != 0 || year % 400 == 0)

def daysIn (year month : Nat) : Nat :=
  if month = 2 then if isLeapYear year then 29 else 28
  else if month ∈ [4, 6, 9, 11] then 30
  else 31

/-- Skips a date of the calendar. -/
def day? (text : List Char) : Option (List Char) := do
  let (year, text) ← fixed? 4 text
  let (month, text) ← fixed? 2 (← mark? '-' text)
  let (day, text) ← fixed? 2 (← mark? '-' text)
  if 1 ≤ month ∧ month ≤ 12 ∧ 1 ≤ day ∧ day ≤ daysIn year month then some text else none

/-- Skips hour and minute. -/
def hourMinute? (text : List Char) : Option (List Char) := do
  let (hour, text) ← fixed? 2 text
  let (minute, text) ← fixed? 2 (← mark? ':' text)
  if hour ≤ 23 ∧ minute ≤ 59 then some text else none

/-- Skips a time of day. -/
def time? (text : List Char) : Option (List Char) := do
  let (second, text) ← fixed? 2 (← mark? ':' (← hourMinute? text))
  if 60 < second then none
  match text with
  | '.' :: rest =>
      if rest.head?.any Char.isDigit then return rest.dropWhile Char.isDigit else none
  | _ => return text

/-- Whether the text is nothing or an offset from universal time. -/
def isOffset : List Char → Bool
  | [] => true
  | [c] => c == 'Z' || c == 'z'
  | c :: rest => (c == '+' || c == '-') && hourMinute? rest == some []

def isDateSeparator (c : Char) : Bool := c == 'T' || c == 't' || c == ' '

/-- Whether the text is a date, a time, or both with or without an offset. -/
def isDate (text : List Char) : Bool :=
  match day? text with
  | some [] => true
  | some (c :: rest) => isDateSeparator c && (time? rest).any isOffset
  | none => time? text == some []

/-! ## Scalars -/

/-- The characters an unquoted value is made of. -/
def isScalarChar (c : Char) : Bool :=
  c.isAlphanum || c == '+' || c == '-' || c == '.' || c == '_' || c == ':'

/-- Splits off an unquoted value.  A blank between a date and a time belongs to it. -/
def takeScalar (text : List Char) : List Char × List Char :=
  let token := text.takeWhile isScalarChar
  let rest := text.dropWhile isScalarChar
  match rest with
  | ' ' :: c :: _ =>
      if c.isDigit && day? token == some [] then
        let time := rest.tail
        (token ++ ' ' :: time.takeWhile isScalarChar, time.dropWhile isScalarChar)
      else (token, rest)
  | _ => (token, rest)

/-- What an unquoted value stands for. -/
def scalar? (token : List Char) : Option Value :=
  match integer? token with
  | some value => some (.integer value)
  | none =>
      if token = ['t', 'r', 'u', 'e'] then some (.boolean true)
      else if token = ['f', 'a', 'l', 's', 'e'] then some (.boolean false)
      else if isFloat token then some (.float (String.ofList token))
      else if isDate token then some (.date (String.ofList token))
      else none

end TreeIR.Toml
