/-
# TreeIR.Toml.Quoted -- quoted strings

Basic strings stand in double quotes and know escapes; literal strings stand in single
quotes and mean what they show.  Either kind may span lines between tripled quotes: a
line end right after the opening does not count, up to two quotes may stand anywhere
inside, also before the closing ones, and every line end is read as a line feed.  In
the basic kind a backslash at the end of a line swallows all blank space up to the
next visible character.

Each reader starts behind the opening quotes.
-/
import TreeIR.Toml.Blank

namespace TreeIR.Toml

set_option autoImplicit false

/-- The value of a hexadecimal digit of either case. -/
def hexDigit? (c : Char) : Option Nat :=
  if '0' ≤ c ∧ c ≤ '9' then some (c.toNat - '0'.toNat)
  else if 'a' ≤ c ∧ c ≤ 'f' then some (c.toNat - 'a'.toNat + 10)
  else if 'A' ≤ c ∧ c ≤ 'F' then some (c.toNat - 'A'.toNat + 10)
  else none

/-- The character with the code that the digits give; surrogates are none. -/
def codePoint? (digits : List Char) : Option Char := do
  let code ← digits.foldlM (fun code c => (16 * code + ·) <$> hexDigit? c) 0
  if code.isValidChar then some (Char.ofNat code) else none

/-- The character a one-letter escape stands for. -/
def escaped? : Char → Option Char
  | 'b' => some '\x08'
  | 't' => some '\t'
  | 'n' => some '\n'
  | 'f' => some '\x0c'
  | 'r' => some '\r'
  | '"' => some '"'
  | '\\' => some '\\'
  | _ => none

/-- Puts a character in front of what was read. -/
def after (c : Char) (read : Option (List Char × List Char)) : Option (List Char × List Char) :=
  read.map fun (text, rest) => (c :: text, rest)

/-! ## On one line -/

/-- Reads up to the closing double quote. -/
def basic? : List Char → Option (List Char × List Char)
  | '"' :: rest => some ([], rest)
  | '\\' :: 'u' :: a :: b :: c :: d :: rest => do after (← codePoint? [a, b, c, d]) (basic? rest)
  | '\\' :: 'U' :: a :: b :: c :: d :: e :: f :: g :: h :: rest => do
      after (← codePoint? [a, b, c, d, e, f, g, h]) (basic? rest)
  | '\\' :: c :: rest => do after (← escaped? c) (basic? rest)
  | c :: rest => if c ≠ '\\' ∧ isPrintable c then after c (basic? rest) else none
  | [] => none

/-- Reads up to the closing single quote. -/
def literal? : List Char → Option (List Char × List Char)
  | '\'' :: rest => some ([], rest)
  | c :: rest => if isPrintable c then after c (literal? rest) else none
  | [] => none

/-! ## Over several lines -/

/-- Drops the line end right after the opening quotes. -/
def dropFirstLineEnd : List Char → List Char
  | '\n' :: rest => rest
  | '\r' :: '\n' :: rest => rest
  | text => text

/-- Whether only blanks are left on the line, and the line has an end. -/
def endsLine (text : List Char) : Bool :=
  match skipBlanks text with
  | '\n' :: _ => true
  | '\r' :: '\n' :: _ => true
  | _ => false

/-- Reads up to the closing double quotes; `swallowing` all blank space at first. -/
def basicLines? (swallowing : Bool) : List Char → Option (List Char × List Char)
  | '"' :: '"' :: '"' :: '"' :: '"' :: rest => some (['"', '"'], rest)
  | '"' :: '"' :: '"' :: '"' :: rest => some (['"'], rest)
  | '"' :: '"' :: '"' :: rest => some ([], rest)
  | '\r' :: '\n' :: rest =>
      if swallowing then basicLines? true rest else after '\n' (basicLines? false rest)
  | '\n' :: rest =>
      if swallowing then basicLines? true rest else after '\n' (basicLines? false rest)
  | '\\' :: 'u' :: a :: b :: c :: d :: rest => do
      after (← codePoint? [a, b, c, d]) (basicLines? false rest)
  | '\\' :: 'U' :: a :: b :: c :: d :: e :: f :: g :: h :: rest => do
      after (← codePoint? [a, b, c, d, e, f, g, h]) (basicLines? false rest)
  | '\\' :: c :: rest =>
      if endsLine (c :: rest) then
        if c = '\r' ∨ c = '\n' ∨ isBlank c then basicLines? true rest else none
      else do after (← escaped? c) (basicLines? false rest)
  | c :: rest =>
      if swallowing && isBlank c then basicLines? true rest
      else if c ≠ '\\' ∧ isPrintable c then after c (basicLines? false rest)
      else none
  | [] => none

/-- Reads up to the closing single quotes. -/
def literalLines? : List Char → Option (List Char × List Char)
  | '\'' :: '\'' :: '\'' :: '\'' :: '\'' :: rest => some (['\'', '\''], rest)
  | '\'' :: '\'' :: '\'' :: '\'' :: rest => some (['\''], rest)
  | '\'' :: '\'' :: '\'' :: rest => some ([], rest)
  | '\r' :: '\n' :: rest => after '\n' (literalLines? rest)
  | '\n' :: rest => after '\n' (literalLines? rest)
  | c :: rest => if isPrintable c then after c (literalLines? rest) else none
  | [] => none

/-! ## Any of the four -/

/-- Reads a string that stands in any of the four kinds of quotes. -/
def quoted? : List Char → Option (List Char × List Char)
  | '"' :: '"' :: '"' :: rest => basicLines? false (dropFirstLineEnd rest)
  | '\'' :: '\'' :: '\'' :: rest => literalLines? (dropFirstLineEnd rest)
  | '"' :: rest => basic? rest
  | '\'' :: rest => literal? rest
  | _ => none

end TreeIR.Toml
