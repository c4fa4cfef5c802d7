/-
# TreeIR.Toml.Statement -- reading a document line by line

A document is a list of statements, each ended by its line end: a header in single or
doubled brackets, or a key and its value.  Arrays may span lines and end with a comma;
inline tables may do neither.

Nesting is limited (`maxDepth`), for brackets as for the parts of a key, so depth is
what readers recurse on; a loop over items recurses on a bound that the length of the
text gives.
-/
import TreeIR.Toml.Scalar
import TreeIR.Toml.Table

namespace TreeIR.Toml

set_option autoImplicit false

/-- The deepest nesting of arrays and inline tables, and the most parts of a key. -/
def maxDepth : Nat := 79

/-! ## Keys -/

/-- Reads one part of a key: bare, or quoted on one line. -/
def keyPart? : List Char → Option (String × List Char)
  | '"' :: rest => (basic? rest).map fun (text, rest) => (String.ofList text, rest)
  | '\'' :: rest => (literal? rest).map fun (text, rest) => (String.ofList text, rest)
  | text =>
      let part := text.takeWhile isBareKeyChar
      if part.isEmpty then none else some (String.ofList part, text.dropWhile isBareKeyChar)

/-- Reads the parts of a dotted key, with blanks around each. -/
def keyParts? : Nat → List Char → Option (List String × List Char)
  | 0, _ => none
  | parts + 1, text => do
      let (part, rest) ← keyPart? (skipBlanks text)
      match skipBlanks rest with
      | '.' :: rest => do
          let (path, rest) ← keyParts? parts rest
          return (part :: path, rest)
      | rest => return ([part], rest)

def key? (text : List Char) : Option (List String × List Char) := keyParts? maxDepth text

/-! ## Values -/

/-- Reads the items of an array up to its bracket. -/
def items? (item : List Char → Option (Value × List Char)) :
    Nat → List Char → Option (List Value × List Char)
  | 0, _ => none
  | bound + 1, text => do
      match ← skipLines? false text with
      | ']' :: rest => return ([], rest)
      | text => do
          let (value, rest) ← item text
          match ← skipLines? false rest with
          | ',' :: rest => do
              let (values, rest) ← items? item bound rest
              return (value :: values, rest)
          | ']' :: rest => return ([value], rest)
          | _ => none

/-- Reads a key, the equals sign and what `item` makes of the rest. -/
def pair? (item : List Char → Option (Value × List Char)) (text : List Char) :
    Option ((List String × Value) × List Char) := do
  let (path, rest) ← key? text
  match rest with
  | '=' :: rest => do
      let (value, rest) ← item (skipBlanks rest)
      return ((path, value), rest)
  | _ => none

/-- Reads the pairs of an inline table up to its brace; there is at least one. -/
def pairs? (item : List Char → Option (Value × List Char)) :
    Nat → List Char → Option (List (List String × Value) × List Char)
  | 0, _ => none
  | bound + 1, text => do
      let (pair, rest) ← pair? item text
      match skipBlanks rest with
      | ',' :: rest => do
          let (pairs, rest) ← pairs? item bound rest
          return (pair :: pairs, rest)
      | '}' :: rest => return ([pair], rest)
      | _ => none

/-- Reads an inline table behind its opening brace. -/
def inlineTable? (item : List Char → Option (Value × List Char)) (text : List Char) :
    Option (Value × List Char) := do
  match skipBlanks text with
  | '}' :: rest => return (.table .inline [], rest)
  | text => do
      let (pairs, rest) ← pairs? item text.length text
      return (.table .inline (← Entries.insertAll? pairs []), rest)

/-- Reads an array behind its opening bracket. -/
def array? (item : List Char → Option (Value × List Char)) (text : List Char) :
    Option (Value × List Char) :=
  (items? item (text.length + 1) text).map fun (values, rest) => (.array values, rest)

/-- Reads a value that nests at most so deep. -/
def value? : Nat → List Char → Option (Value × List Char)
  | depth, text =>
      match text with
      | '[' :: rest =>
          match depth with
          | 0 => none
          | depth + 1 => array? (value? depth) rest
      | '{' :: rest =>
          match depth with
          | 0 => none
          | depth + 1 => inlineTable? (value? depth) rest
      | '"' :: _ | '\'' :: _ =>
          (quoted? text).map fun (read, rest) => (.string (String.ofList read), rest)
      | _ =>
          let (token, rest) := takeScalar text
          (scalar? token).map fun value => (value, rest)

/-! ## Statements -/

/-- Reads a header behind its opening brackets. -/
def header? (doubled : Bool) (text : List Char) : Option (Statement × List Char) := do
  let (path, rest) ← key? text
  match doubled, rest with
  | false, ']' :: rest => return (.header false path, rest)
  | true, ']' :: ']' :: rest => return (.header true path, rest)
  | _, _ => none

/-- Reads a statement up to its line end. -/
def statement? : List Char → Option (Statement × List Char)
  | '[' :: '[' :: rest => header? true rest
  | '[' :: rest => header? false rest
  | text => (pair? (value? maxDepth) text).map fun (pair, rest) => (.pair pair.1 pair.2, rest)

/-- Reads statements to the end of the text. -/
def statements? : Nat → List Char → Option (List Statement)
  | 0, _ => none
  | bound + 1, text =>
      match skipBlanks text with
      | [] => some []
      | c :: rest =>
          if c = '#' ∨ c = '\n' ∨ c = '\r' then do
            statements? bound (← restOfLine? (c :: rest))
          else do
            let (statement, rest) ← statement? (c :: rest)
            let statements ← statements? bound (← restOfLine? rest)
            return statement :: statements

end TreeIR.Toml
