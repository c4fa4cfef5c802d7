/-
# TreeIR.Toml.Writer -- documents as text

The text of a document of tables with integers: each table has a line for its header and one
for each of its integers, and a blank line in front unless it is the first.  Of documents
with anything else, or with keys that need quotes, nothing is written.
-/
import TreeIR.Toml.Codec
import TreeIR.Toml.Document

namespace TreeIR.Toml

set_option autoImplicit false

namespace Writer

def integer (n : Int) : List Char :=
  if n < 0 then '-' :: Nat.toDigits 10 n.natAbs else Nat.toDigits 10 n.natAbs

/-- A line for each integer. -/
def pairs? : Entries → Option (List Char)
  | [] => some []
  | (key, .integer n) :: rest =>
      if BareKey key.toList ∧ IsInt64 n then do
        let more ← pairs? rest
        return key.toList ++ ' ' :: '=' :: ' ' :: (integer n ++ '\n' :: more)
      else none
  | _ => none

/-- The lines of each table; `gap` is what stands in front of the first. -/
def tables? (gap : List Char) : Entries → Option (List Char)
  | [] => some []
  | (name, .table _ entries) :: rest =>
      if BareKey name.toList then do
        let lines ← pairs? entries
        let more ← tables? ['\n'] rest
        return gap ++ '[' :: (name.toList ++ ']' :: '\n' :: (lines ++ more))
      else none
  | _ => none

end Writer

/-- Writes a document of tables with integers. -/
def write? (document : Entries) : Option String := (Writer.tables? [] document).map String.ofList

/-- The reader and the writer of this library. -/
def codec : Codec where
  statements? := statementsOf?
  document? := ofStatements?
  fields? := fieldsOf?
  print? := write?

end TreeIR.Toml
