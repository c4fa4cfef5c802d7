/-
# TreeIR.Toml.Document -- from text to tables and records

A header and the pairs up to the next header are a section; pairs before the first
header belong to the document itself.  A document is made by adding section after
section, so it depends on the text only through the statements.
-/
import TreeIR.Toml.Statement

namespace TreeIR.Toml

set_option autoImplicit false

/-- A header with the pairs under it. -/
structure Section where
  doubled : Bool
  path : List String
  pairs : List (List String × Value)
  deriving Repr

/-- Groups statements: the pairs in front, then the sections. -/
def sections : List Statement → List (List String × Value) × List Section
  | [] => ([], [])
  | .pair path value :: rest =>
      let (pairs, later) := sections rest
      ((path, value) :: pairs, later)
  | .header doubled path :: rest =>
      let (pairs, later) := sections rest
      ([], ⟨doubled, path, pairs⟩ :: later)

namespace Section

/-- Adds the section to the document. -/
def addTo? (opened : Section) (root : Entries) : Option Entries :=
  match opened.path.getLast? with
  | none => none
  | some key =>
      let enter := if opened.doubled then Entries.addRow? key else Entries.openTable? key
      Entries.below? (enter opened.pairs) opened.path.dropLast root

end Section

/-- The document that statements make up. -/
def ofStatements? (statements : List Statement) : Option Entries := do
  let (pairs, later) := sections statements
  later.foldlM (fun root opened => opened.addTo? root) (← Entries.insertAll? pairs [])

/-- A mark that some editors put in front of a text. -/
def byteOrderMark : Char := '\uFEFF'

def dropMark : List Char → List Char
  | c :: rest => if c = byteOrderMark then rest else c :: rest
  | [] => []

/-- The statements of a text; `none` if the text is not a document. -/
def statementsOf? (source : String) : Option (List Statement) :=
  let text := dropMark source.toList
  statements? (text.length + 1) text

/-! ## Records -/

/-- Fields that are given by their order. -/
def fieldsInOrder (names : List String) (items : List Value) : List (Option Value) :=
  names.mapIdx fun position _ => items[position]?

/-- The fields of a record.  In place of a table an array may give them in their order, and a date
counts as a table without any. -/
def fieldsOf? (names : List String) : Value → Option (List (Option Value))
  | .table _ entries => some (names.map (Entries.find? entries))
  | .array items => some (fieldsInOrder names items)
  | .rows tables => some (fieldsInOrder names (tables.map (.table .header)))
  | .date _ => some (names.map fun _ => none)
  | _ => none

end TreeIR.Toml
