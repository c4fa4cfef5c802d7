/-
# TreeIR.Toml.Path -- what there is at a path, and what statements say about it

A path leads through tables to a value.  Something that is still open to additions shows as
such (`Value.complete?`), since its contents are not settled where it was opened.

A statement mentions a path, with a value or as a place where a table or a row is opened
(`Mention`), and with the path what is below it.  A header, a dotted key and an inline
table may mention one path alike; `Mention.about` does not tell them apart.
-/
import TreeIR.Toml.Value

namespace TreeIR.Toml

set_option autoImplicit false

/-! ## Values -/

/-- The integers of a document: 64 bits with a sign. -/
def IsInt64 (n : Int) : Prop := -(integerLimit : Int) ≤ n ∧ n < integerLimit

instance (n : Int) : Decidable (IsInt64 n) :=
  inferInstanceAs (Decidable (-(integerLimit : Int) ≤ n ∧ n < integerLimit))

namespace Value

/-- Headers and dotted keys may still add to the value. -/
def isOpen : Value → Bool
  | .table origin _ => origin != .inline
  | .rows _ => true
  | _ => false

/-- The value, if it is complete where it is written. -/
def complete? (value : Value) : Option Value := if value.isOpen then none else some value

/-- The value at a path that leads through tables. -/
def at? : Value → List String → Option Value
  | value, [] => some value
  | .table _ entries, key :: path => (Entries.find? entries key).bind fun value => value.at? path
  | _, _ :: _ => none

/-- What is to be found at a path: `some none` stands for something open. -/
def shown (value : Value) (path : List String) : Option (Option Value) :=
  (value.at? path).map complete?

/-- The path does not lead through rows. -/
def RowFree : Value → List String → Prop
  | _, [] => True
  | .table _ entries, key :: path =>
      ∀ value, Entries.find? entries key = some value → value.RowFree path
  | .rows _, _ :: _ => False
  | _, _ :: _ => True

/-- Wherever tables lead to an integer, it has 64 bits. -/
def InRange (value : Value) : Prop := ∀ path n, value.at? path = some (.integer n) → IsInt64 n

variable {value : Value} {origin : Origin} {entries : Entries} {key : String}
  {path : List String}

@[simp] theorem shown_nil : value.shown [] = some value.complete? := rfl

@[simp] theorem shown_cons :
    (table origin entries).shown (key :: path) =
      (entries.find? key).bind fun value => value.shown path :=
  Option.map_bind

@[simp] theorem rowFree_cons :
    (table origin entries).RowFree (key :: path) ↔
      ∀ value, entries.find? key = some value → value.RowFree path :=
  Iff.rfl

theorem eq_of_complete? {other : Value} (complete : value.complete? = some other) :
    value = other :=
  Option.some.inj (Option.ite_none_left_eq_some.1 complete).2

theorem complete?_of_isOpen (opened : value.isOpen = true) : value.complete? = none :=
  if_pos opened

end Value

namespace Entries

/-- The entries as one value. -/
def whole (entries : Entries) : Value := .table .header entries

/-- The same is to be found at every path, whatever the order of the entries and the origin of the
tables. -/
def Alike (first second : Entries) : Prop :=
  ∀ path, first.whole.shown path = second.whole.shown path

end Entries

/-! ## Statements -/

/-- A path that a statement is about, with the value it gives, or none where it opens a table or a
row. -/
structure Mention where
  path : List String
  written : Option Value

namespace Mention

/-- The mention in a table that itself stands under a path. -/
def under (scope : List String) (mention : Mention) : Mention :=
  ⟨scope ++ mention.path, mention.written⟩

/-- What writing a value at a path, or opening the path, says about what is asked for. -/
def answer (written : Option Value) : List String → List String → Option (Option Value)
  | [], asked =>
      match written, asked with
      | some value, asked => value.shown asked
      | none, [] => some none
      | none, _ :: _ => none
  | _ :: _, [] => some none
  | first :: path, key :: asked => if first = key then answer written path asked else none

/-- What the mention says about a path. -/
def about (asked : List String) (mention : Mention) : Option (Option Value) :=
  answer mention.written mention.path asked

variable {mention : Mention} {key other : String} {scope asked : List String} {value : Value}

@[simp] theorem map_under_nil (mentions : List Mention) : mentions.map (under []) = mentions :=
  List.map_id _

theorem under_under (outer : List String) :
    (mention.under scope).under outer = mention.under (outer ++ scope) := by
  simp [under]

@[simp] theorem about_written : about asked ⟨[], some value⟩ = value.shown asked := rfl

@[simp] theorem about_opened : about (key :: asked) ⟨[], none⟩ = none := rfl

@[simp] theorem about_under : about (key :: asked) (mention.under [key]) = about asked mention :=
  if_pos rfl

theorem about_under_of_ne (apart : other ≠ key) :
    about (other :: asked) (mention.under [key]) = none :=
  if_neg apart.symm

end Mention

/-- What statements say, one by one; `scope` is the path of the header they stand under. -/
def mentions (scope : List String) : List Statement → List Mention
  | [] => []
  | .pair path value :: rest => ⟨scope ++ path, some value⟩ :: mentions scope rest
  | .header _ path :: rest => ⟨path, none⟩ :: mentions path rest

/-- What statements say about a path: what the first of them does that says something. -/
def told (path : List String) (statements : List Statement) : Option (Option Value) :=
  (mentions [] statements).findSome? (Mention.about path)

/-- The ways to write a value under a key of a table: with a header, with a dotted key, and in an
inline table. -/
def spellings (table key : String) (value : Value) : List (List Statement) :=
  [[.header false [table], .pair [key] value],
    [.pair [table, key] value],
    [.pair [table] (.table .inline [(key, value)])]]

/-- All of them say the same, whatever follows. -/
theorem told_of_spelling {table key : String} {value : Value} {form rest : List Statement}
    (spelled : form ∈ spellings table key value) :
    told [table, key] (form ++ rest) = some value.complete? := by
  simp only [spellings, List.mem_cons, List.not_mem_nil, or_false] at spelled
  rcases spelled with rfl | rfl | rfl <;>
    simp [told, mentions, Mention.about, Mention.answer, Value.shown, Value.at?, Entries.find?]

end TreeIR.Toml
