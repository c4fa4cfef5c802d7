/-
# TreeIR.Toml.Codec -- readers and writers of documents

A codec finds the statements of a text, makes a document of them, looks up the fields of
records in it, and writes documents.  How it does so is its own business.  What others rely
on is that the fields of a table are the values of its keys (`Codec.Records`), that documents
are what their statements say (`Codec.Reads`), and that documents of tables with integers
are read back from the text that is written for them (`Codec.Prints`).

`TreeIR.Toml.Document` and `TreeIR.Toml.Writer` are a codec.
-/
import TreeIR.Toml.Path

namespace TreeIR.Toml

set_option autoImplicit false

structure Codec where
  /-- The statements of a text; `none` if it has no such form. -/
  statements? : String → Option (List Statement)
  /-- The document that statements make up, if they do not contradict each other. -/
  document? : List Statement → Option Entries
  /-- The fields of a record, given by their names, each with its value unless it is absent, if the
  value can stand for such a record. -/
  fields? : List String → Value → Option (List (Option Value))
  /-- The text of a document, if it can be written. -/
  print? : Entries → Option String

/-! ## Documents of tables with integers -/

/-- A key that can stand without quotes. -/
structure BareKey (key : List Char) : Prop where
  nonempty : key ≠ []
  bare : ∀ c ∈ key, isBareKeyChar c = true

instance (key : List Char) : Decidable (BareKey key) :=
  decidable_of_iff (key ≠ [] ∧ key.all isBareKeyChar = true)
    ⟨fun ⟨nonempty, all⟩ => ⟨nonempty, List.all_eq_true.1 all⟩,
      fun bare => ⟨bare.nonempty, List.all_eq_true.2 bare.bare⟩⟩

/-- The keys can stand without quotes, and no two are the same. -/
structure BareKeys {α : Type} (entries : List (String × α)) : Prop where
  bare : ∀ entry ∈ entries, BareKey entry.1.toList
  nodup : (entries.map Prod.fst).Nodup

namespace Entries

def ofIntegers (pairs : List (String × Int)) : Entries :=
  pairs.map fun pair => (pair.1, .integer pair.2)

/-- The document of tables that hold integers. -/
def ofTables (tables : List (String × List (String × Int))) : Entries :=
  tables.map fun table => (table.1, .table .header (ofIntegers table.2))

end Entries

/-! ## The laws -/

namespace Codec

/-- The document in a text. -/
def read? (codec : Codec) (source : String) : Option Entries :=
  (codec.statements? source).bind codec.document?

theorem read?_eq_some_iff {codec : Codec} {source : String} {document : Entries} :
    codec.read? source = some document ↔
      ∃ statements, codec.statements? source = some statements ∧
        codec.document? statements = some document :=
  Option.bind_eq_some_iff

/-- A table stands for any record.  Its fields are the values of their names; a name that is no key is
absent, and a key that is no name is not looked at. -/
structure Records (codec : Codec) : Prop where
  fields?_table (names : List String) (origin : Origin) (entries : Entries) :
    codec.fields? names (.table origin entries) = some (names.map entries.find?)

/-- Documents are what their statements say, and their integers have 64 bits. -/
structure Reads (codec : Codec) : Prop extends Records codec where
  /-- At a path that does not lead through rows there is what the first statement says that says
  something about the path. -/
  shown_eq {statements : List Statement} {document : Entries} {key : String} {path : List String}
    (built : codec.document? statements = some document)
    (free : document.whole.RowFree (key :: path)) :
    document.whole.shown (key :: path) = told (key :: path) statements
  inRange {source : String} {document : Entries} (read : codec.read? source = some document) :
    document.whole.InRange

/-- Tables and integers of 64 bits can be written and are read back; larger integers can not be
written. -/
structure Prints (codec : Codec) : Prop extends Records codec where
  readBack {tables : List (String × List (String × Int))} (names : BareKeys tables)
    (keys : ∀ table ∈ tables, BareKeys table.2)
    (fits : ∀ table ∈ tables, ∀ pair ∈ table.2, IsInt64 pair.2) :
    ∃ text document, codec.print? (.ofTables tables) = some text ∧
      codec.read? text = some document ∧ document.Alike (.ofTables tables)
  refused {document : Entries} (large : ¬document.whole.InRange) : codec.print? document = none

end Codec

end TreeIR.Toml
