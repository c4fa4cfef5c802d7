/-
# TreeIR.Config.File -- configurations as files

A configuration is a TOML document, a record with the one field `arena`, which is a
record with the one field `chunk_size`, an integer.  Either may be absent and then has
its default; other keys say nothing.  What is present but of another kind is refused, and
a chunk size in range that is too small is refused as that.

How documents are read and written, and what can stand for a record, is up to a codec.
-/
import TreeIR.Config
import TreeIR.Toml.Codec

namespace TreeIR

set_option autoImplicit false

namespace Config

/-! ## Reading -/

/-- The chunk size that a value stands for. -/
def chunkSizeOf? : Toml.Value → Option Nat
  | .integer value => value.toNat?
  | _ => none

variable (codec : Toml.Codec)

/-- A record with one field, which has a default. -/
def record? {α : Type} (name : String) (field? : Toml.Value → Option α) (absent : α)
    (value : Toml.Value) : Option α :=
  match codec.fields? [name] value with
  | some [none] => some absent
  | some [some value] => field? value
  | _ => none

/-- The chunk size in the value of `arena`. -/
def arena? (value : Toml.Value) : Option Nat :=
  record? codec "chunk_size" chunkSizeOf? Arena.defaultChunkSize value

/-- The configuration in a document, whatever its size. -/
def ofDocument? (document : Toml.Entries) : Option Config :=
  (record? codec "arena" (arena? codec) Arena.defaultChunkSize document.whole).map Config.mk

/-- A record that is a table has the value of the name, if there is one. -/
theorem record?_table {codec : Toml.Codec} (records : codec.Records) {α : Type} {name : String}
    {field? : Toml.Value → Option α} {absent : α} {origin : Toml.Origin}
    {entries : Toml.Entries} :
    record? codec name field? absent (.table origin entries) =
      (entries.find? name).elim (some absent) field? := by
  rw [record?, records.fields?_table, List.map_cons, List.map_nil]
  cases entries.find? name <;> rfl

/-- Reads a valid configuration from the text of a document. -/
def ofText (source : String) : Except ConfigError Config :=
  match (codec.read? source).bind (ofDocument? codec) with
  | none => .error .malformed
  | some config => do
      config.validate
      return config

/-- What is left to ask of a document that was understood is whether the size is valid. -/
theorem ofText_of_document {codec : Toml.Codec} {source : String} {config : Config}
    (found : (codec.read? source).bind (ofDocument? codec) = some config) :
    ofText codec source = config.validate.map fun _ => config := by
  rw [ofText, found]
  dsimp only
  cases config.validate <;> rfl

/-- Reads a valid configuration from the bytes of a file, if there is one. -/
def load (contents : Option ByteArray) : Except ConfigError Config :=
  match contents with
  | none => .error (.unreadable .missing)
  | some bytes =>
      match String.fromUTF8? bytes with
      | none => .error (.unreadable .notText)
      | some source => ofText codec source

/-! ## Writing -/

/-- The document of a configuration. -/
def document (config : Config) : Toml.Entries :=
  [("arena", .table .header [("chunk_size", .integer config.chunkSize)])]

/-- The text of a configuration, if its size can be written. -/
def text? (config : Config) : Option String := codec.print? config.document

end Config

end TreeIR
