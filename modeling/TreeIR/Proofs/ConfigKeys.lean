/-
# TreeIR.Proofs.ConfigKeys -- one key decides a configuration

Of a document in which `arena` is missing or a table, a configuration depends on the value at
`arena.chunk_size` and on nothing else (`ofText_eq`): `ofSetting` is the whole of it.  Hence that
value alone tells the outcomes apart, and documents that agree in it are read alike.

Where a codec reads documents as their statements say, what is at a key is what the first statement
says that says something about the key (`Toml.told`), under a header, with a dotted key or in an
inline table.  So it does not matter either how the setting is written or what other statements say.
-/
import Mathlib
import TreeIR.Config.File
import TreeIR.Proofs.TomlRange

namespace TreeIR

set_option autoImplicit false

-- Powers of naturals are the core library's, whatever else is in scope.
attribute [local instance (2000)] instPowNat

namespace Config

variable {codec : Toml.Codec} {source : String} {document : Toml.Entries} {value : Toml.Value}
  {statements : List Toml.Statement}

/-! ## The one setting -/

/-- The path of the chunk size. -/
def settingPath : List String := ["arena", "chunk_size"]

/-- The chunk size that a document sets, of whatever kind it is. -/
def setting? (document : Toml.Entries) : Option Toml.Value := document.whole.at? settingPath

/-- A text is a document in which `arena` is missing or a table. -/
structure Documents (codec : Toml.Codec) (source : String) (document : Toml.Entries) : Prop where
  read : codec.read? source = some document
  table : ∀ value, document.find? "arena" = some value →
    ∃ origin entries, value = .table origin entries

/-- The configuration with a setting, whatever its size, or without one. -/
def ofSetting? (setting : Option Toml.Value) : Option Config :=
  setting.elim (some default) fun value => (chunkSizeOf? value).map Config.mk

/-- What a setting, or its absence, comes to. -/
def ofSetting (setting : Option Toml.Value) : Except ConfigError Config :=
  match ofSetting? setting with
  | none => .error .malformed
  | some config => config.validate.map fun _ => config

namespace Documents

theorem rowFree (documents : Documents codec source document) :
    document.whole.RowFree settingPath := by
  intro arena found
  obtain ⟨origin, entries, rfl⟩ := documents.table arena found
  exact fun _ _ => trivial

theorem ofDocument?_eq (records : codec.Records) (documents : Documents codec source document) :
    ofDocument? codec document = ofSetting? (setting? document) := by
  rw [ofDocument?, Toml.Entries.whole, record?_table records, setting?, Toml.Entries.whole,
    settingPath, Toml.Value.at?]
  cases found : document.find? "arena" with
  | none => rfl
  | some arena =>
    obtain ⟨origin, entries, rfl⟩ := documents.table arena found
    rw [Option.elim_some, arena?, record?_table records, Option.bind_some, Toml.Value.at?]
    cases Toml.Entries.find? entries "chunk_size" <;> rfl

/-- Nothing but the setting is looked at. -/
theorem ofText_eq (records : codec.Records) (documents : Documents codec source document) :
    ofText codec source = ofSetting (setting? document) := by
  have configures : (codec.read? source).bind (ofDocument? codec) =
      ofSetting? (setting? document) := by
    rw [documents.read, Option.bind_some, documents.ofDocument?_eq records]
  rw [ofSetting]
  cases understood : ofSetting? (setting? document) with
  | none => rw [ofText, configures, understood]
  | some config => exact ofText_of_document (configures.trans understood)

/-- The setting is what the statements say about its path. -/
theorem told_eq (reads : codec.Reads) (documents : Documents codec source document)
    (isText : codec.statements? source = some statements) :
    Toml.told settingPath statements = (setting? document).map Toml.Value.complete? := by
  obtain ⟨_, isStatements, built⟩ := Toml.Codec.read?_eq_some_iff.1 documents.read
  cases isText.symm.trans isStatements
  exact (reads.shown_eq built documents.rowFree).symm

end Documents

/-! ## What a setting comes to -/

theorem ofSetting_none : ofSetting none = .ok default := by
  have valid : (default : Config).validate = .ok () :=
    validate_eq_ok_iff.2 (by decide : slotSize Node ≤ Arena.defaultChunkSize)
  show (default : Config).validate.map (fun _ => default) = .ok default
  rw [valid]
  rfl

theorem ofSetting_of_size {size : Nat} (isSize : chunkSizeOf? value = some size) :
    ofSetting (some value) =
      if size < slotSize Node then .error (.chunkTooSmall size (slotSize Node))
      else .ok ⟨size⟩ := by
  simp only [ofSetting, ofSetting?, Option.elim_some, isSize, Option.map_some, validate]
  split <;> rfl

theorem ofSetting_of_no_size (noSize : chunkSizeOf? value = none) :
    ofSetting (some value) = .error .malformed := by
  simp only [ofSetting, ofSetting?, Option.elim_some, noSize, Option.map_none]

/-- Something open is no chunk size. -/
theorem chunkSizeOf?_eq (value : Toml.Value) :
    chunkSizeOf? value = value.complete?.bind chunkSizeOf? := by
  unfold Toml.Value.complete?
  split
  case isTrue opened => cases value <;> first | rfl | cases opened
  case isFalse => rfl

/-- So settings that show alike come to the same. -/
theorem ofSetting_congr {first second : Option Toml.Value}
    (alike : first.map Toml.Value.complete? = second.map Toml.Value.complete?) :
    ofSetting first = ofSetting second := by
  cases first with
  | none => rw [Option.map_eq_none_iff.1 alike.symm]
  | some first =>
    obtain ⟨second, rfl, shows⟩ := Option.map_eq_some_iff.1 alike.symm
    rw [ofSetting, ofSetting, ofSetting?, ofSetting?, Option.elim_some, Option.elim_some,
      chunkSizeOf?_eq first, chunkSizeOf?_eq second, shows]

theorem chunkSizeOf?_eq_some_iff {size : Nat} :
    chunkSizeOf? value = some size ↔ value = .integer size := by
  cases value with
  | integer n => simp [chunkSizeOf?, Int.mem_toNat?]
  | _ => simp [chunkSizeOf?]

/-! ## The outcomes -/

/-- The value at `arena.chunk_size` of a document, in which `arena` is missing or a table, decides:
without one the configuration is the default, with one that is no integer from zero to `2 ^ 63 - 1`
the document is refused, and a size is accepted if it has room for a node.

Documents with the same setting are read alike, and so are texts that say the same about it,
whatever else they say, and in particular texts that write the setting in another way. -/
theorem setting_decides (reads : codec.Reads) (documents : Documents codec source document) :
    (setting? document = none → ofText codec source = .ok default) ∧
    (∀ value, setting? document = some value →
      (∀ size : Nat, size ≤ 2 ^ (63 : Nat) - 1 → value ≠ .integer size) →
      ofText codec source = .error .malformed) ∧
    (∀ size : Nat, setting? document = some (.integer size) →
      size ≤ 2 ^ (63 : Nat) - 1 ∧
      (size < slotSize Node →
        ofText codec source = .error (.chunkTooSmall size (slotSize Node))) ∧
      (slotSize Node ≤ size → ofText codec source = .ok ⟨size⟩)) ∧
    ∀ other otherDocument, Documents codec other otherDocument →
      (setting? otherDocument = setting? document → ofText codec other = ofText codec source) ∧
      ∀ otherStatements, codec.statements? other = some otherStatements →
        (∀ statements, codec.statements? source = some statements →
          Toml.told settingPath otherStatements = Toml.told settingPath statements →
          ofText codec other = ofText codec source) ∧
        ∀ value, setting? document = some value →
          ∀ form ∈ Toml.spellings "arena" "chunk_size" value, ∀ rest,
            otherStatements = form ++ rest → ofText codec other = ofText codec source := by
  have bounded {size : Nat} (isSize : setting? document = some (.integer size)) :
      size ≤ 2 ^ (63 : Nat) - 1 :=
    Nat.le_pred_of_lt (Int.ofNat_lt.1 (reads.inRange documents.read settingPath size isSize).2)
  refine ⟨?missing, ?refused, ?size, ?alike⟩
  case missing =>
    intro missing
    rw [documents.ofText_eq reads.toRecords, missing, ofSetting_none]
  case refused =>
    intro value isSet refused
    rw [documents.ofText_eq reads.toRecords, isSet]
    refine ofSetting_of_no_size (Option.eq_none_iff_forall_ne_some.2 fun size isSize => ?_)
    cases chunkSizeOf?_eq_some_iff.1 isSize
    exact refused size (bounded isSet) rfl
  case size =>
    intro size isSet
    rw [documents.ofText_eq reads.toRecords, isSet, ofSetting_of_size (chunkSizeOf?_eq_some_iff.2 rfl)]
    exact ⟨bounded isSet, fun tight => if_pos tight, fun fits => if_neg (Nat.not_lt.2 fits)⟩
  case alike =>
    intro other otherDocument others
    have alike (same : (setting? otherDocument).map Toml.Value.complete? =
        (setting? document).map Toml.Value.complete?) :
        ofText codec other = ofText codec source := by
      rw [documents.ofText_eq reads.toRecords, others.ofText_eq reads.toRecords, ofSetting_congr same]
    refine ⟨fun same => alike (by rw [same]), fun otherStatements isText => ⟨?told, ?spelled⟩⟩
    case told =>
      intro statements isSource same
      rw [others.told_eq reads isText, documents.told_eq reads isSource] at same
      exact alike same
    case spelled =>
      rintro value isSet form spelled rest rfl
      refine alike ((others.told_eq reads isText).symm.trans ?_)
      rw [isSet]
      exact Toml.told_of_spelling spelled

/-- With the reader of this library. -/
theorem setting_decides_of_spellings :
    Toml.codec.Reads ∧
    ofText Toml.codec "[arena]\nspare = 2\nchunk_size = 65536\n" = .ok ⟨65536⟩ ∧
    ofText Toml.codec "arena.chunk_size = 65536\n[[chunk_size]]\narena = false\n" =
      .ok ⟨65536⟩ ∧
    ofText Toml.codec "arena = \x7bchunk_size = 65536\x7d\n" = .ok ⟨65536⟩ ∧
    ofText Toml.codec "[arena]\nchunk_size = 1\n" = .error (.chunkTooSmall 1 (slotSize Node)) ∧
    ofText Toml.codec "[arena]\nchunk_size = -1\n" = .error .malformed ∧
    ofText Toml.codec "chunk_size = 1\nname = \"x\"\n" = .ok default := by
  have reads := Toml.codec_reads
  have header : Documents Toml.codec "[arena]\nspare = 2\nchunk_size = 65536\n"
      [("arena", .table .header [("spare", .integer 2), ("chunk_size", .integer 65536)])] :=
    ⟨rfl, by rintro _ ⟨⟩; exact ⟨_, _, rfl⟩⟩
  have dotted : Documents Toml.codec "arena.chunk_size = 65536\n[[chunk_size]]\narena = false\n"
      [("arena", .table .dotted [("chunk_size", .integer 65536)]),
        ("chunk_size", .rows [[("arena", .boolean false)]])] :=
    ⟨rfl, by rintro _ ⟨⟩; exact ⟨_, _, rfl⟩⟩
  have inline : Documents Toml.codec "arena = \x7bchunk_size = 65536\x7d\n"
      [("arena", .table .inline [("chunk_size", .integer 65536)])] :=
    ⟨rfl, by rintro _ ⟨⟩; exact ⟨_, _, rfl⟩⟩
  have tiny : Documents Toml.codec "[arena]\nchunk_size = 1\n"
      [("arena", .table .header [("chunk_size", .integer 1)])] :=
    ⟨rfl, by rintro _ ⟨⟩; exact ⟨_, _, rfl⟩⟩
  have negative : Documents Toml.codec "[arena]\nchunk_size = -1\n"
      [("arena", .table .header [("chunk_size", .integer (-1))])] :=
    ⟨rfl, by rintro _ ⟨⟩; exact ⟨_, _, rfl⟩⟩
  have elsewhere : Documents Toml.codec "chunk_size = 1\nname = \"x\"\n"
      [("chunk_size", .integer 1), ("name", .string "x")] := ⟨rfl, nofun⟩
  obtain ⟨-, -, size, alike⟩ := setting_decides reads header
  have large := (size 65536 rfl).2.2 (by decide)
  refine ⟨reads, large, ((alike _ _ dotted).1 rfl).trans large, ?_,
    ((setting_decides reads tiny).2.2.1 1 rfl).2.1 (by decide),
    (setting_decides reads negative).2.1 _ rfl nofun, (setting_decides reads elsewhere).1 rfl⟩
  have inLast := ((alike _ _ inline).2 _ rfl).2 _ rfl _ (.tail _ (.tail _ (.head _))) [] rfl
  exact inLast.trans large

end Config

end TreeIR
