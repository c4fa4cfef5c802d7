/-
# TreeIR.Proofs.ConfigText -- a configuration is read back from its own text

The document of a configuration is one table with one integer, so a codec that can print writes it
exactly if the size has 64 bits with a sign (`text?_eq_none`) and finds it again in what it wrote
(`exists_text?`).  The names under which the reader looks are those the document has
(`ofDocument?_of_alike`), so the size that was written is found, the default or not.  Only then the
size is looked at: a valid configuration comes back, and one that is too small for a node is refused
with the size that was read (`ofText_of_found`).
-/
import TreeIR.Config.File
import TreeIR.Proofs.TomlWriter

namespace TreeIR

set_option autoImplicit false

-- Powers of naturals are the core library's, whatever else is in scope.
attribute [local instance (2000)] instPowNat

namespace Config

open Toml (integerLimit)

variable {codec : Toml.Codec} {config : Config} {text : String}

/-! ## The document of a configuration -/

/-- The reader looks for the setting where the document has it. -/
theorem ofDocument?_of_alike (records : codec.Records) {document : Toml.Entries}
    (alike : document.Alike config.document) : ofDocument? codec document = some config := by
  have shows := alike ["arena", "chunk_size"]
  -- An integer is to be found there, so `arena` is a table and has it as the value of the key.
  obtain ⟨value, reached, complete⟩ := Option.map_eq_some_iff.1 shows
  obtain ⟨arena, found, reached⟩ := Option.bind_eq_some_iff.1 reached
  have isSize : value = .integer config.chunkSize := Toml.Value.eq_of_complete? complete
  cases arena with
  | table origin entries =>
    obtain ⟨inner, inside, ⟨⟩⟩ := Option.bind_eq_some_iff.1 reached
    rw [ofDocument?, Toml.Entries.whole, record?_table records, found, Option.elim_some, arena?,
      record?_table records, inside, Option.elim_some, isSize]
    rfl
  | _ => cases reached

/-- A size up to the largest integer of a document is written, and is what the text says. -/
theorem exists_text? (prints : codec.Prints) (small : config.chunkSize < integerLimit) :
    ∃ text, config.text? codec = some text ∧ (codec.read? text).bind (ofDocument? codec) = some config := by
  have fits : Toml.IsInt64 config.chunkSize := ⟨by omega, Int.ofNat_lt.2 small⟩
  have names : Toml.BareKeys [("arena", [("chunk_size", (config.chunkSize : Int))])] :=
    ⟨by simpa using (by decide : Toml.BareKey "arena".toList), List.nodup_singleton _⟩
  have keys : Toml.BareKeys [("chunk_size", (config.chunkSize : Int))] :=
    ⟨by simpa using (by decide : Toml.BareKey "chunk_size".toList), List.nodup_singleton _⟩
  obtain ⟨text, document, written, read, alike⟩ :=
    prints.readBack names (by simpa using keys) (by simpa using fits)
  have found := ofDocument?_of_alike prints.toRecords alike
  exact ⟨text, written, by rw [read, Option.bind_some, found]⟩

example :
    (⟨65536⟩ : Config).text? Toml.codec = some "[arena]\nchunk_size = 65536\n" := by
  decide +kernel

theorem text?_eq_none (prints : codec.Prints) (large : integerLimit ≤ config.chunkSize) :
    config.text? codec = none := by
  refine prints.refused fun range => ?_
  have fits : Toml.IsInt64 config.chunkSize := range ["arena", "chunk_size"] _ rfl
  exact absurd (Int.ofNat_lt.1 fits.2) (Nat.not_lt.2 large)

/-! ## Reading it -/

/-- Reading what stands for a configuration comes down to what is valid. -/
theorem ofText_of_found (found : (codec.read? text).bind (ofDocument? codec) = some config) :
    ofText codec text =
      if config.chunkSize < slotSize Node then
        .error (.chunkTooSmall config.chunkSize (slotSize Node))
      else .ok config := by
  rw [ofText_of_document found, validate]
  split <;> rfl

/-- A size within the integers of a document is written, and its text is read as this size: the
configuration comes back if the size is valid, and is refused for its size otherwise.  Written
again it is the same text.  Larger sizes have no text. -/
theorem text_round_trip (prints : codec.Prints) (config : Config) :
    (config.chunkSize ≤ 2 ^ (63 : Nat) - 1 →
      ∃ text, config.text? codec = some text ∧
        (slotSize Node ≤ config.chunkSize → ofText codec text = .ok config) ∧
        (config.chunkSize < slotSize Node →
          ofText codec text = .error (.chunkTooSmall config.chunkSize (slotSize Node))) ∧
        ∀ read, ofText codec text = .ok read → read.text? codec = some text) ∧
    (2 ^ (63 : Nat) - 1 < config.chunkSize → config.text? codec = none) := by
  constructor
  · intro within
    have small : config.chunkSize < integerLimit := Nat.lt_of_le_pred (by decide) within
    obtain ⟨text, written, found⟩ := exists_text? prints small
    have outcome := ofText_of_found found
    refine ⟨text, written, ?valid, ?tooSmall, ?again⟩
    case valid =>
      intro fits
      rw [outcome, if_neg (Nat.not_lt.2 fits)]
    case tooSmall =>
      intro tight
      rw [outcome, if_pos tight]
    case again =>
      intro read isRead
      rw [outcome] at isRead
      split at isRead
      · cases isRead
      · cases isRead
        exact written
  · intro beyond
    exact text?_eq_none prints (Nat.le_of_pred_lt beyond)

/-- With the reader and the writer of this library. -/
theorem text_round_trip_of_sizes :
    Toml.codec.Prints ∧
    (∃ text, (⟨65536⟩ : Config).text? Toml.codec = some text ∧
      ofText Toml.codec text = .ok ⟨65536⟩ ∧
      ∀ read, ofText Toml.codec text = .ok read → read.text? Toml.codec = some text) ∧
    (∃ text, (⟨1⟩ : Config).text? Toml.codec = some text ∧
      ofText Toml.codec text = .error (.chunkTooSmall 1 (slotSize Node))) ∧
    (⟨2 ^ (63 : Nat)⟩ : Config).text? Toml.codec = none := by
  have prints := Toml.codec_prints
  refine ⟨prints, ?_, ?_, (text_round_trip prints ⟨2 ^ (63 : Nat)⟩).2 (by decide)⟩
  · obtain ⟨text, written, valid, -, again⟩ := (text_round_trip prints ⟨65536⟩).1 (by decide)
    exact ⟨text, written, valid (by decide), again⟩
  · obtain ⟨text, written, -, tooSmall, -⟩ := (text_round_trip prints ⟨1⟩).1 (by decide)
    exact ⟨text, written, tooSmall (by decide)⟩

end Config

end TreeIR
