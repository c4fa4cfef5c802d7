/-
# TreeIR.Config -- settings of a program

The one setting is the chunk size of the node arena.  A configuration is valid exactly
if a chunk has room for one node; nothing else about the number matters here.
Reading configurations from text is in `TreeIR.Config.File`.
-/
import TreeIR.Node

namespace TreeIR

set_option autoImplicit false

structure Config where
  chunkSize : Nat
  deriving DecidableEq, Repr

/-- Why the bytes of a configuration can not be had as text. -/
inductive ReadFailure
  | missing
  | notText
  deriving DecidableEq, Repr

inductive ConfigError
  | unreadable (cause : ReadFailure)
  | malformed
  | chunkTooSmall (chunkSize required : Nat)
  deriving DecidableEq, Repr

namespace ReadFailure

def text : ReadFailure → String
  | missing => "No such file or directory (os error 2)"
  | notText => "stream did not contain valid UTF-8"

end ReadFailure

namespace ConfigError

/-- The message, without the place and cause of a syntax error. -/
def message : ConfigError → String
  | unreadable cause => s!"failed to read config: {cause.text}"
  | malformed => "invalid config"
  | chunkTooSmall chunkSize required =>
      s!"arena chunk size {chunkSize} is smaller than one expression slot ({required} bytes)"

end ConfigError

namespace Config

instance : Inhabited Config := ⟨⟨Arena.defaultChunkSize⟩⟩

/-- Refuses a chunk size that has no room for a single node. -/
def validate (config : Config) : Except ConfigError Unit :=
  if config.chunkSize < slotSize Node then
    .error (.chunkTooSmall config.chunkSize (slotSize Node))
  else .ok ()

theorem validate_eq_ok_iff {config : Config} :
    config.validate = .ok () ↔ slotSize Node ≤ config.chunkSize := by
  unfold validate
  split <;> simp_all

end Config

end TreeIR
