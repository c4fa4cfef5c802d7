/-
# TreeIR.Fault -- broken contracts

A `Fault` is a mistake of the code that drives the library: a handle of another
arena, an operator applied to a type it does not accept, a chunk too small for what
it should hold.  It is kept apart from the errors of `TreeIR.Failure`, which a correct
caller has to expect.  Each cause is a constructor and `message` words it.
-/
import TreeIR.Handle
import TreeIR.Operator
import TreeIR.Var

namespace TreeIR

set_option autoImplicit false

inductive Fault
  /-- The unset var can not be bound. -/
  | nullBinding
  /-- An index of 0, or one that reaches the limit. -/
  | indexOutOfRange (number : UInt32)
  /-- Every index from the counter to the largest word is bound. -/
  | indicesExhausted
  | foreignHandle (handle : Handle)
  | oversizedSlot (slotSize chunkSize : Nat)
  /-- A chunk whose values take more bytes than a block of memory can have. -/
  | oversizedChunk
  /-- The next handle would not be one of the 32-bit words below the largest. -/
  | arenaFull
  /-- The next name would not be one of the 32-bit words below the largest. -/
  | internerFull
  /-- A position no signature, function, import or export was registered at. -/
  | foreignEntity
  | foreignName (known : Nat) (name : Name)
  | rejectedOperand (op : Operator) (type : ValueType)
  | accessWidth (bytes : UInt32) (type : ValueType)
  | partialFloat
  | alignment (align : UInt32)
  /-- A signed load that has no bits to extend. -/
  | signedLoad
  | equalLoopLabels
  | missingTarget
  deriving DecidableEq, Repr

namespace Fault

def message : Fault → String
  | nullBinding => "cannot bind the null var"
  | indexOutOfRange number =>
      s!"numeric var {number.toNat} out of range (1..{Var.indexLimit.toNat})"
  | indicesExhausted => "attempt to add with overflow"
  | foreignHandle handle => s!"{handle.text} does not belong to this arena"
  | oversizedSlot slotSize chunkSize =>
      s!"arena slot of {slotSize} bytes exceeds the chunk size of {chunkSize} bytes"
  | oversizedChunk => "capacity overflow"
  | arenaFull => "arena is full"
  | internerFull => "interner is full"
  | foreignEntity => "No element at index"
  | foreignName known name =>
      s!"index out of bounds: the len is {known} but the index is {name.position}"
  | rejectedOperand op type => s!"{op.name} cannot be applied to {type.text}"
  | accessWidth bytes type => s!"cannot access {bytes.toNat} bytes as {type.text}"
  | partialFloat => "floats are accessed whole"
  | alignment align => s!"alignment {align.toNat} is not a power of two"
  | signedLoad => "only partial-width integer loads can be signed"
  | equalLoopLabels => "loop exit and continue labels must differ"
  | missingTarget => "break needs a target label"

/-- Goes on if the condition holds. -/
def ensure (condition : Bool) (fault : Fault) : Except Fault Unit :=
  if condition then .ok () else .error fault

theorem ensure_eq_ok_iff {condition : Bool} {fault : Fault} :
    ensure condition fault = .ok () ↔ condition = true := by
  unfold ensure
  split <;> simp_all

end Fault

end TreeIR
