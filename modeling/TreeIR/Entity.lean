/-
# TreeIR.Entity -- what a var of a program can be bound to

Signatures, functions and imports are known by their position in order of
registration, from 0 for each kind.  A label is known by the node that declares it and
the role it plays there.
-/
import TreeIR.Node

namespace TreeIR

set_option autoImplicit false

/-- A node together with the role of one of its labels. -/
structure LabelTarget where
  node : NodeId
  role : LabelRole
  deriving DecidableEq, Repr

inductive Entity
  | signature (index : Nat)
  | function (index : Nat)
  | imported (index : Nat)
  | label (target : LabelTarget)
  deriving DecidableEq, Repr

inductive EntityKind
  | signature
  | function
  | imported
  | label
  deriving DecidableEq, Repr

namespace EntityKind

def text : EntityKind → String
  | signature => "type"
  | function => "function"
  | imported => "import"
  | label => "label"

end EntityKind

namespace Entity

def kind : Entity → EntityKind
  | signature _ => .signature
  | function _ => .function
  | imported _ => .imported
  | label _ => .label

end Entity

end TreeIR
