/-
# TreeIR.Node.Contract -- what a node has to satisfy when it is built

Operators apply only to types of their class.  A memory access moves 1, 2, 4 or 8
bytes, no more than its type has, floats all at once, at an alignment that is a power
of two; a load can extend a sign only where it reads part of an integer.  A loop's two
labels differ unless both are unset, and a branch needs a target.

`check` tests these in this order and reports the first that fails.  It looks at one
node at a time: children may be anything.
-/
import TreeIR.Node

namespace TreeIR

set_option autoImplicit false

-- Powers of naturals are the core library's, whatever else is in scope.
attribute [local instance (2000)] instPowNat

namespace Node

/-- The sizes a memory access can have. -/
def accessSizes : List UInt32 := [1, 2, 4, 8]

def isPowerOfTwo (n : UInt32) : Bool := n.toNat == 2 ^ n.toNat.log2

theorem isPowerOfTwo_iff {n : UInt32} : isPowerOfTwo n = true ↔ ∃ k : Nat, n.toNat = 2 ^ k := by
  constructor
  · exact fun h => ⟨_, eq_of_beq h⟩
  · rintro ⟨k, h⟩
    simp [isPowerOfTwo, h, Nat.log2_two_pow]

/-- The rules loads and stores share. -/
def checkAccess (type : ValueType) (bytes align : UInt32) : Except Fault Unit := do
  Fault.ensure (accessSizes.contains bytes && bytes.toNat ≤ type.byteWidth)
    (.accessWidth bytes type)
  Fault.ensure (type.isInt || bytes.toNat == type.byteWidth) .partialFloat
  Fault.ensure (isPowerOfTwo align) (.alignment align)

/-- Only a load of part of an integer has a sign to extend. -/
def checkSign (type : ValueType) (bytes : UInt32) (signed : Bool) : Except Fault Unit :=
  Fault.ensure (!signed || (type.isInt && bytes.toNat < type.byteWidth)) .signedLoad

def checkOperand (op : Operator) (type : ValueType) : Except Fault Unit :=
  Fault.ensure (op.operands.accepts type) (.rejectedOperand op type)

def checkLoopLabels (exitLabel continueLabel : Var) : Except Fault Unit :=
  Fault.ensure (exitLabel.isUnset || exitLabel != continueLabel) .equalLoopLabels

def checkTarget (target : Var) : Except Fault Unit :=
  Fault.ensure (!target.isUnset) .missingTarget

/-- The first rule the node breaks, if it breaks one. -/
def check : Node → Except Fault Unit
  | loop exitLabel continueLabel _ => checkLoopLabels exitLabel continueLabel
  | branch target _ => checkTarget target
  | load type bytes signed _ align _ => do
      checkAccess type bytes align
      checkSign type bytes signed
  | store type bytes _ align _ _ => checkAccess type bytes align
  | unary op type _ => checkOperand (.unary op) type
  | binary op type _ _ => checkOperand (.binary op) type
  | compare op type _ _ => checkOperand (.relational op) type
  | _ => .ok ()

end Node

end TreeIR
