/-
# TreeIR.Node -- the nodes of a function body

A node refers to its children by handle and never holds another node, so nodes can be
shared, changed in place, or left pointing at nothing.  The constructor is the kind.

`children` lists the child slots in order of evaluation.  `labels` lists the labels a
node declares, with the role each one plays; an unset label declares nothing.
-/
import TreeIR.Arena
import TreeIR.Literal

namespace TreeIR

set_option autoImplicit false

/-- The handle of a node in the arena of its program. -/
abbrev NodeId := Handle

/-- One arm of a switch; `fallthrough` goes on into the next arm. -/
structure SwitchCase where
  value : Literal
  body : NodeId
  fallthrough : Bool
  deriving DecidableEq, Repr

/-- What an expression does, over the handles of its parts. -/
inductive Node
  | nop
  /-- Runs a sequence; branching to the label leaves it. -/
  | block (label : Var) (list : List NodeId)
  | cond (condition ifTrue : NodeId) (ifFalse : Option NodeId)
  /-- Branching to `continueLabel` starts over, branching to `exitLabel` leaves. -/
  | loop (exitLabel continueLabel : Var) (body : NodeId)
  /-- A bare branch target. -/
  | marker (label : Var)
  | branch (target : Var) (condition : Option NodeId)
  | switch (label : Var) (value : NodeId) (cases : List SwitchCase) (fallback : Option NodeId)
  | call (target : Var) (operands : List NodeId)
  | callImport (target : Var) (operands : List NodeId)
  /-- Calls through the table a function with the named signature. -/
  | callIndirect (signature : Var) (target : NodeId) (operands : List NodeId)
  | getLocal (slot : Var)
  /-- Writes the local and yields the written value. -/
  | setLocal (slot : Var) (value : NodeId)
  | load (type : ValueType) (bytes : UInt32) (signed : Bool) (offset align : UInt32) (ptr : NodeId)
  | store (type : ValueType) (bytes offset align : UInt32) (ptr value : NodeId)
  | const (value : Literal)
  | unary (op : UnaryOp) (type : ValueType) (value : NodeId)
  | binary (op : BinaryOp) (type : ValueType) (left right : NodeId)
  /-- Compares two values of the type; the result is an `i32`. -/
  | compare (op : RelationalOp) (type : ValueType) (left right : NodeId)
  | convert (op : ConvertOp) (value : NodeId)
  | host (op : HostOp) (operands : List NodeId)
  deriving DecidableEq, Repr

/-- Bytes of a node on a 64-bit platform.  The largest kind is the switch, with a list of cases
(24), a label (8), a handle (4) and one that may be absent (8), in whole words; the kind itself is
told by capacities that no list has and takes no room. -/
def nodeBytes : Nat := 48

instance : StoredSize Node := ⟨nodeBytes⟩

/-! ## Kinds -/

inductive NodeKind
  | nop | block | cond | loop | marker | branch | switch
  | call | callImport | callIndirect | getLocal | setLocal
  | load | store | const | unary | binary | compare | convert | host
  deriving DecidableEq, Repr

def NodeKind.name : NodeKind → String
  | nop => "Nop"
  | block => "Block"
  | cond => "If"
  | loop => "Loop"
  | marker => "Label"
  | branch => "Break"
  | switch => "Switch"
  | call => "Call"
  | callImport => "CallImport"
  | callIndirect => "CallIndirect"
  | getLocal => "GetLocal"
  | setLocal => "SetLocal"
  | load => "Load"
  | store => "Store"
  | const => "Const"
  | unary => "Unary"
  | binary => "Binary"
  | compare => "Compare"
  | convert => "Convert"
  | host => "Host"

/-- What a declared label stands for. -/
inductive LabelRole
  | block
  | loopExit
  | loopContinue
  | marker
  | switch
  deriving DecidableEq, Repr

namespace LabelRole

def all : List LabelRole := [block, loopExit, loopContinue, marker, switch]

def name : LabelRole → String
  | block => "Block"
  | loopExit => "LoopExit"
  | loopContinue => "LoopContinue"
  | marker => "Marker"
  | switch => "Switch"

def ofName? (name : String) : Option LabelRole :=
  all.find? fun role => role.name == name

end LabelRole

namespace Node

def kind : Node → NodeKind
  | nop => .nop
  | block .. => .block
  | cond .. => .cond
  | loop .. => .loop
  | marker _ => .marker
  | branch .. => .branch
  | switch .. => .switch
  | call .. => .call
  | callImport .. => .callImport
  | callIndirect .. => .callIndirect
  | getLocal _ => .getLocal
  | setLocal .. => .setLocal
  | load .. => .load
  | store .. => .store
  | const _ => .const
  | unary .. => .unary
  | binary .. => .binary
  | compare .. => .compare
  | convert .. => .convert
  | host .. => .host

/-! ## Parts -/

/-- The children in order of evaluation. -/
def children : Node → List NodeId
  | nop | marker _ | getLocal _ | const _ => []
  | block _ list => list
  | cond condition ifTrue ifFalse => condition :: ifTrue :: ifFalse.toList
  | loop _ _ body => [body]
  | branch _ condition => condition.toList
  | switch _ value cases fallback => value :: (cases.map SwitchCase.body ++ fallback.toList)
  | call _ operands | callImport _ operands | host _ operands => operands
  | callIndirect _ target operands => target :: operands
  | setLocal _ value | unary _ _ value | convert _ value => [value]
  | load _ _ _ _ _ ptr => [ptr]
  | store _ _ _ _ ptr value => [ptr, value]
  | binary _ _ left right | compare _ _ left right => [left, right]

/-- Every label field with its role, unset ones included. -/
def labelFields : Node → List (Var × LabelRole)
  | block label _ => [(label, .block)]
  | loop exitLabel continueLabel _ => [(exitLabel, .loopExit), (continueLabel, .loopContinue)]
  | marker label => [(label, .marker)]
  | switch label _ _ _ => [(label, .switch)]
  | _ => []

/-- The labels the node declares. -/
def labels (node : Node) : List (Var × LabelRole) :=
  node.labelFields.filter fun declared => !declared.1.isUnset

/-- Whether a branch depends on a condition. -/
def isConditional : Node → Bool
  | branch _ condition => condition.isSome
  | _ => false

/-- The type a comparison yields, whatever it compares. -/
def comparisonType : ValueType := .i32

theorem unset_notMem_labels {node : Node} {role : LabelRole} :
    (Var.unset, role) ∉ node.labels := by
  simp [labels, Var.isUnset]

end Node

end TreeIR
