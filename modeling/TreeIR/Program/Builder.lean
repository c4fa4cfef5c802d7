/-
# TreeIR.Program.Builder -- making nodes for producers

One operation for each kind of node, with the parts of the node as its arguments.  Each
asks of these parts what the contract of the kind asks, and appends the node if they
keep it; a part that is the handle of another node may lead anywhere, or nowhere.
`Program.build` takes a node apart and makes it again through the operation of its kind.
-/
import TreeIR.Node.Contract
import TreeIR.Program.Nodes

namespace TreeIR

set_option autoImplicit false

namespace Builder

open Program (alloc)

/-! ## Control flow -/

def nop : Action NodeId := alloc .nop

def block (label : Var) (list : List NodeId) : Action NodeId := alloc (.block label list)

def cond (condition ifTrue : NodeId) (ifFalse : Option NodeId) : Action NodeId :=
  alloc (.cond condition ifTrue ifFalse)

def loop (exitLabel continueLabel : Var) (body : NodeId) : Action NodeId := do
  Action.require (Node.checkLoopLabels exitLabel continueLabel)
  alloc (.loop exitLabel continueLabel body)

def marker (label : Var) : Action NodeId := alloc (.marker label)

def branch (target : Var) (condition : Option NodeId) : Action NodeId := do
  Action.require (Node.checkTarget target)
  alloc (.branch target condition)

def switch (label : Var) (value : NodeId) (cases : List SwitchCase) (fallback : Option NodeId) :
    Action NodeId :=
  alloc (.switch label value cases fallback)

def call (target : Var) (operands : List NodeId) : Action NodeId := alloc (.call target operands)

def callImport (target : Var) (operands : List NodeId) : Action NodeId :=
  alloc (.callImport target operands)

def callIndirect (signature : Var) (target : NodeId) (operands : List NodeId) : Action NodeId :=
  alloc (.callIndirect signature target operands)

/-! ## Locals and memory -/

def getLocal (slot : Var) : Action NodeId := alloc (.getLocal slot)

def setLocal (slot : Var) (value : NodeId) : Action NodeId := alloc (.setLocal slot value)

/-- The sign is looked at only after the access. -/
def load (type : ValueType) (bytes : UInt32) (signed : Bool) (offset align : UInt32)
    (ptr : NodeId) : Action NodeId := do
  Action.require (Node.checkAccess type bytes align)
  Action.require (Node.checkSign type bytes signed)
  alloc (.load type bytes signed offset align ptr)

def store (type : ValueType) (bytes offset align : UInt32) (ptr value : NodeId) :
    Action NodeId := do
  Action.require (Node.checkAccess type bytes align)
  alloc (.store type bytes offset align ptr value)

/-! ## Constants and operators -/

def const (value : Literal) : Action NodeId := alloc (.const value)

def i32Const (value : Int32) : Action NodeId := const (.i32 value)

def i64Const (value : Int64) : Action NodeId := const (.i64 value)

def f32Const (word : UInt32) : Action NodeId := const (.f32 word)

def f64Const (word : UInt64) : Action NodeId := const (.f64 word)

def unary (op : UnaryOp) (type : ValueType) (value : NodeId) : Action NodeId := do
  Action.require (Node.checkOperand (.unary op) type)
  alloc (.unary op type value)

def binary (op : BinaryOp) (type : ValueType) (left right : NodeId) : Action NodeId := do
  Action.require (Node.checkOperand (.binary op) type)
  alloc (.binary op type left right)

def compare (op : RelationalOp) (type : ValueType) (left right : NodeId) : Action NodeId := do
  Action.require (Node.checkOperand (.relational op) type)
  alloc (.compare op type left right)

def convert (op : ConvertOp) (value : NodeId) : Action NodeId := alloc (.convert op value)

def host (op : HostOp) (operands : List NodeId) : Action NodeId := alloc (.host op operands)

end Builder

namespace Program

/-- Appends a node through the operation of its kind, constants through that of their type. -/
def build : Node → Action NodeId
  | .nop => Builder.nop
  | .block label list => Builder.block label list
  | .cond condition ifTrue ifFalse => Builder.cond condition ifTrue ifFalse
  | .loop exitLabel continueLabel body => Builder.loop exitLabel continueLabel body
  | .marker label => Builder.marker label
  | .branch target condition => Builder.branch target condition
  | .switch label value cases fallback => Builder.switch label value cases fallback
  | .call target operands => Builder.call target operands
  | .callImport target operands => Builder.callImport target operands
  | .callIndirect signature target operands => Builder.callIndirect signature target operands
  | .getLocal slot => Builder.getLocal slot
  | .setLocal slot value => Builder.setLocal slot value
  | .load type bytes signed offset align ptr => Builder.load type bytes signed offset align ptr
  | .store type bytes offset align ptr value => Builder.store type bytes offset align ptr value
  | .const (.i32 value) => Builder.i32Const value
  | .const (.i64 value) => Builder.i64Const value
  | .const (.f32 word) => Builder.f32Const word
  | .const (.f64 word) => Builder.f64Const word
  | .unary op type value => Builder.unary op type value
  | .binary op type left right => Builder.binary op type left right
  | .compare op type left right => Builder.compare op type left right
  | .convert op value => Builder.convert op value
  | .host op operands => Builder.host op operands

end Program

end TreeIR
