/-
# TreeIR.Operator -- the operators a node can carry

Five families.  Unary, binary and relational operators are generic in the type they
work on, and `OperandClass` says which types that may be; a conversion fixes both its
source and its target; a host operator asks the environment and has no operand type.

Each family lists its members in `all`, in their order, and `name` is the bare name
that messages and files use; `ofName?` reads it back.
-/
import TreeIR.ValueType

namespace TreeIR

set_option autoImplicit false

/-! ## Operand classes -/

/-- The value types an operator may be applied to. -/
inductive OperandClass
  | int
  | float
  | any
  deriving DecidableEq, Repr

namespace OperandClass

def name : OperandClass → String
  | int => "Int"
  | float => "Float"
  | any => "Any"

/-- `any` means any value: no class accepts `void`. -/
def accepts : OperandClass → ValueType → Bool
  | int, ty => ty.isInt
  | float, ty => ty.isFloat
  | any, ty => ty.isInt || ty.isFloat

/-- The accepted types in ascending order. -/
def accepted (operands : OperandClass) : List ValueType :=
  ValueType.all.filter operands.accepts

theorem accepts_void (operands : OperandClass) : operands.accepts .void = false := by
  cases operands <;> rfl

end OperandClass

/-! ## Unary operators -/

inductive UnaryOp
  | clz | ctz | popcnt
  | neg | abs | ceil | floor | trunc | nearest | sqrt
  deriving DecidableEq, Repr, Ord

namespace UnaryOp

def all : List UnaryOp :=
  [clz, ctz, popcnt, neg, abs, ceil, floor, trunc, nearest, sqrt]

def name : UnaryOp → String
  | clz => "Clz"
  | ctz => "Ctz"
  | popcnt => "Popcnt"
  | neg => "Neg"
  | abs => "Abs"
  | ceil => "Ceil"
  | floor => "Floor"
  | trunc => "Trunc"
  | nearest => "Nearest"
  | sqrt => "Sqrt"

def ofName? (name : String) : Option UnaryOp :=
  all.find? fun op => op.name == name

/-- Counting bits is for integers, the rest is arithmetic on floats. -/
def operands : UnaryOp → OperandClass
  | clz | ctz | popcnt => .int
  | neg | abs | ceil | floor | trunc | nearest | sqrt => .float

theorem ofName?_name (op : UnaryOp) : ofName? op.name = some op := by
  cases op <;> decide

end UnaryOp

/-! ## Binary operators -/

inductive BinaryOp
  | add | sub | mul
  | divS | divU | remS | remU | and | or | xor | shl | shrU | shrS
  | div | copySign | min | max
  deriving DecidableEq, Repr, Ord

namespace BinaryOp

def all : List BinaryOp :=
  [add, sub, mul, divS, divU, remS, remU, and, or, xor, shl, shrU, shrS, div, copySign, min, max]

def name : BinaryOp → String
  | add => "Add"
  | sub => "Sub"
  | mul => "Mul"
  | divS => "DivS"
  | divU => "DivU"
  | remS => "RemS"
  | remU => "RemU"
  | and => "And"
  | or => "Or"
  | xor => "Xor"
  | shl => "Shl"
  | shrU => "ShrU"
  | shrS => "ShrS"
  | div => "Div"
  | copySign => "CopySign"
  | min => "Min"
  | max => "Max"

def ofName? (name : String) : Option BinaryOp :=
  all.find? fun op => op.name == name

/-- Division is split by sign for integers and single for floats. -/
def operands : BinaryOp → OperandClass
  | add | sub | mul => .any
  | divS | divU | remS | remU | and | or | xor | shl | shrU | shrS => .int
  | div | copySign | min | max => .float

theorem ofName?_name (op : BinaryOp) : ofName? op.name = some op := by
  cases op <;> decide

end BinaryOp

/-! ## Relational operators -/

inductive RelationalOp
  | eq | ne
  | ltS | ltU | leS | leU | gtS | gtU | geS | geU
  | lt | le | gt | ge
  deriving DecidableEq, Repr, Ord

namespace RelationalOp

def all : List RelationalOp :=
  [eq, ne, ltS, ltU, leS, leU, gtS, gtU, geS, geU, lt, le, gt, ge]

def name : RelationalOp → String
  | eq => "Eq"
  | ne => "Ne"
  | ltS => "LtS"
  | ltU => "LtU"
  | leS => "LeS"
  | leU => "LeU"
  | gtS => "GtS"
  | gtU => "GtU"
  | geS => "GeS"
  | geU => "GeU"
  | lt => "Lt"
  | le => "Le"
  | gt => "Gt"
  | ge => "Ge"

def ofName? (name : String) : Option RelationalOp :=
  all.find? fun op => op.name == name

/-- Integer orders are split by sign; equality is one operator for all values. -/
def operands : RelationalOp → OperandClass
  | eq | ne => .any
  | ltS | ltU | leS | leU | gtS | gtU | geS | geU => .int
  | lt | le | gt | ge => .float

theorem ofName?_name (op : RelationalOp) : ofName? op.name = some op := by
  cases op <;> decide

end RelationalOp

/-! ## Conversions -/

/-- A conversion, named for its target, what it does, and its source. -/
inductive ConvertOp
  | i64ExtendSI32 | i64ExtendUI32 | i32WrapI64
  | i32TruncSF32 | i32TruncUF32 | i32TruncSF64 | i32TruncUF64
  | i64TruncSF32 | i64TruncUF32 | i64TruncSF64 | i64TruncUF64
  | i32ReinterpretF32 | i64ReinterpretF64
  | f32ConvertSI32 | f32ConvertUI32 | f32ConvertSI64 | f32ConvertUI64
  | f64ConvertSI32 | f64ConvertUI32 | f64ConvertSI64 | f64ConvertUI64
  | f64PromoteF32 | f32DemoteF64
  | f32ReinterpretI32 | f64ReinterpretI64
  deriving DecidableEq, Repr, Ord

namespace ConvertOp

def all : List ConvertOp :=
  [i64ExtendSI32, i64ExtendUI32, i32WrapI64,
    i32TruncSF32, i32TruncUF32, i32TruncSF64, i32TruncUF64,
    i64TruncSF32, i64TruncUF32, i64TruncSF64, i64TruncUF64,
    i32ReinterpretF32, i64ReinterpretF64,
    f32ConvertSI32, f32ConvertUI32, f32ConvertSI64, f32ConvertUI64,
    f64ConvertSI32, f64ConvertUI32, f64ConvertSI64, f64ConvertUI64,
    f64PromoteF32, f32DemoteF64, f32ReinterpretI32, f64ReinterpretI64]

def name : ConvertOp → String
  | i64ExtendSI32 => "I64ExtendSI32"
  | i64ExtendUI32 => "I64ExtendUI32"
  | i32WrapI64 => "I32WrapI64"
  | i32TruncSF32 => "I32TruncSF32"
  | i32TruncUF32 => "I32TruncUF32"
  | i32TruncSF64 => "I32TruncSF64"
  | i32TruncUF64 => "I32TruncUF64"
  | i64TruncSF32 => "I64TruncSF32"
  | i64TruncUF32 => "I64TruncUF32"
  | i64TruncSF64 => "I64TruncSF64"
  | i64TruncUF64 => "I64TruncUF64"
  | i32ReinterpretF32 => "I32ReinterpretF32"
  | i64ReinterpretF64 => "I64ReinterpretF64"
  | f32ConvertSI32 => "F32ConvertSI32"
  | f32ConvertUI32 => "F32ConvertUI32"
  | f32ConvertSI64 => "F32ConvertSI64"
  | f32ConvertUI64 => "F32ConvertUI64"
  | f64ConvertSI32 => "F64ConvertSI32"
  | f64ConvertUI32 => "F64ConvertUI32"
  | f64ConvertSI64 => "F64ConvertSI64"
  | f64ConvertUI64 => "F64ConvertUI64"
  | f64PromoteF32 => "F64PromoteF32"
  | f32DemoteF64 => "F32DemoteF64"
  | f32ReinterpretI32 => "F32ReinterpretI32"
  | f64ReinterpretI64 => "F64ReinterpretI64"

def ofName? (name : String) : Option ConvertOp :=
  all.find? fun op => op.name == name

/-- The type of the operand. -/
def source : ConvertOp → ValueType
  | i64ExtendSI32 | i64ExtendUI32 | f32ConvertSI32 | f32ConvertUI32
  | f64ConvertSI32 | f64ConvertUI32 | f32ReinterpretI32 => .i32
  | i32WrapI64 | f32ConvertSI64 | f32ConvertUI64
  | f64ConvertSI64 | f64ConvertUI64 | f64ReinterpretI64 => .i64
  | i32TruncSF32 | i32TruncUF32 | i64TruncSF32 | i64TruncUF32
  | i32ReinterpretF32 | f64PromoteF32 => .f32
  | i32TruncSF64 | i32TruncUF64 | i64TruncSF64 | i64TruncUF64
  | i64ReinterpretF64 | f32DemoteF64 => .f64

/-- The type of the result. -/
def target : ConvertOp → ValueType
  | i32WrapI64 | i32TruncSF32 | i32TruncUF32 | i32TruncSF64 | i32TruncUF64
  | i32ReinterpretF32 => .i32
  | i64ExtendSI32 | i64ExtendUI32 | i64TruncSF32 | i64TruncUF32
  | i64TruncSF64 | i64TruncUF64 | i64ReinterpretF64 => .i64
  | f32ConvertSI32 | f32ConvertUI32 | f32ConvertSI64 | f32ConvertUI64
  | f32DemoteF64 | f32ReinterpretI32 => .f32
  | f64ConvertSI32 | f64ConvertUI32 | f64ConvertSI64 | f64ConvertUI64
  | f64PromoteF32 | f64ReinterpretI64 => .f64

/-- A reinterpretation keeps the bits and changes only their reading. -/
def isReinterpret : ConvertOp → Bool
  | i32ReinterpretF32 | i64ReinterpretF64 | f32ReinterpretI32 | f64ReinterpretI64 => true
  | _ => false

theorem ofName?_name (op : ConvertOp) : ofName? op.name = some op := by
  cases op <;> decide

end ConvertOp

/-! ## Host operators -/

inductive HostOp
  | pageSize | memorySize | growMemory | hasFeature
  deriving DecidableEq, Repr, Ord

namespace HostOp

def all : List HostOp := [pageSize, memorySize, growMemory, hasFeature]

def name : HostOp → String
  | pageSize => "PageSize"
  | memorySize => "MemorySize"
  | growMemory => "GrowMemory"
  | hasFeature => "HasFeature"

def ofName? (name : String) : Option HostOp :=
  all.find? fun op => op.name == name

theorem ofName?_name (op : HostOp) : ofName? op.name = some op := by
  cases op <;> decide

end HostOp

/-! ## Operators with an operand class -/

/-- An operator whose operand type is chosen where it is used. -/
inductive Operator
  | unary (op : UnaryOp)
  | binary (op : BinaryOp)
  | relational (op : RelationalOp)
  deriving DecidableEq, Repr

namespace Operator

def name : Operator → String
  | unary op => op.name
  | binary op => op.name
  | relational op => op.name

def operands : Operator → OperandClass
  | unary op => op.operands
  | binary op => op.operands
  | relational op => op.operands

end Operator

end TreeIR
