/-
# TreeIR.ValueType -- what an expression can yield

Four kinds of value, and `void` for an expression or a function that yields none.
Integers and floats come in two widths each; `void` is neither and has width 0, so
every test of the form "narrower than its type" rejects it by itself.
-/

namespace TreeIR

set_option autoImplicit false

/-- The type of a value; `void` where there is none. -/
inductive ValueType
  | void
  | i32
  | i64
  | f32
  | f64
  deriving DecidableEq, Repr, Ord, Hashable, Inhabited

namespace ValueType

/-- Every type, in ascending order. -/
def all : List ValueType := [void, i32, i64, f32, f64]

/-- The written form, the same in signatures, messages and files. -/
def text : ValueType → String
  | void => "none"
  | i32 => "i32"
  | i64 => "i64"
  | f32 => "f32"
  | f64 => "f64"

/-- Reads the written form back. -/
def ofText? (text : String) : Option ValueType :=
  all.find? fun ty => ty.text == text

def isInt : ValueType → Bool
  | i32 | i64 => true
  | _ => false

def isFloat : ValueType → Bool
  | f32 | f64 => true
  | _ => false

/-- Size of a value in bytes. -/
def byteWidth : ValueType → Nat
  | void => 0
  | i32 | f32 => 4
  | i64 | f64 => 8

theorem mem_all (ty : ValueType) : ty ∈ all := by
  cases ty <;> decide

theorem ofText?_text (ty : ValueType) : ofText? ty.text = some ty := by
  cases ty <;> decide

/-- No type is both an integer and a float, and only `void` is neither. -/
theorem isInt_eq_not_isFloat {ty : ValueType} (h : ty ≠ void) : ty.isInt = !ty.isFloat := by
  cases ty <;> simp_all [isInt, isFloat]

end ValueType

end TreeIR
