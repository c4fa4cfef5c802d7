/-
# TreeIR.Literal -- constants

A literal is a word together with the type that reads it.  Floats are kept as their
bits, so equality is equality of type and bits (`eq_iff`): a NaN equals itself when
the payload agrees, and the two zeros differ.  That makes literals usable as keys;
`firstPositions` is the table a switch needs, with the first of equal keys kept.
-/
import TreeIR.FloatFormat
import TreeIR.ValueType
import Std.Data.HashMap

namespace TreeIR

set_option autoImplicit false

/-- A constant; floats are given by their bits. -/
inductive Literal
  | i32 (value : Int32)
  | i64 (value : Int64)
  | f32 (word : UInt32)
  | f64 (word : UInt64)
  deriving DecidableEq, Repr

namespace Literal

def type : Literal → ValueType
  | i32 _ => .i32
  | i64 _ => .i64
  | f32 _ => .f32
  | f64 _ => .f64

/-- The payload, with zeros in front where it is narrower than 64 bits. -/
def bits : Literal → UInt64
  | i32 value => value.toUInt32.toUInt64
  | i64 value => value.toUInt64
  | f32 word => word.toUInt64
  | f64 word => word

/-- Written as the instruction that pushes the constant. -/
def text : Literal → String
  | i32 value => s!"i32.const {value.toInt}"
  | i64 value => s!"i64.const {value.toInt}"
  | f32 word => s!"f32.const {FloatFormat.single.text word.toNat}"
  | f64 word => s!"f64.const {FloatFormat.double.text word.toNat}"

/-- Two literals are equal exactly if their types and their bits are. -/
theorem eq_iff {a b : Literal} : a = b ↔ a.type = b.type ∧ a.bits = b.bits := by
  constructor
  · rintro rfl
    exact ⟨rfl, rfl⟩
  · have narrow {v w : UInt32} (h : v.toUInt64 = w.toUInt64) : v = w := by
      simpa using congrArg UInt64.toUInt32 h
    cases a <;> cases b <;> simp only [type, bits, reduceCtorEq, false_and, true_and,
      i32.injEq, i64.injEq, f32.injEq, f64.injEq, imp_self]
    · exact fun h => congrArg UInt32.toInt32 (narrow h)
    · exact fun h => congrArg UInt64.toInt64 h
    · exact narrow

/-- The hash sees type and bits and nothing else. -/
instance : Hashable Literal where
  hash literal := mixHash (hash literal.type) (hash literal.bits)

/-! ## Literals as keys -/

/-- The position at which each literal was first seen, counting from `position`. -/
def keyTable : List Literal → Nat → Std.HashMap Literal Nat → Std.HashMap Literal Nat
  | [], _, table => table
  | literal :: rest, position, table =>
      keyTable rest (position + 1) (table.insertIfNew literal position)

/-- The table of a whole list. -/
def keys (literals : List Literal) : Std.HashMap Literal Nat :=
  keyTable literals 0 ∅

/-- For each literal the position of its key, and so of the first literal equal to it. -/
def firstPositions (literals : List Literal) : List Nat :=
  let table := keys literals
  literals.map fun literal => table.getD literal 0

end Literal

end TreeIR
