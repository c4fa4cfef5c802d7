/-
# TreeIR.Proofs.LiteralText -- a written literal says which literal it is

A literal is written as its type and its payload, and written types are a prefix code, so both can
be read off the text.  Integers are told apart by their digits and sign, floats by
`FloatFormat.text_eq_iff`: only NaNs of one type are written alike.
-/
import TreeIR.Literal
import TreeIR.Proofs.FloatText
import TreeIR.Proofs.SignatureText

namespace TreeIR

set_option autoImplicit false

namespace Literal

variable {literal other : Literal}

/-- Not a number, of either width. -/
def IsNaN : Literal → Prop
  | f32 word => FloatFormat.single.IsNaN word.toNat
  | f64 word => FloatFormat.double.IsNaN word.toNat
  | _ => False

/-- The value as it is written. -/
def payload : Literal → String
  | i32 value => toString value.toInt
  | i64 value => toString value.toInt
  | f32 word => FloatFormat.single.text word.toNat
  | f64 word => FloatFormat.double.text word.toNat

theorem toList_text (literal : Literal) :
    literal.text.toList =
      literal.type.text.toList ++ (".const ".toList ++ literal.payload.toList) := by
  have head (text : String) : toString text = text := rfl
  cases literal <;> simp [text, type, ValueType.text, payload, head]

theorem text_eq_iff_payload :
    literal.text = other.text ↔ literal.type = other.type ∧ literal.payload = other.payload := by
  rw [← String.toList_inj, toList_text, toList_text]
  constructor
  · intro same
    obtain ⟨types, rest⟩ := ValueType.text_append_inj same
    exact ⟨types, String.toList_inj.1 (List.append_cancel_left rest)⟩
  · rintro ⟨types, payloads⟩
    rw [types, payloads]

theorem toString_int_inj {n m : ℤ} : toString n = toString m ↔ n = m := Int.repr_inj

/-- Within a type only NaNs are written alike. -/
theorem payload_eq_iff (types : literal.type = other.type) :
    literal.payload = other.payload ↔ literal = other ∨ literal.IsNaN ∧ other.IsNaN := by
  cases literal <;> cases other <;> try (cases types; done)
  case i32.i32 value second =>
    simp only [payload, IsNaN, toString_int_inj, Int32.toInt_inj, i32.injEq, and_false, or_false]
  case i64.i64 value second =>
    simp only [payload, IsNaN, toString_int_inj, Int64.toInt_inj, i64.injEq, and_false, or_false]
  case f32.f32 word second =>
    rw [payload, payload, FloatFormat.text_eq_iff (by decide) word.toNat_lt second.toNat_lt,
      UInt32.toNat_inj, f32.injEq]
    rfl
  case f64.f64 word second =>
    rw [payload, payload, FloatFormat.text_eq_iff (by decide) word.toNat_lt second.toNat_lt,
      UInt64.toNat_inj, f64.injEq]
    rfl

/-- **The text of a literal identifies it.**  Two literals are written alike exactly if they are
equal or both are NaNs of the same type. -/
theorem text_identifies (literal other : Literal) :
    literal.text = other.text ↔
      literal = other ∨ literal.type = other.type ∧ literal.IsNaN ∧ other.IsNaN := by
  rw [text_eq_iff_payload]
  constructor
  · rintro ⟨types, payloads⟩
    exact ((payload_eq_iff types).1 payloads).imp_right fun both => ⟨types, both⟩
  · rintro (rfl | ⟨types, both⟩)
    · exact ⟨rfl, rfl⟩
    · exact ⟨types, (payload_eq_iff types).2 (.inr both)⟩

end Literal

end TreeIR
