/-
# TreeIR.Var -- how nodes and tables refer to things

A `Var` is a 1-based index, a name, or unset.  An index never equals a name, even
where both would lead to the same entity.  Indices a program mints stay inside
`1 .. indexLimit - 1`; a `Var` itself may carry any 32-bit number, since a reader of
foreign code has to be able to ask about it (`ofIndex?` is the checked way in).

The order is unset, indices, names, each kind by number.  It is total and agrees with
equality (`compare_eq_iff`), so vars can be keys of an ordered map.
-/
import Std.Data.ExtTreeMap

namespace TreeIR

set_option autoImplicit false

/-- An interned string: its position among the strings of one interner, from 0. -/
structure Name where
  word : UInt32
  deriving DecidableEq, Repr

namespace Name

def position (name : Name) : Nat := name.word.toNat

/-- The name of a position; positions of 2 ^ 32 and more wrap around. -/
def ofPosition (position : Nat) : Name := ⟨.ofNat position⟩

theorem ext_position {a b : Name} (same : a.position = b.position) : a = b :=
  congrArg Name.mk (UInt32.toNat_inj.1 same)

theorem ext_position_iff {a b : Name} : a = b ↔ a.position = b.position :=
  ⟨congrArg position, ext_position⟩

theorem position_ofPosition {position : Nat} (word : position < UInt32.size) :
    (ofPosition position).position = position :=
  UInt32.toNat_ofNat_of_lt' word

@[simp] theorem ofPosition_position (name : Name) : ofPosition name.position = name :=
  congrArg Name.mk UInt32.ofNat_toNat

/-- The form used inside messages. -/
def text (name : Name) : String := s!"Name({name.position})"

instance : Ord Name := ⟨compareOn position⟩

instance : Std.TransOrd Name := inferInstanceAs (Std.TransCmp (compareOn position))

instance : Std.LawfulEqOrd Name where
  eq_of_compare {a b} h :=
    have same : compare a.position b.position = .eq := h
    ext_position (Std.LawfulEqOrd.eq_of_compare same)

end Name

/-- A reference to an entity of a program or to a local of a function. -/
inductive Var
  | unset
  | index (number : UInt32)
  | named (name : Name)
  deriving DecidableEq, Repr, Inhabited

namespace Var

/-! ## Views -/

def isUnset : Var → Bool
  | unset => true
  | _ => false

@[simp] theorem isUnset_iff {var : Var} : var.isUnset = true ↔ var = unset := by
  cases var <;> simp [isUnset]

def index? : Var → Option UInt32
  | index number => some number
  | _ => none

def name? : Var → Option Name
  | named name => some name
  | _ => none

/-- The form used inside messages. -/
def text : Var → String
  | unset => "None"
  | index number => s!"Index({number.toNat})"
  | named name => s!"Name({name.text})"

/-! ## The range of minted indices -/

/-- Minted indices stay below this number. -/
def indexLimit : UInt32 := 1000000

/-- The checked index: 0 and the limit itself are refused. -/
def ofIndex? (number : UInt32) : Option Var :=
  if 0 < number ∧ number < indexLimit then some (index number) else none

theorem ofIndex?_eq_some_iff {number : UInt32} {var : Var} :
    ofIndex? number = some var ↔ (0 < number ∧ number < indexLimit) ∧ index number = var := by
  unfold ofIndex?
  split
  · simp_all
  · exact ⟨fun h => absurd h (by simp), fun h => absurd h.1 ‹_›⟩

/-! ## Order -/

/-- Unset comes first, then indices, then names. -/
def rank : Var → Nat
  | unset => 0
  | index _ => 1
  | named _ => 2

/-- The number within the rank. -/
def number : Var → Nat
  | unset => 0
  | index number => number.toNat
  | named name => name.position

instance : Ord Var := ⟨compareLex (compareOn rank) (compareOn number)⟩

instance : Std.TransOrd Var :=
  inferInstanceAs (Std.TransCmp (compareLex (compareOn rank) (compareOn number)))

theorem eq_of_rank_of_number {a b : Var} (ranks : a.rank = b.rank) (numbers : a.number = b.number) :
    a = b := by
  match a, b with
  | unset, unset => rfl
  | index _, index _ => exact congrArg index (UInt32.toNat_inj.1 numbers)
  | named _, named _ => exact congrArg named (Name.ext_position numbers)
  | unset, index _ | unset, named _ | index _, unset | index _, named _
  | named _, unset | named _, index _ => exact absurd ranks (by simp [rank])

instance : Std.LawfulEqOrd Var where
  eq_of_compare {a b} h := by
    have both : compare a.rank b.rank = .eq ∧ compare a.number b.number = .eq :=
      Ordering.then_eq_eq.1 h
    exact eq_of_rank_of_number (Std.LawfulEqOrd.eq_of_compare both.1)
      (Std.LawfulEqOrd.eq_of_compare both.2)

end Var

end TreeIR
