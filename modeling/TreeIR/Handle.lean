/-
# TreeIR.Handle -- positions in an arena

An arena hands out positions in the order of allocation and never takes one back, so
a handle is a 32-bit number and handles compare by age.
-/

namespace TreeIR

set_option autoImplicit false

/-- The position of a slot in an arena, from 0. -/
structure Handle where
  word : UInt32
  deriving DecidableEq, Repr

namespace Handle

def position (handle : Handle) : Nat := handle.word.toNat

/-- The handle of a position; positions of 2 ^ 32 and more wrap around. -/
def ofPosition (position : Nat) : Handle := ⟨.ofNat position⟩

theorem ext_position {a b : Handle} (same : a.position = b.position) : a = b :=
  congrArg Handle.mk (UInt32.toNat_inj.1 same)

theorem ext_position_iff {a b : Handle} : a = b ↔ a.position = b.position :=
  ⟨congrArg position, ext_position⟩

theorem position_ofPosition {position : Nat} (word : position < UInt32.size) :
    (ofPosition position).position = position :=
  UInt32.toNat_ofNat_of_lt' word

@[simp] theorem ofPosition_position (handle : Handle) : ofPosition handle.position = handle :=
  congrArg Handle.mk UInt32.ofNat_toNat

/-- The form used inside messages. -/
def text (handle : Handle) : String := s!"Id({handle.position})"

/-- Older handles come first. -/
instance : Ord Handle := ⟨compareOn position⟩

end Handle

end TreeIR
