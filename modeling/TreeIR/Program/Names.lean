/-
# TreeIR.Program.Names -- names and minted indices

`freshVar` mints the least index from the counter on that is not bound; the counter
then stands behind it.  Indices at or beyond `Var.indexLimit` are refused, so once the
counter is there it stays there, and minting fails ever after.
-/
import TreeIR.Program

namespace TreeIR

set_option autoImplicit false

namespace Program

/-! ## Names -/

def intern (text : String) : Action Name := do
  match (← get).names.intern text with
  | .ok (name, names) =>
      modify fun program => { program with names }
      return name
  | .error cause => throw (.fault cause)

/-- The var of that name. -/
def namedVar (text : String) : Action Var := do
  return .named (← intern text)

def nameText (program : Program) (name : Name) : Except Failure String :=
  (program.names.lookup name).mapError .fault

/-! ## Minting -/

/-- The largest index a var can carry. -/
def lastIndex : UInt32 := 0xFFFFFFFF

/-- The first index from `number` on that is not bound, if the words last. -/
def firstUnbound? (bindings : Std.ExtTreeMap Var Entity) (number : UInt32) : Option UInt32 :=
  if (Var.index number) ∈ bindings then
    if number < lastIndex then firstUnbound? bindings (number + 1) else none
  else some number
termination_by lastIndex.toNat - number.toNat
decreasing_by
  rename_i below
  have below : number.toNat < lastIndex.toNat := UInt32.lt_iff_toNat_lt.1 below
  have next : (number + 1).toNat = number.toNat + 1 := by
    rw [UInt32.toNat_add, Nat.mod_eq_of_lt]
    · rfl
    · exact Nat.lt_of_le_of_lt below (by decide)
  omega

/-- Mints an index that is not bound; bound ones are passed over. -/
def freshVar : Action Var := do
  let program ← get
  match firstUnbound? program.bindings program.nextIndex with
  | none =>
      modify fun program => { program with nextIndex := lastIndex }
      throw (.fault .indicesExhausted)
  | some number =>
      modify fun program => { program with nextIndex := number }
      match Var.ofIndex? number with
      | none => throw (.fault (.indexOutOfRange number))
      | some var =>
          modify fun program => { program with nextIndex := number + 1 }
          return var

end Program

end TreeIR
