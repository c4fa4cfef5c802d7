/-
# TreeIR.Order -- positions in ascending order

`ascending` sorts a list without moving it: it lists positions instead of values, and
equal values keep the order they came in.
-/

namespace TreeIR

set_option autoImplicit false

/-- The positions of the values in ascending order, earlier ones first among equals. -/
def ascending {α : Type} [Ord α] (values : List α) : List Nat :=
  let placed := values.mapIdx fun position value => (value, position)
  (placed.mergeSort fun a b => compare a.1 b.1 != .gt).map Prod.snd

end TreeIR
