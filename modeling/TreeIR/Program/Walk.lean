/-
# TreeIR.Program.Walk -- visiting the nodes below a root

A walk visits the root and everything below it in pre-order, children in order of
evaluation.  A shared node is visited once for every path that leads to it, so below a
cycle the walk would never end: a limit on the number of visits ends every walk.

The nodes still to visit stand on a stack, the next one on top; a visited node is
replaced by its children.  A handle that leads nowhere ends the walk where it comes
up, limit or no limit; the limit is noticed only when there is one more node to visit.
-/
import TreeIR.Program.Resolution
import Std.Data.ExtTreeSet

namespace TreeIR

set_option autoImplicit false

/-- One stop of a walk: the handle and the node found there. -/
structure Visit where
  id : NodeId
  node : Node
  deriving DecidableEq, Repr

inductive WalkEnd
  | finished
  | limitReached
  | unknownNode (id : NodeId)
  deriving DecidableEq, Repr

structure Walk where
  visits : Array Visit
  ending : WalkEnd
  deriving DecidableEq, Repr

namespace Program

/-- Visits what is on the stack, after the visits already made. -/
def walkStack (program : Program) : Nat → List NodeId → Array Visit → Walk
  | _, [], visits => ⟨visits, .finished⟩
  | limit, id :: stack, visits =>
      match program.nodes.get? id with
      | none => ⟨visits, .unknownNode id⟩
      | some node =>
          match limit with
          | 0 => ⟨visits, .limitReached⟩
          | limit + 1 => program.walkStack limit (node.children ++ stack) (visits.push ⟨id, node⟩)

/-- Visits a root and all nodes below it, at most `limit` of them. -/
def walk (program : Program) (root : NodeId) (limit : Nat) : Walk :=
  program.walkStack limit [root] #[]

end Program

namespace Walk

/-- How many different nodes were visited. -/
def distinct (walk : Walk) : Nat :=
  (walk.visits.foldl (fun seen visit => seen.insert visit.id.position) (∅ : Std.ExtTreeSet Nat)).size

end Walk

end TreeIR
