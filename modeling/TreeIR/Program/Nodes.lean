/-
# TreeIR.Program.Nodes -- making and changing nodes

`alloc` takes any node; the constructors that keep to the contract of a kind are in
`TreeIR.Program.Builder`.  Changes are made in place and nothing is checked; neither the
labels of a node nor the names of a function are bound again.
-/
import TreeIR.Node.Children
import TreeIR.Program.Resolution

namespace TreeIR

set_option autoImplicit false

namespace Program

/-! ## Making nodes -/

/-- Appends a node to the arena. -/
def alloc (node : Node) : Action NodeId := do
  let id := (← get).nodes.next
  Action.require (← get).nodes.checkRoom
  modify fun program => { program with nodes := program.nodes.push node }
  return id

/-- Appends a copy of a node. -/
def copyNode (id : NodeId) : Action NodeId := do
  alloc (← Action.ask fun program => (program.node id).mapError .fault)

/-! ## Changing nodes and functions -/

/-- Overwrites a node. -/
def setNode (id : NodeId) (node : Node) : Action Unit := do
  let _ ← Action.ask fun program => (program.node id).mapError .fault
  modify fun program => { program with nodes := program.nodes.put id node }

/-- Overwrites the child slots of a node in order. -/
def putChildren (id : NodeId) (ids : List NodeId) : Action Unit := do
  let node ← Action.ask fun program => (program.node id).mapError .fault
  setNode id (node.putChildren ids)

/-- Overwrites a function, which has to be registered. -/
def setFunction (index : Nat) (func : Func) : Action Unit := do
  let _ ← Action.ask fun program => (program.function index).mapError .fault
  modify fun program => { program with functions := program.functions.setIfInBounds index func }

/-- Gives a function the root of its body. -/
def setBody (index : Nat) (body : NodeId) : Action Unit := do
  let func ← Action.ask fun program => (program.function index).mapError .fault
  setFunction index { func with body := some body }

end Program

end TreeIR
