/-
# TreeIR.Program.Registration -- adding entities and binding vars

A var is bound at most once.  Registering an entity checks its name first, then stores
the entity, then binds the name: the check is what makes the last step succeed, so no
entity is ever stored without its binding.  A node's labels are all checked before the
first is bound.
-/
import TreeIR.Program.Resolution

namespace TreeIR

set_option autoImplicit false

namespace Program

/-- Refuses a var that is bound. -/
def requireUnbound (var : Var) : Action Unit := do
  match (← get).bindings[var]? with
  | some existing => throw (.register (.alreadyBound var existing.kind))
  | none => return ()

/-- Binds a var that is neither unset nor bound. -/
def bind (var : Var) (entity : Entity) : Action Unit := do
  if var.isUnset then throw (.fault .nullBinding)
  requireUnbound var
  modify fun program => { program with bindings := program.bindings.insert var entity }

/-! ## Entities under a name -/

def addSignature (signature : Signature) : Action Nat := do
  requireUnbound (.named signature.name)
  let index := (← get).signatures.size
  modify fun program => { program with signatures := program.signatures.push signature }
  bind (.named signature.name) (.signature index)
  return index

/-- The name is checked before the slots. -/
def addFunction (func : Func) : Action Nat := do
  requireUnbound (.named func.name)
  if let some name := func.repeatedSlot? then throw (.register (.duplicateLocal name))
  let index := (← get).functions.size
  modify fun program => { program with functions := program.functions.push func }
  bind (.named func.name) (.function index)
  return index

def addImport (entry : Import) : Action Nat := do
  requireUnbound (.named entry.name)
  let index := (← get).imports.size
  modify fun program => { program with imports := program.imports.push entry }
  bind (.named entry.name) (.imported index)
  return index

/-- Exports clash with exports only. -/
def addExport (entry : Export) : Action Nat := do
  let program ← get
  if entry.name ∈ program.exportIndices then throw (.register (.duplicateExport entry.name))
  let index := program.exports.size
  modify fun program =>
    { program with
      exports := program.exports.push entry
      exportIndices := program.exportIndices.insert entry.name index }
  return index

/-- Appends to the call table; nothing is checked. -/
def pushTableEntry (var : Var) : Action Unit :=
  modify fun program => { program with table := program.table.push var }

/-! ## Labels -/

/-- Refuses labels that are bound or repeat one of `earlier`, whichever comes first. -/
def checkLabels (earlier : List Var) : List (Var × LabelRole) → Action Unit
  | [] => return ()
  | (label, _) :: rest => do
      requireUnbound label
      if label ∈ earlier then throw (.register (.alreadyBound label .label))
      checkLabels (label :: earlier) rest

/-- Binds every label to the node, each with its role. -/
def bindLabels (id : NodeId) : List (Var × LabelRole) → Action Unit
  | [] => return ()
  | (label, role) :: rest => do
      bind label (.label ⟨id, role⟩)
      bindLabels id rest

/-- Binds all labels a node declares, or none of them. -/
def registerLabels (id : NodeId) : Action Unit := do
  let node ← Action.ask fun program => (program.node id).mapError .fault
  if node.labels.isEmpty then throw (.register (.notLabelBearing id))
  checkLabels [] node.labels
  bindLabels id node.labels

end Program

end TreeIR
