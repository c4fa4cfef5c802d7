/-
# TreeIR.Program.Resolution -- from vars to entities

`resolve` answers with whatever a var is bound to.  The typed forms ask for one kind
of entity and say what they found instead, if it is another.  Exports are looked up by
name among themselves, locals in the function alone; neither sees the bindings.
-/
import TreeIR.Program

namespace TreeIR

set_option autoImplicit false

namespace Program

def resolve (program : Program) (var : Var) : Except ResolveError Entity :=
  match program.bindings[var]? with
  | some entity => .ok entity
  | none => .error (.unresolved var)

/-- Resolves a var to an entity of one kind, which `select` recognises. -/
def resolveAs {α : Type} (program : Program) (expected : EntityKind) (select : Entity → Option α)
    (var : Var) : Except ResolveError α := do
  let entity ← program.resolve var
  match select entity with
  | some target => .ok target
  | none => .error (.unexpectedKind var expected entity.kind)

def resolveSignature (program : Program) : Var → Except ResolveError Nat :=
  program.resolveAs .signature fun
    | .signature index => some index
    | _ => none

def resolveFunction (program : Program) : Var → Except ResolveError Nat :=
  program.resolveAs .function fun
    | .function index => some index
    | _ => none

def resolveImport (program : Program) : Var → Except ResolveError Nat :=
  program.resolveAs .imported fun
    | .imported index => some index
    | _ => none

def resolveLabel (program : Program) : Var → Except ResolveError LabelTarget :=
  program.resolveAs .label fun
    | .label target => some target
    | _ => none

def resolveExport (program : Program) (name : Name) : Except ResolveError Nat :=
  match program.exportIndices[name]? with
  | some index => .ok index
  | none => .error (.unknownExport name)

/-! ## Entities by position -/

/-- The entry at a position that was handed out. -/
def entry {α : Type} (entries : Array α) (index : Nat) : Except Fault α :=
  match entries[index]? with
  | some value => .ok value
  | none => .error .foreignEntity

def signature (program : Program) : Nat → Except Fault Signature := entry program.signatures
def function (program : Program) : Nat → Except Fault Func := entry program.functions
def imported (program : Program) : Nat → Except Fault Import := entry program.imports
def exported (program : Program) : Nat → Except Fault Export := entry program.exports

/-- The node behind a handle of this program. -/
def node (program : Program) (id : NodeId) : Except Fault Node := program.nodes.get id

/-- The param or local a var stands for in the function at a position. -/
def resolveLocal (program : Program) (index : Nat) (var : Var) : Except Failure Local := do
  let func ← (program.function index).mapError .fault
  match func.local? var with
  | some slot => .ok slot
  | none => .error (.resolve (.localNotFound var index))

end Program

end TreeIR
