/-
# TreeIR.Program.Request -- the interface as data

A `Request` is one call with its arguments and `perform` carries it out; `run` carries
out a list of them, one after the other, each from the state its predecessor left, a
failed one included.  What a program can become is what some list of requests makes
of an empty one, so this is what to quantify over in a statement about all programs.
-/
import TreeIR.Program.Builder
import TreeIR.Program.Names
import TreeIR.Program.Registration
import TreeIR.Program.Walk

namespace TreeIR

set_option autoImplicit false

/-- A call of the interface. -/
inductive Request
  | intern (text : String)
  | namedVar (text : String)
  | nameText (name : Name)
  | freshVar
  | bind (var : Var) (entity : Entity)
  | addSignature (entry : Signature)
  | addFunction (func : Func)
  | addImport (entry : Import)
  | addExport (entry : Export)
  | pushTableEntry (var : Var)
  | registerLabels (id : NodeId)
  | resolve (var : Var)
  | resolveSignature (var : Var)
  | resolveFunction (var : Var)
  | resolveImport (var : Var)
  | resolveLabel (var : Var)
  | resolveExport (name : Name)
  | resolveLocal (index : Nat) (var : Var)
  /-- The written form of a signature under the names of the program. -/
  | signatureText (entry : Signature)
  | signature (index : Nat)
  | function (index : Nat)
  | imported (index : Nat)
  | exported (index : Nat)
  | setFunction (index : Nat) (func : Func)
  | setBody (index : Nat) (body : NodeId)
  | build (value : Node)
  | alloc (value : Node)
  | copyNode (id : NodeId)
  | nodeCount
  | node (id : NodeId)
  | setNode (id : NodeId) (value : Node)
  /-- Overwrites the child slots of a node in order. -/
  | putChildren (id : NodeId) (ids : List NodeId)
  | walk (root : NodeId) (limit : Nat)
  deriving DecidableEq, Repr

/-- What a call gives back. -/
inductive Answer
  | done
  | text (text : String)
  | name (name : Name)
  | var (var : Var)
  | entity (entity : Entity)
  | index (index : Nat)
  | found (slot : Local)
  | id (id : NodeId)
  | signature (signature : Signature)
  | function (func : Func)
  | imported (entry : Import)
  | exported (entry : Export)
  | node (node : Node)
  | walk (walk : Walk)
  deriving DecidableEq, Repr

namespace Request

/-- Looks something up by a var or a name. -/
def resolving {α : Type} (question : Program → Except ResolveError α) : Action α :=
  Action.ask fun program => (question program).mapError .resolve

/-- Looks something up by its position. -/
def reading {α : Type} (question : Program → Except Fault α) : Action α :=
  Action.ask fun program => (question program).mapError .fault

def perform : Request → Action Answer
  | intern text => .name <$> Program.intern text
  | namedVar text => .var <$> Program.namedVar text
  | nameText name => .text <$> Action.ask fun program => program.nameText name
  | freshVar => .var <$> Program.freshVar
  | bind var entity => do
      Program.bind var entity
      return .done
  | addSignature entry => .index <$> Program.addSignature entry
  | addFunction func => .index <$> Program.addFunction func
  | addImport entry => .index <$> Program.addImport entry
  | addExport entry => .index <$> Program.addExport entry
  | pushTableEntry var => do
      Program.pushTableEntry var
      return .done
  | registerLabels id => do
      Program.registerLabels id
      return .done
  | resolve var => .entity <$> resolving fun program => program.resolve var
  | resolveSignature var => .index <$> resolving fun program => program.resolveSignature var
  | resolveFunction var => .index <$> resolving fun program => program.resolveFunction var
  | resolveImport var => .index <$> resolving fun program => program.resolveImport var
  | resolveLabel var => (.entity ∘ .label) <$> resolving fun program => program.resolveLabel var
  | resolveExport name => .index <$> resolving fun program => program.resolveExport name
  | resolveLocal index var => .found <$> Action.ask fun program => program.resolveLocal index var
  | signatureText entry => .text <$> reading fun program => entry.text program.names
  | signature index => .signature <$> reading fun program => program.signature index
  | function index => .function <$> reading fun program => program.function index
  | imported index => .imported <$> reading fun program => program.imported index
  | exported index => .exported <$> reading fun program => program.exported index
  | setFunction index func => do
      Program.setFunction index func
      return .done
  | setBody index body => do
      Program.setBody index body
      return .done
  | build value => .id <$> Program.build value
  | alloc value => .id <$> Program.alloc value
  | copyNode id => .id <$> Program.copyNode id
  | nodeCount => do return .index (← get).nodeCount
  | node id => .node <$> reading fun program => program.node id
  | setNode id value => do
      Program.setNode id value
      return .done
  | putChildren id ids => do
      Program.putChildren id ids
      return .done
  | walk root limit => do return .walk ((← get).walk root limit)

/-- Carries out one request; what was changed before a failure stays. -/
def step (request : Request) (program : Program) : Except Failure Answer × Program :=
  match request.perform.run program with
  | .ok answer program => (.ok answer, program)
  | .error failure program => (.error failure, program)

/-- Carries out requests in order and collects what each gave back. -/
def run : List Request → Program → List (Except Failure Answer) × Program
  | [], program => ([], program)
  | request :: rest, program =>
      let (outcome, next) := request.step program
      let (outcomes, last) := run rest next
      (outcome :: outcomes, last)

end Request

end TreeIR
