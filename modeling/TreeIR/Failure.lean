/-
# TreeIR.Failure -- why an operation on a program fails

Two kinds of error are part of the work: a var that does not resolve to what was
asked for (`ResolveError`), and a registration that clashes with an earlier one
(`RegisterError`).  The third, a `Fault`, is a mistake of the caller.

Each cause carries what it is about, and its message shows all of it: the var or name
in the form that tells an index, a name and an expression with one number apart.  The
text of a function's position belongs to the store that functions are kept in, so
messages take it as a parameter; `positionText` is the one of the store in use.
-/
import TreeIR.Entity
import TreeIR.Fault

namespace TreeIR

set_option autoImplicit false

/-- A look-up that did not find what was asked for. -/
inductive ResolveError
  | unresolved (var : Var)
  | unexpectedKind (var : Var) (expected found : EntityKind)
  | localNotFound (var : Var) (function : Nat)
  | unknownExport (name : Name)
  deriving DecidableEq, Repr

/-- A registration that would hide an earlier one, or declares nothing. -/
inductive RegisterError
  | alreadyBound (var : Var) (existing : EntityKind)
  | notLabelBearing (node : NodeId)
  | duplicateExport (name : Name)
  | duplicateLocal (name : Name)
  deriving DecidableEq, Repr

/-- Every way an operation can fail. -/
inductive Failure
  | resolve (error : ResolveError)
  | register (error : RegisterError)
  | fault (fault : Fault)
  deriving DecidableEq, Repr

/-- A text that shows a number: its digits between words that are always the same. -/
def PrintsNumber (text : Nat → String) : Prop :=
  ∃ front back : String, ∀ number, text number = front ++ toString number ++ back

/-- The position of a function as its store shows it. -/
def positionText (position : Nat) : String :=
  s!"Index \x7b index: {position}, generation: DisableRemoval \x7d"

theorem printsNumber_positionText : PrintsNumber positionText :=
  ⟨"Index \x7b index: ", ", generation: DisableRemoval \x7d", fun _ => rfl⟩

namespace ResolveError

def message (functionText : Nat → String) : ResolveError → String
  | unresolved var => s!"unresolved reference {var.text}"
  | unexpectedKind var expected found =>
      s!"{var.text} refers to a {found.text}, expected a {expected.text}"
  | localNotFound var function =>
      s!"local {var.text} not declared in function {functionText function}"
  | unknownExport name => s!"no export named {name.text}"

end ResolveError

namespace RegisterError

def message : RegisterError → String
  | alreadyBound var existing => s!"{var.text} is already bound to a {existing.text}"
  | notLabelBearing node => s!"expression {node.text} does not bind any label"
  | duplicateExport name => s!"export {name.text} already exists"
  | duplicateLocal name => s!"local {name.text} is declared more than once"

end RegisterError

namespace Failure

def message (functionText : Nat → String) : Failure → String
  | resolve error => error.message functionText
  | register error => error.message
  | fault cause => cause.message

end Failure

end TreeIR
