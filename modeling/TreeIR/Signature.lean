/-
# TreeIR.Signature -- signatures, functions and their locals

A signature names a result type and a list of parameters; a function adds declared
locals and the root of its body.  Params and locals form one list of slots, params
first, and a var picks one of them: an index by 1-based position, a name by its first
occurrence, so a param hides a local of the same name.

A signature is written `name(i32, f64) -> i64`, without the arrow where there is no
result.  Slot names do not show, and `matches` does not look at them either.
-/
import TreeIR.Interner
import TreeIR.Node

namespace TreeIR

set_option autoImplicit false

/-- A typed slot: a parameter or a local. -/
structure Slot where
  name : Name
  type : ValueType
  deriving DecidableEq, Repr

/-- A named function type; `void` stands for no result. -/
structure Signature where
  name : Name
  result : ValueType
  params : List Slot
  deriving DecidableEq, Repr

structure Func where
  name : Name
  result : ValueType
  params : List Slot
  locals : List Slot
  /-- The root of the body, once there is one. -/
  body : Option NodeId
  deriving DecidableEq, Repr

/-- A function the host provides. -/
structure Import where
  name : Name
  signature : Signature
  deriving DecidableEq, Repr

/-- A name the program is visible under, and what it stands for. -/
structure Export where
  name : Name
  value : Var
  deriving DecidableEq, Repr

namespace Signature

/-- Whether the function has these parameter types and this result. -/
def accepts (signature : Signature) (func : Func) : Bool :=
  signature.result == func.result && signature.params.length == func.params.length &&
    (signature.params.zip func.params).all fun pair => pair.1.type == pair.2.type

/-- The written form behind a name that is already text. -/
def textAs (signature : Signature) (name : String) : String :=
  let params := String.intercalate ", " (signature.params.map fun param => param.type.text)
  let head := s!"{name}({params})"
  if signature.result = .void then head else s!"{head} -> {signature.result.text}"

/-- The written form; the name has to come from the interner. -/
def text (signature : Signature) (names : Interner) : Except Fault String := do
  let name ← names.lookup signature.name
  return signature.textAs name

end Signature

/-! ## Locals -/

inductive LocalKind
  | param
  | declared
  deriving DecidableEq, Repr

/-- A slot of a function together with where it was found. -/
structure Local where
  kind : LocalKind
  /-- The position among params and locals together, from 0. -/
  position : Nat
  name : Name
  type : ValueType
  deriving DecidableEq, Repr

namespace Func

/-- Params followed by locals. -/
def slots (func : Func) : List Slot := func.params ++ func.locals

/-- The position a var stands for, which may lie beyond the last slot. -/
def position? (func : Func) : Var → Option Nat
  | .unset => none
  | .index number => if number = 0 then none else some (number.toNat - 1)
  | .named name => func.slots.findIdx? fun slot => slot.name == name

/-- The param or local that a var stands for. -/
def local? (func : Func) (var : Var) : Option Local := do
  let position ← func.position? var
  if inside : position < func.params.length then
    let slot := func.params[position]
    return ⟨.param, position, slot.name, slot.type⟩
  else
    let slot ← func.locals[position - func.params.length]?
    return ⟨.declared, position, slot.name, slot.type⟩

/-- The name of the first slot whose name an earlier slot has, given the earlier names. -/
def firstRepeated? (seen : List Name) : List Slot → Option Name
  | [] => none
  | slot :: rest =>
      if slot.name ∈ seen then some slot.name else firstRepeated? (slot.name :: seen) rest

/-- The first slot name that occurs again. -/
def repeatedSlot? (func : Func) : Option Name := firstRepeated? [] func.slots

end Func

end TreeIR
