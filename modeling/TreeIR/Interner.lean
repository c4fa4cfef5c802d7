/-
# TreeIR.Interner -- strings by number

Each distinct string gets the next number when it is first interned and keeps it.
`texts` is the numbering itself; `names` finds the number of a string again.  A number
says nothing without its interner: `lookup` refuses one that was not handed out here.
Numbers are 32-bit words, so an interner takes `nameLimit` strings at most.
-/
import TreeIR.Fault

namespace TreeIR

set_option autoImplicit false

-- Powers of naturals are the core library's, whatever else is in scope.
attribute [local instance (2000)] instPowNat

/-- The largest 32-bit word, which no string gets as its name. -/
def nameLimit : Nat := 2 ^ (32 : Nat) - 1

structure Interner where
  texts : Array String
  names : Std.ExtTreeMap String Name

namespace Interner

def empty : Interner := ⟨#[], ∅⟩

/-- How many distinct strings were interned. -/
def size (interner : Interner) : Nat := interner.texts.size

def isEmpty (interner : Interner) : Bool := interner.texts.isEmpty

/-- The name of a string that was interned before. -/
def find? (interner : Interner) (text : String) : Option Name :=
  interner.names[text]?

/-- The name a new string gets. -/
def next (interner : Interner) : Name := .ofPosition interner.size

/-- Takes in a new string. -/
def add (interner : Interner) (text : String) : Interner :=
  ⟨interner.texts.push text, interner.names.insert text interner.next⟩

/-- The name of the string, a new one if the string is new, which needs a name that is left. -/
def intern (interner : Interner) (text : String) : Except Fault (Name × Interner) :=
  match interner.find? text with
  | some name => .ok (name, interner)
  | none => do
      Fault.ensure (interner.size < nameLimit) .internerFull
      return (interner.next, interner.add text)

/-- The string behind a name of this interner. -/
def lookup (interner : Interner) (name : Name) : Except Fault String :=
  match interner.texts[name.position]? with
  | some text => .ok text
  | none => .error (.foreignName interner.size name)

/-- The names in order of first interning, with their strings. -/
def entries (interner : Interner) : List (Name × String) :=
  interner.texts.toList.mapIdx fun position text => (.ofPosition position, text)

end Interner

end TreeIR
