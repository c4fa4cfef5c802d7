/-
# TreeIR.Toml.Value -- what a TOML document denotes

A table remembers how it came to be, because that decides who may still add to it: a
header opens a table once, passing through a name implies a table that a header may
open later, dotted keys add to a table they made themselves, and an inline table is
complete where it is written.  Apart from that a table is a list of entries, and
`Entries.find?` is all a reader of a document needs.

Floats and dates are kept as written.  A document is written as a list of statements.
-/

namespace TreeIR.Toml

set_option autoImplicit false

-- Powers of naturals are the core library's, whatever else is in scope.
attribute [local instance (2000)] instPowNat

/-- One more than the largest integer. -/
def integerLimit : Nat := 2 ^ (63 : Nat)

/-- How a table came to be. -/
inductive Origin
  | header
  | implied
  | dotted
  | inline
  deriving DecidableEq, Repr

inductive Value
  | string (text : String)
  | integer (value : Int)
  | float (text : String)
  | boolean (value : Bool)
  | date (text : String)
  | array (items : List Value)
  | table (origin : Origin) (entries : List (String × Value))
  /-- Tables that were opened one by one under one name. -/
  | rows (tables : List (List (String × Value)))
  deriving Repr

/-- The contents of a table, each key once. -/
abbrev Entries := List (String × Value)

namespace Entries

def find? (entries : Entries) (key : String) : Option Value :=
  match entries with
  | [] => none
  | (name, value) :: rest => if name = key then some value else find? rest key

/-- Gives a key a value, in its old place if it has one. -/
def put (entries : Entries) (key : String) (value : Value) : Entries :=
  match entries with
  | [] => [(key, value)]
  | (name, old) :: rest =>
      if name = key then (name, value) :: rest else (name, old) :: put rest key value

theorem find?_put_self (entries : Entries) (key : String) (value : Value) :
    (entries.put key value).find? key = some value := by
  fun_induction put entries key value <;> simp_all [find?]

theorem find?_put_of_ne (entries : Entries) {key other : String} (value : Value)
    (h : other ≠ key) : (entries.put key value).find? other = entries.find? other := by
  fun_induction put entries key value with
  | case1 => simp [find?, h.symm]
  | case2 => simp [find?, h.symm]
  | case3 => simp_all [find?]

end Entries

inductive Statement
  /-- Opens a table, or a new row if the brackets are doubled. -/
  | header (doubled : Bool) (path : List String)
  | pair (path : List String) (value : Value)
  deriving Repr

/-- What a key may consist of that stands without quotes. -/
def isBareKeyChar (c : Char) : Bool := c.isAlphanum || c == '-' || c == '_'

end TreeIR.Toml
