/-
# TreeIR.Toml.Table -- who may add what to a table

A dotted key makes the tables on its way or goes on in tables that may still grow, and
its last table has to be one that dotted keys made.  A header goes through any table
that is not inline, makes the ones it misses, and opens a table that does not exist or
was only implied; a doubled header adds a row.  Going through rows means going through
the last one.

No key is ever given a second value: what would do so is refused.
-/
import TreeIR.Toml.Value

namespace TreeIR.Toml

set_option autoImplicit false

namespace Entries

/-- Changes the last of the tables under one name. -/
def mapLast? (f : Entries → Option Entries) : List Entries → Option (List Entries)
  | [] => none
  | [last] => do return [← f last]
  | first :: second :: rest => do return first :: (← mapLast? f (second :: rest))

/-- Adds a value under a dotted key, given in its parts. -/
def insert? (value : Value) : List String → Entries → Option Entries
  | [], _ => none
  | [key], entries => if (entries.find? key).isNone then some (entries.put key value) else none
  | key :: next :: parts, entries => do
      let more := insert? value (next :: parts)
      match entries.find? key with
      | none => return entries.put key (.table .dotted (← more []))
      | some (.table .dotted inner) => return entries.put key (.table .dotted (← more inner))
      | some (.table .implied inner) =>
          if parts.isEmpty then none
          else return entries.put key (.table .implied (← more inner))
      | some (.rows tables) =>
          if parts.isEmpty then none
          else return entries.put key (.rows (← mapLast? more tables))
      | some _ => none

/-- Adds several values, each under its dotted key. -/
def insertAll? : List (List String × Value) → Entries → Option Entries
  | [], entries => some entries
  | (path, value) :: rest, entries => do insertAll? rest (← entries.insert? value path)

/-- Changes the table that a header's path leads to. -/
def below? (f : Entries → Option Entries) : List String → Entries → Option Entries
  | [], entries => f entries
  | key :: path, entries => do
      match entries.find? key with
      | none => return entries.put key (.table .implied (← below? f path []))
      | some (.table .inline _) => none
      | some (.table origin inner) =>
          return entries.put key (.table origin (← below? f path inner))
      | some (.rows tables) => return entries.put key (.rows (← mapLast? (below? f path) tables))
      | some _ => none

/-- Opens a table under a header and fills it. -/
def openTable? (key : String) (pairs : List (List String × Value)) (entries : Entries) :
    Option Entries := do
  match entries.find? key with
  | none => return entries.put key (.table .header (← insertAll? pairs []))
  | some (.table .implied inner) =>
      return entries.put key (.table .header (← insertAll? pairs inner))
  | some _ => none

/-- Adds a row under a doubled header and fills it. -/
def addRow? (key : String) (pairs : List (List String × Value)) (entries : Entries) :
    Option Entries := do
  match entries.find? key with
  | none => return entries.put key (.rows [← insertAll? pairs []])
  | some (.rows tables) => return entries.put key (.rows (tables ++ [← insertAll? pairs []]))
  | some _ => none

end Entries

end TreeIR.Toml
