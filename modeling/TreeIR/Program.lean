/-
# TreeIR.Program -- everything one program consists of

A program owns its names, its signatures, functions, imports and exports, its call
table and its nodes.  `bindings` maps every bound var to an entity; exports have a
namespace of their own.  Entities and nodes are only ever added.

An operation is an `Action`: it sees the program, may fail, and keeps what it changed
up to the point of failure.  That failing operations change nothing is therefore a
fact about each of them and not a property of the notation.
-/
import TreeIR.Config
import TreeIR.Failure
import TreeIR.Signature

namespace TreeIR

set_option autoImplicit false

structure Program where
  names : Interner
  /-- In order of registration, as are the three below. -/
  signatures : Array Signature
  functions : Array Func
  imports : Array Import
  exports : Array Export
  /-- The targets of indirect calls. -/
  table : Array Var
  bindings : Std.ExtTreeMap Var Entity
  exportIndices : Std.ExtTreeMap Name Nat
  /-- Every index below this one was minted or was bound when minting passed it. -/
  nextIndex : UInt32
  nodes : Arena Node

/-- An operation on a program. -/
abbrev Action (α : Type) := EStateM Failure Program α

namespace Program

/-- A program without any entity, over an arena without any node. -/
def ofArena (nodes : Arena Node) : Program where
  names := .empty
  signatures := #[]
  functions := #[]
  imports := #[]
  exports := #[]
  table := #[]
  bindings := ∅
  exportIndices := ∅
  nextIndex := 1
  nodes := nodes

/-- The empty program with chunks of the default size. -/
def empty : Program := ofArena .empty

/-- The empty program with chunks of the configured size. -/
def ofConfig (config : Config) : Except ConfigError Program := do
  config.validate
  return ofArena (.ofChunkSize config.chunkSize)

/-- How many nodes there are. -/
def nodeCount (program : Program) : Nat := program.nodes.size

end Program

namespace Action

/-- A question that leaves the program alone. -/
def ask {α : Type} (question : Program → Except Failure α) : Action α := do
  match question (← get) with
  | .ok answer => return answer
  | .error failure => throw failure

/-- Goes on unless the caller broke a contract. -/
def require (checked : Except Fault Unit) : Action Unit :=
  match checked with
  | .ok () => return ()
  | .error cause => throw (.fault cause)

end Action

end TreeIR
