/-
# TreeIR.Proofs.Stability -- what was handed out stays valid

Passes hold on to handles, positions, vars and names while others go on changing the program.
They may, because no call takes anything away.

Signatures, imports, exports and the call table are only appended to, so what is there later
begins with what was there before; bindings, export names and interned names are only added to
(`Extends`).  Functions and nodes can be edited, but an edit leaves them where they are and is
told by its request: `Request.changes?` is the position of the function, `Request.writes?` the
handle of the node.  What no request of a run aims at, the run keeps.
-/
import TreeIR.Proofs.FunctionStore
import TreeIR.Proofs.Interning

namespace TreeIR

set_option autoImplicit false

/-! ## Stores that are only added to -/

namespace Program

/-- The second program has what the first has, in the same place, apart from functions and
nodes. -/
structure Extends (before after : Program) : Prop where
  signatures : before.signatures.toList <+: after.signatures.toList
  imports : before.imports.toList <+: after.imports.toList
  exports : before.exports.toList <+: after.exports.toList
  table : before.table.toList <+: after.table.toList
  exportIndices : ∀ (name : Name) (index : Nat),
    before.exportIndices[name]? = some index → after.exportIndices[name]? = some index
  bindings : ∀ (var : Var) (entity : Entity),
    before.bindings[var]? = some entity → after.bindings[var]? = some entity
  names : ∀ (name : Name) (text : String),
    before.names.lookup name = .ok text → after.names.lookup name = .ok text

namespace Extends

variable {before middle after : Program}

theorem refl (program : Program) : program.Extends program where
  signatures := List.prefix_rfl
  imports := List.prefix_rfl
  exports := List.prefix_rfl
  table := List.prefix_rfl
  exportIndices _ _ found := found
  bindings _ _ found := found
  names _ _ found := found

theorem trans (first : before.Extends middle) (second : middle.Extends after) :
    before.Extends after where
  signatures := first.signatures.trans second.signatures
  imports := first.imports.trans second.imports
  exports := first.exports.trans second.exports
  table := first.table.trans second.table
  exportIndices name index found := second.exportIndices name index (first.exportIndices _ _ found)
  bindings var entity found := second.bindings var entity (first.bindings _ _ found)
  names name text found := second.names name text (first.names _ _ found)

end Extends

theorem prefix_push {α : Type} (entries : Array α) (entry : α) :
    entries.toList <+: (entries.push entry).toList := by
  rw [Array.toList_push]
  exact List.prefix_append _ _

/-- What stands at a position of a store stands there when the store gets longer. -/
theorem getElem?_of_longer {α : Type} {before after : Array α} {index : Nat} {entry : α}
    (longer : before.toList <+: after.toList) (found : before[index]? = some entry) :
    after[index]? = some entry := by
  obtain ⟨inside, same⟩ := Array.getElem?_eq_some_iff.1 found
  have kept := List.prefix_iff_getElem?.1 longer index (by simpa using inside)
  rw [Array.getElem?_toList] at kept
  simpa [same] using kept

/-- What a call appends, it appends at the end. -/
theorem stores_step (request : Request) (program : Program) :
    program.signatures.toList <+: (request.step program).2.signatures.toList ∧
    program.imports.toList <+: (request.step program).2.imports.toList ∧
    program.exports.toList <+: (request.step program).2.exports.toList ∧
    program.table.toList <+: (request.step program).2.table.toList := by
  have same : ∀ {α : Type} (entries : Array α), entries.toList <+: entries.toList :=
    fun _ => List.prefix_rfl
  cases request.outcome program with
  | failed step =>
    rw [step]
    exact ⟨same _, same _, same _, same _⟩
  | stuck mints why step =>
    rw [step]
    exact ⟨same _, same _, same _, same _⟩
  | succeeded effect step =>
    rw [step]
    cases effect with
    | addedSignature free => exact ⟨prefix_push _ _, same _, same _, same _⟩
    | addedImport free => exact ⟨same _, prefix_push _ _, same _, same _⟩
    | addedExport free => exact ⟨same _, same _, prefix_push _ _, same _⟩
    | pushedTableEntry var => exact ⟨same _, same _, same _, prefix_push _ _⟩
    | _ => exact ⟨same _, same _, same _, same _⟩

/-- An export name keeps its position: a name that has one is refused. -/
theorem exportIndices_step {program : Program} {name : Name} {index : Nat}
    (found : program.exportIndices[name]? = some index) (request : Request) :
    (request.step program).2.exportIndices[name]? = some index := by
  cases request.outcome program with
  | failed step =>
    rw [step]
    exact found
  | stuck mints why step =>
    rw [step]
    exact found
  | succeeded effect step =>
    rw [step]
    cases effect with
    | @addedExport entry free =>
      have other : entry.name ≠ name := by
        rintro rfl
        rw [Std.ExtTreeMap.getElem?_eq_none free] at found
        cases found
      show (program.exportIndices.insert entry.name program.exports.size)[name]? = some index
      rw [Std.ExtTreeMap.getElem?_insert, if_neg (by simpa using other)]
      exact found
    | _ => exact found

theorem extends_step (request : Request) (program : Program) :
    program.Extends (request.step program).2 := by
  obtain ⟨signatures, imports, exports, table⟩ := stores_step request program
  refine ⟨signatures, imports, exports, table, ?_, ?_, ?_⟩
  · intro name index found
    exact exportIndices_step found request
  · intro var entity found
    exact (grown_step request program).getElem?_of_some found
  · intro name text found
    rw [names_step]
    exact Interner.lookup_internAll found _

theorem extends_after (program : Program) (requests : List Request) :
    program.Extends (program.after requests) :=
  after_of_step (.refl program) fun request before _ extended =>
    extended.trans (extends_step request before)

/-! ## Functions and nodes -/

variable {program : Program} {index : Nat} {func : Func} {id : NodeId} {node : Node}

/-- A function differs only where a request aims at its position, and in more than its body only
where it is overwritten there. -/
theorem function_after (found : program.function index = .ok func) (requests : List Request) :
    ∃ kept, (program.after requests).function index = .ok kept ∧
      (kept ≠ func → ∃ request ∈ requests, request.changes? = some index) ∧
      ({ kept with body := func.body } ≠ func → ∃ new, .setFunction index new ∈ requests) := by
  have stored := function_eq_ok_iff.1 found
  have reached := function_edited_after stored requests
  refine ⟨_, function_eq_ok_iff.2 reached, ?_, ?_⟩
  · intro differs
    by_contra unaimed
    have elsewhere : ∀ request ∈ requests, request.changes? ≠ some index :=
      fun request member aimed => unaimed ⟨request, member, aimed⟩
    have same := reached.symm.trans (function_after_of_elsewhere stored elsewhere)
    exact differs (Option.some.inj same)
  · intro differs
    by_contra unaimed
    have spared : ∀ new, .setFunction index new ∉ requests :=
      fun new member => unaimed ⟨new, member⟩
    obtain ⟨body, given⟩ := exists_body_after stored spared
    have same := Option.some.inj (reached.symm.trans given)
    apply differs
    rw [same]

/-- A node differs only where a request writes to its handle. -/
theorem node_after (found : program.node id = .ok node) (requests : List Request) :
    ∃ kept, (program.after requests).node id = .ok kept ∧
      (kept ≠ node → ∃ request ∈ requests, request.writes? = some id) := by
  have stored := node_eq_ok_iff.1 found
  have reached := get?_edited_after stored requests
  refine ⟨_, node_eq_ok_iff.2 reached, ?_⟩
  intro differs
  by_contra unaimed
  have elsewhere : ∀ request ∈ requests, request.writes? ≠ some id :=
    fun request member aimed => unaimed ⟨request, member, aimed⟩
  have same := reached.symm.trans (get?_after_of_elsewhere stored elsewhere)
  exact differs (Option.some.inj same)

/-! ## Runs and their continuations -/

/-- **What was handed out stays valid.**  However a run is split, whatever is valid after the
first part is valid after the second.  Signatures, imports, exports, table entries, bindings,
export names and interned names are exactly what they were, and the stores and the table list
them at the same positions.  A function differs only if the second part edited the function
at that very position, and in more than its body only if it overwrote it; a node differs only
if the second part wrote to that very handle. -/
theorem ids_are_stable (start : Program) (earlier later : List Request) :
    let before := start.after earlier
    let after := start.after (earlier ++ later)
    before.Extends after ∧
    (∀ index entry, before.signature index = .ok entry → after.signature index = .ok entry) ∧
    (∀ index entry, before.imported index = .ok entry → after.imported index = .ok entry) ∧
    (∀ index entry, before.exported index = .ok entry → after.exported index = .ok entry) ∧
    (∀ (position : Nat) var, before.table[position]? = some var →
      after.table[position]? = some var) ∧
    (∀ index func, before.function index = .ok func → ∃ kept, after.function index = .ok kept ∧
      (kept ≠ func → ∃ request ∈ later, request.changes? = some index) ∧
      ({ kept with body := func.body } ≠ func → ∃ new, .setFunction index new ∈ later)) ∧
    (∀ id node, before.node id = .ok node → ∃ kept, after.node id = .ok kept ∧
      (kept ≠ node → ∃ request ∈ later, request.writes? = some id)) ∧
    (∀ var entity, before.resolve var = .ok entity → after.resolve var = .ok entity) ∧
    (∀ name index, before.resolveExport name = .ok index →
      after.resolveExport name = .ok index) ∧
    (∀ name text, before.nameText name = .ok text → after.nameText name = .ok text) := by
  intro before after
  have split : after = before.after later := after_append start earlier later
  have extended : before.Extends after := by
    rw [split]
    exact extends_after before later
  have kept {α : Type} {entries longer : Array α} (prefixed : entries.toList <+: longer.toList)
      (index : Nat) (value : α) (found : entry entries index = .ok value) :
      entry longer index = .ok value :=
    entry_eq_ok_iff.2 (getElem?_of_longer prefixed (entry_eq_ok_iff.1 found))
  refine ⟨extended, kept extended.signatures, kept extended.imports, kept extended.exports,
    fun position var => getElem?_of_longer extended.table, ?_, ?_, ?_, ?_, ?_⟩
  · intro index func found
    rw [split]
    exact function_after found later
  · intro id node found
    rw [split]
    exact node_after found later
  · intro var entity found
    exact resolve_eq_ok_iff.2 (extended.bindings var entity (resolve_eq_ok_iff.1 found))
  · intro name index found
    exact resolveExport_eq_ok_iff.2
      (extended.exportIndices name index (resolveExport_eq_ok_iff.1 found))
  · intro name text found
    exact nameText_eq_ok_iff.2 (extended.names name text (nameText_eq_ok_iff.1 found))

/-- Of two functions one is given a body and the other is overwritten; of two nodes one is
overwritten, and a third is added. -/
theorem ids_are_stable_of_edits :
    let main : Func := ⟨⟨1⟩, .void, [], [], none⟩
    let earlier : List Request :=
      [.intern "pair", .intern "main", .intern "helper", .addSignature ⟨⟨0⟩, .i32, []⟩,
        .addFunction main, .addFunction { main with name := ⟨2⟩ }, .addExport ⟨⟨1⟩, .named ⟨1⟩⟩,
        .alloc .nop, .alloc (.block .unset [⟨0⟩])]
    let later : List Request :=
      [.setBody 0 ⟨1⟩, .setFunction 1 main, .setNode ⟨1⟩ (.marker (.index 7)), .alloc .nop]
    let after := empty.after (earlier ++ later)
    after.signature 0 = .ok ⟨⟨0⟩, .i32, []⟩ ∧
    (∃ kept, after.function 0 = .ok kept ∧ { kept with body := none } = main) ∧
    after.node ⟨0⟩ = .ok .nop ∧
    after.resolveExport ⟨1⟩ = .ok 0 := by
  intro main earlier later after
  obtain ⟨-, signatures, -, -, -, functions, nodes, -, exports, -⟩ :=
    ids_are_stable empty earlier later
  obtain ⟨kept, found, -, overwritten⟩ := functions 0 main (by decide +kernel)
  obtain ⟨node, there, written⟩ := nodes ⟨0⟩ .nop (by decide +kernel)
  refine ⟨signatures 0 _ (by decide +kernel), ⟨kept, found, ?_⟩, ?_,
    exports _ _ (by decide +kernel)⟩
  · by_contra differs
    obtain ⟨new, member⟩ := overwritten differs
    simp [later] at member
  · have same : node = .nop := by
      by_contra differs
      obtain ⟨request, member, aimed⟩ := written differs
      simp only [later, List.mem_cons, List.not_mem_nil, or_false] at member
      rcases member with rfl | rfl | rfl | rfl <;> simp [Request.writes?] at aimed
    rw [← same]
    exact there

end Program

end TreeIR
