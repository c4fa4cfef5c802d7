/-
# TreeIR.Proofs.Termination -- a walk finishes exactly where there is no cycle

A walk keeps no record of where it has been, so sharing costs it visits and a cycle keeps
it busy for ever.  Where it finishes, the visits are a tree (`unfolds_of_finished`) and
more room would have changed nothing (`walkStack_of_more`).  Where nothing dangles, a walk
that does not finish uses up its limit, whatever the limit is: it meets no unknown node
(`ending_ne_unknown`), and being stopped means having made that many visits
(`size_of_limitReached`).
-/
import TreeIR.Proofs.Run
import TreeIR.Proofs.Unfolding

namespace TreeIR

set_option autoImplicit false

namespace Program

variable {program : Program} {root id : NodeId} {limit : Nat} {stack : List NodeId}
  {visits : Array Visit}

/-! ## Endings -/

/-- Room that a walk did not need does not show. -/
theorem walkStack_of_more (more : Nat)
    (finished : (program.walkStack limit stack visits).ending = .finished) :
    program.walkStack (limit + more) stack visits = program.walkStack limit stack visits := by
  fun_induction walkStack program limit stack visits with
  | case1 limit visits => rw [walkStack]
  | case2 limit id stack visits unknown => cases finished
  | case3 id stack visits node found => cases finished
  | case4 id stack visits node found limit ih =>
    rw [Nat.succ_add, walkStack, found]
    exact ih finished

/-- A walk is stopped when it has made as many visits as it may. -/
theorem size_of_limitReached
    (stopped : (program.walkStack limit stack visits).ending = .limitReached) :
    (program.walkStack limit stack visits).visits.size = visits.size + limit := by
  fun_induction walkStack program limit stack visits with
  | case1 limit visits => cases stopped
  | case2 limit id stack visits unknown => cases stopped
  | case3 id stack visits node found => rfl
  | case4 id stack visits node found limit ih =>
    rw [ih stopped, Array.size_push]
    omega

/-- Where nothing dangles no walk meets an unknown node. -/
theorem ending_ne_unknown (closed : ∀ id ∈ stack, program.ClosedBelow id) :
    (program.walkStack limit stack visits).ending ≠ .unknownNode id := by
  fun_induction walkStack program limit stack visits with
  | case1 limit visits => exact WalkEnd.noConfusion
  | case2 limit here stack visits unknown =>
    obtain ⟨node, found⟩ := closed here (.head _) here (.refl program here)
    cases unknown.symm.trans found
  | case3 here stack visits node found => exact WalkEnd.noConfusion
  | case4 here stack visits node found limit ih =>
    refine ih fun child member => ?_
    obtain slot | later := List.mem_append.1 member
    · exact (closed here (.head _)).of_reaches (reaches_of_mem_children found slot)
    · exact closed child (.tail _ later)

/-! ## Finishing -/

/-- A walk that finishes has visited the tree of its root. -/
theorem unfolds_of_finished (finished : (program.walk root limit).ending = .finished) :
    ∃ tree, program.Unfolds root tree ∧
      program.walk root limit = ⟨tree.preorder.toArray, .finished⟩ := by
  obtain ⟨trees, ids, each⟩ := exists_unfolds_of_finished finished
  obtain ⟨tree, rfl, rfl⟩ := List.map_eq_singleton_iff.1 ids
  have unfolds := each tree (.head _)
  have enough := walk_of_unfolds unfolds (Nat.le_add_left tree.preorder.length limit)
  exact ⟨tree, unfolds, (walkStack_of_more _ finished).symm.trans enough⟩

/-- **A walk finishes exactly if no cycle can be reached**, for every root below which
nothing dangles.  A walk that finishes has visited what can be reached from the root, the
root included, and nothing else; no larger limit would change it.  Where a cycle can be
reached, every walk makes all the visits its limit allows and asks for one more. -/
theorem walk_finishes_iff_acyclic (program : Program) (root : NodeId)
    (closed : program.ClosedBelow root) :
    ((∃ limit, (program.walk root limit).ending = .finished) ↔
      ∀ id, program.Reaches root id → ¬program.OnCycle id) ∧
    (∀ limit, (program.walk root limit).ending = .finished →
      (∀ id, (∃ visit ∈ (program.walk root limit).visits, visit.id = id) ↔
        program.Reaches root id) ∧
      ∀ more, program.walk root (limit + more) = program.walk root limit) ∧
    ((∃ id, program.Reaches root id ∧ program.OnCycle id) →
      ∀ limit, (program.walk root limit).ending = .limitReached ∧
        (program.walk root limit).visits.size = limit) := by
  refine ⟨⟨?_, ?_⟩, ?_, ?_⟩
  · rintro ⟨limit, finished⟩
    obtain ⟨tree, unfolds, -⟩ := unfolds_of_finished finished
    exact unfolds.acyclicBelow
  · intro acyclic
    obtain ⟨tree, unfolds⟩ := exists_unfolds closed acyclic
    exact ⟨_, congrArg Walk.ending (walk_of_unfolds unfolds (Nat.le_refl _))⟩
  · intro limit finished
    obtain ⟨tree, unfolds, walked⟩ := unfolds_of_finished finished
    refine ⟨fun id => ?_, fun more => walkStack_of_more more finished⟩
    rw [walked, ← unfolds.mem_preorder_iff]
    simp
  · rintro ⟨id, path, cycle⟩ limit
    have stopped : (program.walk root limit).ending = .limitReached := by
      cases ending : (program.walk root limit).ending with
      | finished =>
        obtain ⟨tree, unfolds, -⟩ := unfolds_of_finished ending
        exact absurd cycle (unfolds.acyclicBelow id path)
      | limitReached => rfl
      | unknownNode unknown =>
        have closedStack : ∀ id ∈ [root], program.ClosedBelow id := by
          simpa using closed
        exact absurd ending (ending_ne_unknown closedStack)
    have size := size_of_limitReached stopped
    exact ⟨stopped, size.trans (Nat.zero_add limit)⟩

/-- A node that is shared, and a block that contains itself. -/
theorem walk_finishes_iff_acyclic_of_blocks :
    let shared := empty.after
      [.alloc .nop, .alloc (.block .unset [⟨0⟩, ⟨0⟩]), .alloc (.block .unset [⟨1⟩, ⟨0⟩, ⟨1⟩])]
    let cyclic := empty.after [.alloc (.block .unset [⟨0⟩])]
    (shared.ClosedBelow ⟨2⟩ ∧ shared.AcyclicBelow ⟨2⟩ ∧ shared.Reaches ⟨2⟩ ⟨0⟩) ∧
    cyclic.ClosedBelow ⟨0⟩ ∧
      ∀ limit, (cyclic.walk ⟨0⟩ limit).ending = .limitReached ∧
        (cyclic.walk ⟨0⟩ limit).visits.size = limit := by
  intro shared cyclic
  have finished : (shared.walk ⟨2⟩ 8).ending = .finished := by decide +kernel
  have visited : ∃ visit ∈ (shared.walk ⟨2⟩ 8).visits, visit.id = ⟨0⟩ := by decide +kernel
  obtain ⟨tree, unfolds, -⟩ := unfolds_of_finished finished
  obtain ⟨acyclic, reached, -⟩ := walk_finishes_iff_acyclic shared ⟨2⟩ unfolds.closedBelow
  have itself : cyclic.nodes.get? ⟨0⟩ = some (.block .unset [⟨0⟩]) := by decide +kernel
  have closed : cyclic.ClosedBelow ⟨0⟩ := by
    intro id path
    suffices here : id = ⟨0⟩ from ⟨_, here ▸ itself⟩
    induction path with
    | refl => rfl
    | tail _ edge ih =>
      obtain ⟨node, found, slot⟩ := edge
      rw [ih, itself] at found
      cases found
      exact List.mem_singleton.1 slot
  obtain ⟨-, -, endless⟩ := walk_finishes_iff_acyclic cyclic ⟨0⟩ closed
  have cycle : cyclic.OnCycle ⟨0⟩ := .single ⟨_, itself, .head _⟩
  exact ⟨⟨unfolds.closedBelow, acyclic.1 ⟨8, finished⟩, ((reached 8 finished).1 ⟨0⟩).1 visited⟩,
    closed, endless ⟨_, .refl cyclic ⟨0⟩, cycle⟩⟩

end Program

end TreeIR
