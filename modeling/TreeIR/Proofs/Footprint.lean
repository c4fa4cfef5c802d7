/-
# TreeIR.Proofs.Footprint -- a walk depends on what its root reaches and on nothing else

Other nodes come and go around a tree while it is looked at: they are allocated, they point
into it, they are rewired.  Two programs that have the same nodes at all handles that the first
reaches from a root (`SameBelow`) reach the same handles from it, and their walks from it are
the same.  That is shown for walks with any stack, since the handles on a stack reach no more
than the root does, and with any limit, so cycles need no care.

Where everything that a root reaches exists, a run can only change it by writing to it: a handle
that leads to a node is not handed out again (`get?_after_of_elsewhere`), so what a run appends
lies elsewhere.
-/
import TreeIR.Proofs.NodeStore
import TreeIR.Proofs.Reachability

namespace TreeIR

set_option autoImplicit false

namespace Program

variable {program other : Program} {root id : NodeId}

/-! ## The same nodes below a root -/

/-- The second program has the nodes of the first at all handles that the first reaches. -/
def SameBelow (program other : Program) (root : NodeId) : Prop :=
  ∀ id, program.Reaches root id → other.nodes.get? id = program.nodes.get? id

theorem SameBelow.of_reaches (same : program.SameBelow other root)
    (path : program.Reaches root id) : program.SameBelow other id :=
  fun _ further => same _ (path.trans further)

theorem SameBelow.child_iff (same : program.SameBelow other root)
    (path : program.Reaches root id) {child : NodeId} :
    other.Child id child ↔ program.Child id child := by
  rw [Child, Child, same id path]

/-- What the second program reaches is what the first reaches: no reference leads out of it. -/
theorem SameBelow.reaches_iff (same : program.SameBelow other root) :
    other.Reaches root id ↔ program.Reaches root id := by
  constructor
  · intro path
    induction path with
    | refl => exact .refl program root
    | tail _ edge ih => exact ih.tail ((same.child_iff ih).1 edge)
  · intro path
    induction path with
    | refl => exact .refl other root
    | tail earlier edge ih => exact ih.tail ((same.child_iff earlier).2 edge)

/-- Walks with the same stack are the same, since what is pushed on it is reached from it. -/
theorem walkStack_of_sameBelow {limit : Nat} {stack : List NodeId} {visits : Array Visit}
    (same : ∀ id ∈ stack, program.SameBelow other id) :
    other.walkStack limit stack visits = program.walkStack limit stack visits := by
  fun_induction walkStack program limit stack visits with
  | case1 limit visits => rw [walkStack]
  | case2 limit id stack visits unknown =>
    rw [walkStack, same id (.head _) id (.refl program id), unknown]
  | case3 id stack visits node found =>
    rw [walkStack, same id (.head _) id (.refl program id), found]
  | case4 id stack visits node found limit ih =>
    have below : ∀ next ∈ node.children ++ stack, program.SameBelow other next := by
      intro next member
      rcases List.mem_append.1 member with slot | later
      · exact (same id (.head _)).of_reaches (reaches_of_mem_children found slot)
      · exact same next (.tail _ later)
    rw [walkStack, same id (.head _) id (.refl program id), found]
    exact ih below

theorem walk_of_sameBelow (same : program.SameBelow other root) (limit : Nat) :
    other.walk root limit = program.walk root limit := by
  apply walkStack_of_sameBelow
  intro id member
  rwa [List.mem_singleton.1 member]

/-! ## Runs that write elsewhere -/

/-- A run that writes to nothing a root reaches leaves all of it as it is. -/
theorem sameBelow_after (closed : program.ClosedBelow root) {requests : List Request}
    (outside : ∀ request ∈ requests, ∀ id, request.writes? = some id →
      ¬program.Reaches root id) :
    program.SameBelow (program.after requests) root := by
  intro id path
  obtain ⟨node, found⟩ := closed id path
  rw [found]
  apply get?_after_of_elsewhere found
  intro request member writes
  exact outside request member id writes path

/-- **A walk sees only what its root reaches.**  Where everything that can be reached from a
root exists, cycles or not, no run that writes only to nodes outside of it makes a difference
to it, whatever else the run does and whether its calls succeed or fail: the same handles are
reached from the root, the same nodes are found there, and every walk from the root, with any
limit, makes the same visits and ends the same way. -/
theorem walk_eq_of_writes_outside (program : Program) (root : NodeId)
    (closed : program.ClosedBelow root) (requests : List Request)
    (outside : ∀ request ∈ requests, ∀ id, request.writes? = some id →
      ¬program.Reaches root id) :
    (∀ id, (program.after requests).Reaches root id ↔ program.Reaches root id) ∧
    (∀ id, program.Reaches root id → (program.after requests).node id = program.node id) ∧
    ∀ limit, (program.after requests).walk root limit = program.walk root limit := by
  have same := sameBelow_after closed outside
  refine ⟨fun id => same.reaches_iff, ?_, walk_of_sameBelow same⟩
  intro id path
  rw [node, node, Arena.get, Arena.get, same id path]

/-- Two blocks that contain each other.  The run points into them, rewires and overwrites its
own nodes, fails to write to a node that is not there, and makes one of them the body of a
function. -/
theorem walk_eq_of_writes_outside_of_blocks :
    let program := empty.after
      [.alloc (.block .unset [⟨1⟩]), .alloc (.block (.index 7) [⟨0⟩]), .alloc .nop]
    let requests : List Request :=
      [.build (.block (.index 8) [⟨0⟩, ⟨2⟩]), .setNode ⟨2⟩ (.block .unset [⟨1⟩]),
        .putChildren ⟨3⟩ [⟨1⟩, ⟨1⟩], .setNode ⟨9⟩ .nop, .registerLabels ⟨1⟩, .freshVar,
        .intern "main", .addFunction ⟨⟨0⟩, .void, [], [], none⟩, .setBody 0 ⟨1⟩,
        .addFunction ⟨⟨0⟩, .void, [], [], none⟩]
    program.ClosedBelow ⟨0⟩ ∧ program.OnCycle ⟨0⟩ ∧
    ∀ limit, (program.after requests).walk ⟨0⟩ limit = program.walk ⟨0⟩ limit := by
  intro program requests
  have first : program.nodes.get? ⟨0⟩ = some (.block .unset [⟨1⟩]) := by decide +kernel
  have second : program.nodes.get? ⟨1⟩ = some (.block (.index 7) [⟨0⟩]) := by decide +kernel
  have both : ∀ id, program.Reaches ⟨0⟩ id → id = ⟨0⟩ ∨ id = ⟨1⟩ := by
    intro id path
    induction path with
    | refl => exact .inl rfl
    | tail _ edge ih =>
      obtain ⟨node, found, slot⟩ := edge
      rcases ih with rfl | rfl
      · cases first.symm.trans found
        exact .inr (List.mem_singleton.1 slot)
      · cases second.symm.trans found
        exact .inl (List.mem_singleton.1 slot)
  have closed : program.ClosedBelow ⟨0⟩ := by
    intro id path
    rcases both id path with rfl | rfl
    · exact ⟨_, first⟩
    · exact ⟨_, second⟩
  have outside : ∀ request ∈ requests, ∀ id, request.writes? = some id →
      ¬program.Reaches ⟨0⟩ id := by
    intro request member id writes path
    have elsewhere : ∀ request ∈ requests,
        request.writes? ≠ some ⟨0⟩ ∧ request.writes? ≠ some ⟨1⟩ := by decide +kernel
    rcases both id path with rfl | rfl
    · exact (elsewhere request member).1 writes
    · exact (elsewhere request member).2 writes
  obtain ⟨-, -, walks⟩ := walk_eq_of_writes_outside program ⟨0⟩ closed requests outside
  refine ⟨closed, ?_, walks⟩
  have edge : program.Child ⟨0⟩ ⟨1⟩ := ⟨_, first, .head _⟩
  have back : program.Child ⟨1⟩ ⟨0⟩ := ⟨_, second, .head _⟩
  exact .tail (.single edge) back

end Program

end TreeIR
