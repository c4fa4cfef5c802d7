/-
# TreeIR.Proofs.BottomUp -- what is built bottom-up is a tree

Who makes children before their parents, and rewrites a node only so that it refers to
older ones, keeps every child older than its parent (`Descending`): a new node is younger
than all there are (`descending_step`).  References then lead to ever smaller handles, so
nothing dangles and nothing is on a cycle (`Descending.closedBelow`,
`Descending.acyclicBelow`), and a root has a tree, in which all but the top is older than
the root.  Sharing is not excluded, so the tree may be far larger than the program.
-/
import TreeIR.Proofs.NodeStore
import TreeIR.Proofs.Unfolding

namespace TreeIR

set_option autoImplicit false

/-! ## Building bottom-up -/

/-- The second node is the first with some child slots overwritten, by handles that are
smaller than the given one. -/
def Node.LoweredTo (node : Node) (id : NodeId) (other : Node) : Prop :=
  ∃ f : Nat → NodeId → NodeId, other = node.mapChildren f ∧
    ∀ slot child, f slot child = child ∨ (f slot child).position < id.position

/-- A call that appends, if anything, a node over children that exist, and changes, if
anything, child slots of a node, to handles smaller than that node's. -/
structure Request.BottomUp (request : Request) (program : Program) : Prop where
  adds : ∀ node answer, request.adds? program = some node →
    (request.step program).1 = .ok answer → ∀ child ∈ node.children, program.Allocated child
  overwrites : ∀ id old node, request.overwrites? program = some (id, node) →
    program.nodes.get? id = some old → old.LoweredTo id node

theorem Request.BottomUp.of_adds {request : Request} {program : Program} {node : Node}
    (adds : request.adds? program = some node) (overwrites : request.overwrites? program = none)
    (each : ∀ child ∈ node.children, program.Allocated child) : request.BottomUp program where
  adds other _ same _ := by
    cases adds.symm.trans same
    exact each
  overwrites _ _ _ same := by cases overwrites.symm.trans same

theorem Request.BottomUp.of_overwrites {request : Request} {program : Program} {id : NodeId}
    {old node : Node} (adds : request.adds? program = none)
    (overwrites : request.overwrites? program = some (id, node))
    (found : program.nodes.get? id = some old) (lowered : old.LoweredTo id node) :
    request.BottomUp program where
  adds _ _ same := by cases adds.symm.trans same
  overwrites _ _ _ same foundAgain := by
    cases overwrites.symm.trans same
    cases found.symm.trans foundAgain
    exact lowered

namespace Program

variable {program : Program} {root id : NodeId} {node : Node}

/-- A run of such calls. -/
def BottomUpRun (program : Program) : List Request → Prop
  | [] => True
  | request :: rest =>
      request.BottomUp program ∧ BottomUpRun (request.step program).2 rest

theorem BottomUpRun.of_append {requests later : List Request}
    (bottomUp : program.BottomUpRun (requests ++ later)) : program.BottomUpRun requests := by
  induction requests generalizing program with
  | nil => trivial
  | cons request rest ih => exact ⟨bottomUp.1, ih bottomUp.2⟩

/-! ## Older children -/

/-- Every child is older than its parent. -/
structure Descending (program : Program) : Prop where
  sound : program.nodes.Sound
  older : ∀ id node, program.nodes.get? id = some node →
    ∀ child ∈ node.children, child.position < id.position

theorem Created.descending (created : program.Created) : program.Descending where
  sound := created.sound
  older id node found := by
    rw [created.get?_eq_none] at found
    cases found

theorem Descending.lowered (descending : program.Descending) {other : Node}
    (found : program.nodes.get? id = some node) (lowered : node.LoweredTo id other) :
    ∀ child ∈ other.children, child.position < id.position := by
  obtain ⟨f, rfl, lower⟩ := lowered
  intro child member
  rw [Node.children_mapChildren, List.mem_mapIdx] at member
  obtain ⟨slot, inside, rfl⟩ := member
  obtain same | smaller := lower slot node.children[slot]
  · rw [same]
    exact descending.older id node found _ (List.getElem_mem inside)
  · exact smaller

theorem descending_step {request : Request} (descending : program.Descending)
    (bottomUp : request.BottomUp program) : (request.step program).2.Descending where
  sound := sound_step descending.sound request
  older id node found child member := by
    obtain before | ⟨adds, rfl, succeeds⟩ | ⟨old, overwrites, stored⟩ :=
      get?_of_step descending.sound found
    · exact descending.older id node before child member
    · obtain ⟨value, there⟩ := bottomUp.adds node _ adds succeeds child member
      rw [descending.sound.position_next]
      exact (Arena.get?_isSome_iff descending.sound child).1 (Option.isSome_of_mem there)
    · exact descending.lowered stored (bottomUp.overwrites id old node overwrites stored) child
        member

theorem descending_after {requests : List Request} (descending : program.Descending)
    (bottomUp : program.BottomUpRun requests) : (program.after requests).Descending := by
  induction requests generalizing program with
  | nil => exact descending
  | cons request rest ih => exact ih (descending_step descending bottomUp.1) bottomUp.2

/-! ## Trees -/

theorem Descending.child (descending : program.Descending) {child : NodeId}
    (edge : program.Child id child) : child.position < id.position := by
  obtain ⟨node, found, member⟩ := edge
  exact descending.older id node found child member

theorem Descending.descendant (descending : program.Descending) {lower : NodeId}
    (path : Relation.TransGen program.Child id lower) : lower.position < id.position := by
  induction path with
  | single edge => exact descending.child edge
  | tail _ edge ih => exact (descending.child edge).trans ih

theorem Descending.acyclicBelow (descending : program.Descending) (root : NodeId) :
    program.AcyclicBelow root :=
  fun _ _ cycle => Nat.lt_irrefl _ (descending.descendant cycle)

/-- What is older than something that exists, exists. -/
theorem Descending.closedBelow (descending : program.Descending)
    (allocated : program.Allocated root) : program.ClosedBelow root := by
  intro id path
  obtain rfl | deeper := Relation.reflTransGen_iff_eq_or_transGen.1 path
  · exact allocated
  · obtain ⟨node, found⟩ := allocated
    have inside := (Arena.get?_isSome_iff descending.sound root).1 (Option.isSome_of_mem found)
    have smaller := (descending.descendant deeper).trans inside
    exact Option.isSome_iff_exists.1 ((Arena.get?_isSome_iff descending.sound id).2 smaller)

/-- The tree of a root has nothing but older nodes below its top. -/
theorem Descending.walk_eq (descending : program.Descending)
    (found : program.nodes.get? root = some node) :
    ∃ later : List Visit, (∀ visit ∈ later, visit.id.position < root.position) ∧
      ∀ limit, later.length < limit →
        program.walk root limit = ⟨(⟨root, node⟩ :: later).toArray, .finished⟩ := by
  obtain ⟨tree, unfolds⟩ :=
    exists_unfolds (descending.closedBelow ⟨node, found⟩) (descending.acyclicBelow root)
  have walked : ∀ limit, tree.preorder.length ≤ limit →
      program.walk root limit = ⟨tree.preorder.toArray, .finished⟩ :=
    fun _ => walk_of_unfolds unfolds
  cases unfolds with
  | @branch root top below foundTop slots each =>
    cases found.symm.trans foundTop
    rw [Tree.preorder_branch] at walked
    refine ⟨below.flatMap Tree.preorder, ?_, walked⟩
    intro visit member
    obtain ⟨child, inside, visited⟩ := List.mem_flatMap.1 member
    have slot : child.id ∈ node.children := slots ▸ List.mem_map_of_mem inside
    have path := (each child inside).mem_preorder_iff.1 ⟨visit, visited, rfl⟩
    exact descending.descendant (.head' ⟨node, found, slot⟩ path)

/-- **Bottom-up construction gives acyclic trees.**  In every state of a run that builds
bottom-up, each child of each node is older than the node; so the walk from every root that
exists finishes, visits the root first and after it nothing but older nodes. -/
theorem walk_of_bottomUp (created : program.Created) (requests : List Request)
    (bottomUp : program.BottomUpRun requests) (earlier : List Request)
    (reached : earlier <+: requests) :
    (∀ id node, (program.after earlier).nodes.get? id = some node →
      ∀ child ∈ node.children, child.position < id.position) ∧
    ∀ root node, (program.after earlier).nodes.get? root = some node →
      ∃ later : List Visit, (∀ visit ∈ later, visit.id.position < root.position) ∧
        ∀ limit, later.length < limit →
          (program.after earlier).walk root limit =
            ⟨(⟨root, node⟩ :: later).toArray, .finished⟩ := by
  obtain ⟨later, rfl⟩ := reached
  have descending := descending_after created.descending bottomUp.of_append
  exact ⟨descending.older, fun root node => descending.walk_eq⟩

/-- A block over a shared block, one of whose slots is then lowered. -/
theorem walk_of_bottomUp_of_blocks :
    let requests : List Request := [.alloc .nop, .build (.block .unset [⟨0⟩, ⟨0⟩]),
      .alloc (.block .unset [⟨1⟩, ⟨1⟩]), .setNode ⟨2⟩ (.block .unset [⟨0⟩, ⟨1⟩])]
    empty.BottomUpRun requests ∧
    ∃ later : List Visit, (∀ visit ∈ later, visit.id.position < 2) ∧
      ∀ limit, later.length < limit →
        (empty.after requests).walk ⟨2⟩ limit =
          ⟨(⟨⟨2⟩, .block .unset [⟨0⟩, ⟨1⟩]⟩ :: later).toArray, .finished⟩ := by
  intro requests
  have stored : (empty.after (requests.take 3)).nodes.get? ⟨2⟩ =
      some (.block .unset [⟨1⟩, ⟨1⟩]) := by decide +kernel
  have lowered : (Node.block .unset [⟨1⟩, ⟨1⟩]).LoweredTo ⟨2⟩ (.block .unset [⟨0⟩, ⟨1⟩]) := by
    refine ⟨fun slot child => if slot = 0 then ⟨0⟩ else child, rfl, fun slot child => ?_⟩
    by_cases first : slot = 0
    · have lower : (⟨0⟩ : NodeId).position < (⟨2⟩ : NodeId).position := by decide
      exact .inr (by simpa only [if_pos first] using lower)
    · exact .inl (if_neg first)
  have bottomUp : empty.BottomUpRun requests := by
    refine ⟨.of_adds rfl rfl ?_, .of_adds rfl rfl ?_, .of_adds rfl rfl ?_,
      .of_overwrites rfl rfl stored lowered, trivial⟩
    · decide +kernel
    · decide +kernel
    · decide +kernel
  obtain ⟨-, walks⟩ := walk_of_bottomUp (.inl rfl) requests bottomUp requests List.prefix_rfl
  exact ⟨bottomUp, walks ⟨2⟩ _ (by decide +kernel)⟩

end Program

end TreeIR
