/-
# TreeIR.Proofs.Substitution -- rewriting a child slot substitutes in the tree

A rewriting pass replaces one handle by another in the child slots of one node.  In the
arena that is a single write; seen from a root it is a substitution, made at every
occurrence of the node (`Tree.graft`).  The handle that was replaced may stand elsewhere,
in other nodes, and stays there.

The write is seen at its node only, so what does not contain the node keeps its tree
(`Unfolds.congr`), the replacement among it; and along the tree of the root the slots of
the node are the only places where the two programs differ (`unfolds_graft`).
-/
import TreeIR.Proofs.NodeStore
import TreeIR.Proofs.Unfolding

namespace TreeIR

set_option autoImplicit false

/-! ## Substitution -/

namespace Tree

mutual

/-- Replaces the trees in those slots of the parent that hold the old handle, wherever the
parent occurs. -/
def graft (parent old : NodeId) (new : Tree) : Tree → Tree
  | branch ⟨id, node⟩ below =>
      if id = parent then
        branch ⟨id, node.replaceChild (some old) new.id⟩ (graftSlots parent old new true below)
      else branch ⟨id, node⟩ (graftSlots parent old new false below)

/-- The same for trees side by side, which may be those in the slots of the parent. -/
def graftSlots (parent old : NodeId) (new : Tree) (inParent : Bool) : List Tree → List Tree
  | [] => []
  | tree :: rest =>
      (if inParent ∧ tree.id = old then new else graft parent old new tree) ::
        graftSlots parent old new inParent rest

end

variable {parent old : NodeId} {new : Tree}

theorem graftSlots_true (trees : List Tree) :
    graftSlots parent old new true trees =
      trees.map fun tree => if tree.id = old then new else graft parent old new tree := by
  induction trees with
  | nil => rfl
  | cons tree rest ih =>
    rw [graftSlots, ih]
    simp

theorem graftSlots_false (trees : List Tree) :
    graftSlots parent old new false trees = trees.map (graft parent old new) := by
  induction trees with
  | nil => rfl
  | cons tree rest ih =>
    rw [graftSlots, ih]
    simp

theorem id_graft (tree : Tree) : (graft parent old new tree).id = tree.id := by
  obtain ⟨⟨id, node⟩, below⟩ := tree
  rw [graft]
  split <;> rfl

end Tree

namespace Program

variable {program after : Program} {root parent old new : NodeId} {node : Node}
  {tree replacement : Tree}

/-- After the slots of one node were written, the root stands for the substituted tree. -/
theorem unfolds_graft (found : program.nodes.get? parent = some node)
    (written : after.nodes.get? parent = some (node.replaceChild (some old) new))
    (kept : ∀ id, id ≠ parent → after.nodes.get? id = program.nodes.get? id)
    (unfoldsNew : after.Unfolds new replacement) (unfolds : program.Unfolds root tree) :
    after.Unfolds root (Tree.graft parent old replacement tree) := by
  induction unfolds with
  | @branch id here below foundHere slots each ih =>
    rw [Tree.graft]
    by_cases occurs : id = parent
    · subst occurs
      cases found.symm.trans foundHere
      rw [if_pos rfl, unfoldsNew.id_eq, Tree.graftSlots_true]
      refine .branch written ?_ ?_
      · rw [Node.children_replaceChild, ← slots, List.map_map, List.map_map]
        refine List.map_congr_left fun tree inside => ?_
        by_cases replaced : tree.id = old
        · simp [replaced, unfoldsNew.id_eq]
        · simp [replaced, Tree.id_graft]
      · intro tree inside
        obtain ⟨slot, member, rfl⟩ := List.mem_map.1 inside
        by_cases replaced : slot.id = old
        · rw [if_pos replaced, unfoldsNew.id_eq]
          exact unfoldsNew
        · rw [if_neg replaced, Tree.id_graft]
          exact ih slot member
    · rw [if_neg occurs, Tree.graftSlots_false]
      refine .branch ((kept id occurs).trans foundHere) ?_ ?_
      · rw [← slots, List.map_map]
        exact List.map_congr_left fun tree inside => Tree.id_graft tree
      · intro tree inside
        obtain ⟨slot, member, rfl⟩ := List.mem_map.1 inside
        rw [Tree.id_graft]
        exact ih slot member

/-- Overwriting a node that exists succeeds and changes that node alone. -/
theorem step_setNode (found : program.nodes.get? parent = some node) (value : Node) :
    (Request.setNode parent value).step program =
      (.ok .done, { program with nodes := program.nodes.put parent value }) := by
  have writes : (Request.setNode parent value).writes? = some parent := rfl
  rw [step_of_writes found writes, Request.editNode, if_pos rfl]

/-- **Rewriting a child slot is substitution in the tree.**  Take a root, below which
nothing dangles and no cycle can be reached, so that it stands for exactly one tree; a node
that exists, wherever it occurs below the root or not; and two handles, of which the new
one has a tree of its own that does not contain the node.  Writing the new handle into
every child slot of the node that holds the old one succeeds, and then the walk from the
root finishes and visits in pre-order what results from the tree of the root by putting the
new tree into those slots at every occurrence of the node, and nothing else. -/
theorem walk_replaceChild_eq_graft (program : Program) (root parent old new : NodeId)
    (node : Node) (closed : program.ClosedBelow root) (acyclic : program.AcyclicBelow root)
    (found : program.nodes.get? parent = some node) (closedNew : program.ClosedBelow new)
    (apart : ¬program.Reaches new parent) (acyclicNew : program.AcyclicBelow new) :
    (∃! tree, program.Unfolds root tree) ∧ (∃! replacement, program.Unfolds new replacement) ∧
    ∀ tree replacement, program.Unfolds root tree → program.Unfolds new replacement →
      ∃ after, (Request.setNode parent (node.replaceChild (some old) new)).step program =
          (.ok .done, after) ∧
        after.Unfolds root (Tree.graft parent old replacement tree) ∧
        ∀ limit, (Tree.graft parent old replacement tree).preorder.length ≤ limit →
          after.walk root limit =
            ⟨(Tree.graft parent old replacement tree).preorder.toArray, .finished⟩ := by
  obtain ⟨tree, unfolds⟩ := exists_unfolds closed acyclic
  obtain ⟨replacement, unfoldsNew⟩ := exists_unfolds closedNew acyclicNew
  refine ⟨⟨tree, unfolds, fun _ again => again.unique unfolds⟩,
    ⟨replacement, unfoldsNew, fun _ again => again.unique unfoldsNew⟩, ?_⟩
  intro tree replacement unfolds unfoldsNew
  let after := { program with
    nodes := program.nodes.put parent (node.replaceChild (some old) new) }
  have written : after.nodes.get? parent = some (node.replaceChild (some old) new) := by
    rw [Arena.get?_put, if_pos rfl, found]
    rfl
  have kept : ∀ id, id ≠ parent → after.nodes.get? id = program.nodes.get? id := by
    intro id other
    rw [Arena.get?_put, if_neg other]
  have unfoldsNewAfter : after.Unfolds new replacement := by
    refine unfoldsNew.congr fun id path => kept id ?_
    rintro rfl
    exact apart path
  have substituted := unfolds_graft found written kept unfoldsNewAfter unfolds
  exact ⟨after, step_setNode found _, substituted, fun limit => walk_of_unfolds substituted⟩

/-- A shared block gets a constant in both of its slots; where the root itself refers to
the old node, it still does. -/
theorem walk_replaceChild_eq_graft_of_shared :
    let program := empty.after
      [.alloc .nop, .alloc (.block .unset [⟨0⟩, ⟨0⟩]), .alloc (.block .unset [⟨1⟩, ⟨0⟩, ⟨1⟩]),
        .alloc (.const (.i32 7))]
    program.ClosedBelow ⟨2⟩ ∧ program.AcyclicBelow ⟨2⟩ ∧ ¬program.Reaches ⟨3⟩ ⟨1⟩ ∧
    ∃ after, (Request.setNode ⟨1⟩ (.block .unset [⟨3⟩, ⟨3⟩])).step program = (.ok .done, after) ∧
      (after.walk ⟨2⟩ 8).visits.toList.map Visit.id =
        [⟨2⟩, ⟨1⟩, ⟨3⟩, ⟨3⟩, ⟨0⟩, ⟨1⟩, ⟨3⟩, ⟨3⟩] := by
  intro program
  let leaf := Tree.branch ⟨⟨0⟩, .nop⟩ []
  let shared := Tree.branch ⟨⟨1⟩, .block .unset [⟨0⟩, ⟨0⟩]⟩ [leaf, leaf]
  let whole := Tree.branch ⟨⟨2⟩, .block .unset [⟨1⟩, ⟨0⟩, ⟨1⟩]⟩ [shared, leaf, shared]
  let constant := Tree.branch ⟨⟨3⟩, .const (.i32 7)⟩ []
  have leafUnfolds : program.Unfolds ⟨0⟩ leaf := .branch (by decide +kernel) rfl (by simp)
  have found : program.nodes.get? ⟨1⟩ = some (.block .unset [⟨0⟩, ⟨0⟩]) := by decide +kernel
  have sharedUnfolds : program.Unfolds ⟨1⟩ shared := by
    refine .branch found rfl ?_
    rw [List.forall_mem_cons, List.forall_mem_singleton]
    exact ⟨leafUnfolds, leafUnfolds⟩
  have unfolds : program.Unfolds ⟨2⟩ whole := by
    refine .branch (by decide +kernel) rfl ?_
    rw [List.forall_mem_cons, List.forall_mem_cons, List.forall_mem_singleton]
    exact ⟨sharedUnfolds, leafUnfolds, sharedUnfolds⟩
  have unfoldsNew : program.Unfolds ⟨3⟩ constant := .branch (by decide +kernel) rfl (by simp)
  have apart : ¬program.Reaches ⟨3⟩ ⟨1⟩ := by
    rw [← unfoldsNew.mem_preorder_iff]
    simp [constant, Tree.preorder_branch]
  obtain ⟨-, -, substituted⟩ := walk_replaceChild_eq_graft program ⟨2⟩ ⟨1⟩ ⟨0⟩ ⟨3⟩ _
    unfolds.closedBelow unfolds.acyclicBelow found unfoldsNew.closedBelow apart
    unfoldsNew.acyclicBelow
  obtain ⟨after, step, -, walks⟩ := substituted whole constant unfolds unfoldsNew
  refine ⟨unfolds.closedBelow, unfolds.acyclicBelow, apart, after, step, ?_⟩
  rw [walks 8 (by decide)]
  rfl

end Program

end TreeIR
