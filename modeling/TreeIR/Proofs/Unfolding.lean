/-
# TreeIR.Proofs.Unfolding -- a graph seen from a root is a tree

Below a root without cycles a program is a tree written down with sharing: `Unfolds` says
which `Tree` a handle stands for, with a shared node once for every path that leads to it.
There is at most one (`Unfolds.unique`), and there is one exactly if nothing dangles and
nothing is on a cycle (`exists_unfolds`, `Unfolds.closedBelow`, `Unfolds.acyclicBelow`).

A walk does not know about trees, it has a stack.  But a handle that unfolds is worked off
as a whole, by the visits of its tree in pre-order, before what lies under it on the stack
is touched (`walkStack_of_unfolds`).  Conversely, a walk that finishes has seen a tree for
everything that was on the stack (`exists_unfolds_of_finished`).
-/
import TreeIR.Proofs.Reachability

namespace TreeIR

set_option autoImplicit false

/-! ## Trees -/

/-- A visit with what is visited below it. -/
inductive Tree
  | branch (visit : Visit) (below : List Tree)

namespace Tree

/-- The visit at the top. -/
def top : Tree → Visit
  | branch visit _ => visit

/-- The handle at the top. -/
def id (tree : Tree) : NodeId := tree.top.id

mutual

/-- The visits in pre-order. -/
def preorder : Tree → List Visit
  | branch visit below => visit :: preorderAll below

/-- The visits of one tree after the other. -/
def preorderAll : List Tree → List Visit
  | [] => []
  | tree :: rest => preorder tree ++ preorderAll rest

end

theorem preorderAll_eq_flatMap (trees : List Tree) :
    preorderAll trees = trees.flatMap preorder := by
  induction trees with
  | nil => rfl
  | cons tree rest ih => rw [preorderAll, ih, List.flatMap_cons]

theorem preorder_branch (visit : Visit) (below : List Tree) :
    (branch visit below).preorder = visit :: below.flatMap preorder := by
  rw [preorder, preorderAll_eq_flatMap]

end Tree

namespace Program

variable {program : Program} {root id : NodeId} {tree : Tree}

/-- The tree that a handle stands for: the trees below the top stand for the children in
order. -/
inductive Unfolds (program : Program) : NodeId → Tree → Prop
  | branch {id : NodeId} {node : Node} {below : List Tree}
      (found : program.nodes.get? id = some node)
      (slots : below.map Tree.id = node.children)
      (each : ∀ tree ∈ below, Unfolds program tree.id tree) :
      Unfolds program id (.branch ⟨id, node⟩ below)

theorem Unfolds.id_eq (unfolds : program.Unfolds id tree) : tree.id = id := by
  cases unfolds
  rfl

/-- Lists of trees with the same handles agree if trees with the same handle do. -/
theorem eq_of_map_id_eq {trees others : List Tree} (same : trees.map Tree.id = others.map Tree.id)
    (each : ∀ tree ∈ trees, ∀ other ∈ others, tree.id = other.id → tree = other) :
    trees = others := by
  induction trees generalizing others with
  | nil => exact (List.map_eq_nil_iff.1 same.symm).symm
  | cons tree rest ih =>
    cases others with
    | nil => cases same
    | cons other others =>
      rw [List.map_cons, List.map_cons, List.cons.injEq] at same
      rw [each tree (.head _) other (.head _) same.1,
        ih same.2 fun tree member other others => each tree (.tail _ member) other (.tail _ others)]

/-- A handle stands for one tree at most. -/
theorem Unfolds.unique {other : Tree} (unfolds : program.Unfolds id tree)
    (again : program.Unfolds id other) : tree = other := by
  induction unfolds generalizing other with
  | branch found slots each ih =>
    cases again with
    | branch foundAgain slotsAgain eachAgain =>
      cases found.symm.trans foundAgain
      congr 1
      refine eq_of_map_id_eq (slots.trans slotsAgain.symm) fun tree member other others same => ?_
      exact ih tree member (same ▸ eachAgain other others)

/-- The tree depends on nothing but the nodes that can be reached. -/
theorem Unfolds.congr {other : Program} (unfolds : program.Unfolds root tree)
    (same : ∀ id, program.Reaches root id → other.nodes.get? id = program.nodes.get? id) :
    other.Unfolds root tree := by
  induction unfolds with
  | @branch root node below found slots each ih =>
    refine .branch ((same root (.refl program root)).trans found) slots fun tree inside => ?_
    have slot : tree.id ∈ node.children := slots ▸ List.mem_map_of_mem inside
    exact ih tree inside fun id path => same id ((reaches_of_mem_children found slot).trans path)

/-! ## Trees and reachability -/

/-- A tree has the handles that can be reached from its top. -/
theorem Unfolds.mem_preorder_iff (unfolds : program.Unfolds root tree) :
    (∃ visit ∈ tree.preorder, visit.id = id) ↔ program.Reaches root id := by
  induction unfolds with
  | @branch root node below found slots each ih =>
    rw [Tree.preorder_branch]
    constructor
    · rintro ⟨visit, member, rfl⟩
      obtain rfl | deeper := List.mem_cons.1 member
      · exact .refl program root
      · obtain ⟨tree, inside, visited⟩ := List.mem_flatMap.1 deeper
        have slot : tree.id ∈ node.children := slots ▸ List.mem_map_of_mem inside
        exact (reaches_of_mem_children found slot).trans ((ih tree inside).1 ⟨visit, visited, rfl⟩)
    · intro path
      obtain rfl | ⟨child, ⟨other, foundAgain, slot⟩, further⟩ :=
        Relation.ReflTransGen.cases_head path
      · exact ⟨_, .head _, rfl⟩
      · cases found.symm.trans foundAgain
        rw [← slots] at slot
        obtain ⟨tree, inside, rfl⟩ := List.mem_map.1 slot
        obtain ⟨visit, visited, here⟩ := (ih tree inside).2 further
        exact ⟨visit, .tail _ (List.mem_flatMap.2 ⟨tree, inside, visited⟩), here⟩

/-- The tree of a child is smaller. -/
theorem Unfolds.child {child : NodeId} (unfolds : program.Unfolds root tree)
    (edge : program.Child root child) :
    ∃ lower, program.Unfolds child lower ∧ lower.preorder.length < tree.preorder.length := by
  obtain ⟨found, slots, each⟩ := unfolds
  obtain ⟨node, foundAgain, slot⟩ := edge
  cases found.symm.trans foundAgain
  rw [← slots] at slot
  obtain ⟨lower, inside, rfl⟩ := List.mem_map.1 slot
  refine ⟨lower, each lower inside, ?_⟩
  obtain ⟨before, after, rfl⟩ := List.append_of_mem inside
  simp only [Tree.preorder_branch, List.flatMap_append, List.flatMap_cons, List.length_cons,
    List.length_append]
  omega

theorem Unfolds.descendant (unfolds : program.Unfolds root tree)
    (path : Relation.TransGen program.Child root id) :
    ∃ lower, program.Unfolds id lower ∧ lower.preorder.length < tree.preorder.length := by
  induction path with
  | single edge => exact unfolds.child edge
  | tail _ edge ih =>
    obtain ⟨middle, unfoldsMiddle, shorter⟩ := ih
    obtain ⟨lower, unfoldsLower, shortest⟩ := unfoldsMiddle.child edge
    exact ⟨lower, unfoldsLower, shortest.trans shorter⟩

theorem Unfolds.of_reaches (unfolds : program.Unfolds root tree) (path : program.Reaches root id) :
    ∃ lower, program.Unfolds id lower := by
  obtain rfl | deeper := Relation.reflTransGen_iff_eq_or_transGen.1 path
  · exact ⟨tree, unfolds⟩
  · obtain ⟨lower, unfoldsLower, -⟩ := unfolds.descendant deeper
    exact ⟨lower, unfoldsLower⟩

theorem Unfolds.closedBelow (unfolds : program.Unfolds root tree) : program.ClosedBelow root := by
  intro id path
  obtain ⟨-, found, -, -⟩ := unfolds.of_reaches path
  exact ⟨_, found⟩

/-- A tree on a cycle would be smaller than itself. -/
theorem Unfolds.acyclicBelow (unfolds : program.Unfolds root tree) : program.AcyclicBelow root := by
  intro id path cycle
  obtain ⟨lower, unfoldsLower⟩ := unfolds.of_reaches path
  obtain ⟨again, unfoldsAgain, shorter⟩ := unfoldsLower.descendant cycle
  rw [unfoldsAgain.unique unfoldsLower] at shorter
  exact Nat.lt_irrefl _ shorter

/-- Handles that stand for trees stand for a list of them. -/
theorem exists_forest {ids : List NodeId} (each : ∀ id ∈ ids, ∃ tree, program.Unfolds id tree) :
    ∃ trees : List Tree, trees.map Tree.id = ids ∧
      ∀ tree ∈ trees, program.Unfolds tree.id tree := by
  induction ids with
  | nil => exact ⟨[], rfl, by simp⟩
  | cons id rest ih =>
    obtain ⟨tree, unfolds⟩ := each id (.head _)
    obtain ⟨trees, ids, eachRest⟩ := ih fun id member => each id (.tail _ member)
    refine ⟨tree :: trees, by rw [List.map_cons, unfolds.id_eq, ids], ?_⟩
    intro other member
    obtain rfl | later := List.mem_cons.1 member
    · exact unfolds.id_eq.symm ▸ unfolds
    · exact eachRest other later

theorem exists_unfolds (closed : program.ClosedBelow root) (acyclic : program.AcyclicBelow root) :
    ∃ tree, program.Unfolds root tree := by
  refine acyclic_induction (motive := fun id => ∃ tree, program.Unfolds id tree) closed acyclic
    ?_ (.refl program root)
  intro id path ih
  obtain ⟨node, found⟩ := closed id path
  obtain ⟨below, slots, each⟩ := exists_forest fun child slot => ih child ⟨node, found, slot⟩
  exact ⟨_, .branch found slots each⟩

/-! ## Trees and walks -/

theorem walkStack_of_forest {trees : List Tree}
    (each : ∀ tree ∈ trees, ∀ (room : Nat) (stack : List NodeId) (visits : Array Visit),
      program.walkStack (tree.preorder.length + room) (tree.id :: stack) visits =
        program.walkStack room stack (visits ++ tree.preorder.toArray))
    (room : Nat) (stack : List NodeId) (visits : Array Visit) :
    program.walkStack ((trees.flatMap Tree.preorder).length + room) (trees.map Tree.id ++ stack)
        visits =
      program.walkStack room stack (visits ++ (trees.flatMap Tree.preorder).toArray) := by
  induction trees generalizing visits with
  | nil => simp
  | cons tree rest ih =>
    have first := each tree (.head _)
    have others := ih fun tree member => each tree (.tail _ member)
    rw [List.flatMap_cons, List.length_append, Nat.add_assoc, List.map_cons, List.cons_append,
      first, others, ← List.append_toArray, Array.append_assoc]

/-- A handle on the stack is worked off by the visits of its tree, in pre-order. -/
theorem walkStack_of_unfolds (unfolds : program.Unfolds id tree) (room : Nat)
    (stack : List NodeId) (visits : Array Visit) :
    program.walkStack (tree.preorder.length + room) (id :: stack) visits =
      program.walkStack room stack (visits ++ tree.preorder.toArray) := by
  induction unfolds generalizing room stack visits with
  | @branch id node below found slots each ih =>
    have budget : (below.flatMap Tree.preorder).length + 1 + room =
        (below.flatMap Tree.preorder).length + room + 1 := by omega
    rw [Tree.preorder_branch, List.length_cons, budget, walkStack, found]
    simp only
    rw [← slots, walkStack_of_forest ih]
    congr 1
    simp

/-- The walk from a handle visits its tree in pre-order. -/
theorem walk_of_unfolds (unfolds : program.Unfolds root tree) {limit : Nat}
    (enough : tree.preorder.length ≤ limit) :
    program.walk root limit = ⟨tree.preorder.toArray, .finished⟩ := by
  obtain ⟨room, rfl⟩ := Nat.exists_eq_add_of_le enough
  rw [walk, walkStack_of_unfolds unfolds]
  simp [walkStack]

/-- A walk that finishes has found a tree for each handle on the stack. -/
theorem exists_unfolds_of_finished {limit : Nat} {stack : List NodeId} {visits : Array Visit}
    (finished : (program.walkStack limit stack visits).ending = .finished) :
    ∃ trees : List Tree, trees.map Tree.id = stack ∧
      ∀ tree ∈ trees, program.Unfolds tree.id tree := by
  fun_induction walkStack program limit stack visits with
  | case1 limit visits => exact ⟨[], rfl, by simp⟩
  | case2 limit id stack visits unknown => cases finished
  | case3 id stack visits node found => cases finished
  | case4 id stack visits node found limit ih =>
    obtain ⟨trees, ids, each⟩ := ih finished
    obtain ⟨below, rest, rfl, slots, others⟩ := List.map_eq_append_iff.1 ids
    refine ⟨.branch ⟨id, node⟩ below :: rest, by rw [List.map_cons, others]; rfl, ?_⟩
    intro tree member
    obtain rfl | later := List.mem_cons.1 member
    · exact .branch found slots fun tree inside => each tree (List.mem_append_left rest inside)
    · exact each tree (List.mem_append_right below later)

end Program

end TreeIR
