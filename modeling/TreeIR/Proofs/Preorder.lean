/-
# TreeIR.Proofs.Preorder -- a walk is the recursive descent

`descend` is the traversal as one would say it: refuse a node that is not there, make the
visit if there is room for one more, descend into each child in order; whatever stops one
descent stops them all.  Nodes form any graph, so the recursion follows no structure: what
ends it is the room, and for that a descent carries the proof that it takes no visit back.

A walk keeps its own stack instead.  The link is that a stack stands for the descents
that are still to be made, one after the other: descending into a node and then into the
rest of the stack visits the node and then descends into its children and the rest
(`descendAll_of_room`), which is the step a walk takes.  Nothing is assumed of the graph
(`descend_eq_walk`): nodes may be shared, lie on cycles or not exist.
-/
import Mathlib
import TreeIR.Program.Request

namespace TreeIR

set_option autoImplicit false

/-! ## Walks in sequence -/

namespace Walk

/-- A walk that went on from the visits already made. -/
abbrev From (visits : Array Visit) := { walk : Walk // visits.size ≤ walk.visits.size }

/-- Goes on where a walk finished; a walk that was stopped stays as it is. -/
def andThen (walk : Walk) (rest : Array Visit → Walk) : Walk :=
  match walk.ending with
  | .finished => rest walk.visits
  | _ => walk

theorem andThen_finished (walk : Walk) : walk.andThen (⟨·, .finished⟩) = walk := by
  obtain ⟨visits, ending⟩ := walk
  cases ending <;> rfl

theorem andThen_assoc (walk : Walk) (second third : Array Visit → Walk) :
    (walk.andThen second).andThen third =
      walk.andThen fun visits => (second visits).andThen third := by
  obtain ⟨visits, ending⟩ := walk
  cases ending <;> rfl

end Walk

/-! ## The recursion -/

namespace Program

mutual

/-- Visits a node and everything below it, children in order, after the visits already
made and up to `limit` of them in all. -/
def descend (program : Program) (limit : Nat) (id : NodeId) (visits : Array Visit) :
    Walk.From visits :=
  match program.nodes.get? id with
  | none => ⟨⟨visits, .unknownNode id⟩, Nat.le_refl _⟩
  | some node =>
      if room : visits.size < limit then
        let below := program.descendAll limit node.children (visits.push ⟨id, node⟩)
        ⟨below.1, Nat.le_trans (by simp) below.2⟩
      else ⟨⟨visits, .limitReached⟩, Nat.le_refl _⟩
termination_by (limit - visits.size, 0)

/-- Descends into one node after the other. -/
def descendAll (program : Program) (limit : Nat) (ids : List NodeId) (visits : Array Visit) :
    Walk.From visits :=
  match ids with
  | [] => ⟨⟨visits, .finished⟩, Nat.le_refl _⟩
  | id :: rest =>
      let first := program.descend limit id visits
      match first.1.ending with
      | .finished =>
          let others := program.descendAll limit rest first.1.visits
          ⟨others.1, Nat.le_trans first.2 others.2⟩
      | _ => first
termination_by (limit - visits.size, ids.length)
decreasing_by
  · exact Prod.Lex.right _ (Nat.succ_pos rest.length)
  -- The first descent may have left all the room there was.
  · exact Prod.Lex.right' _ (Nat.sub_le_sub_left first.2 limit) (Nat.lt_succ_self rest.length)

end

variable {program : Program} {limit : Nat} {visits : Array Visit} {id : NodeId} {node : Node}

theorem descendAll_nil : (program.descendAll limit [] visits).1 = ⟨visits, .finished⟩ := by
  rw [descendAll]

theorem descendAll_cons (rest : List NodeId) :
    (program.descendAll limit (id :: rest) visits).1 =
      (program.descend limit id visits).1.andThen fun visits =>
        (program.descendAll limit rest visits).1 := by
  rw [descendAll, Walk.andThen]
  split <;> rfl

theorem descendAll_append (ids rest : List NodeId) :
    (program.descendAll limit (ids ++ rest) visits).1 =
      (program.descendAll limit ids visits).1.andThen fun visits =>
        (program.descendAll limit rest visits).1 := by
  induction ids generalizing visits with
  | nil => rw [descendAll_nil]; rfl
  | cons id ids ih =>
    rw [List.cons_append, descendAll_cons, descendAll_cons, Walk.andThen_assoc]
    congr 1
    funext visits
    exact ih

/-! ## One step of the stack -/

theorem descendAll_of_unknown (unknown : program.nodes.get? id = none) (stack : List NodeId) :
    (program.descendAll limit (id :: stack) visits).1 = ⟨visits, .unknownNode id⟩ := by
  have refused : (program.descend limit id visits).1 = ⟨visits, .unknownNode id⟩ := by
    rw [descend, unknown]
  rw [descendAll_cons, refused]
  rfl

theorem descendAll_of_full (found : program.nodes.get? id = some node)
    (full : limit ≤ visits.size) (stack : List NodeId) :
    (program.descendAll limit (id :: stack) visits).1 = ⟨visits, .limitReached⟩ := by
  have refused : (program.descend limit id visits).1 = ⟨visits, .limitReached⟩ := by
    rw [descend, found]
    simp only [dif_neg (Nat.not_lt.mpr full)]
  rw [descendAll_cons, refused]
  rfl

/-- Descending into a node before the rest of a stack puts its children before the rest. -/
theorem descendAll_of_room (found : program.nodes.get? id = some node)
    (room : visits.size < limit) (stack : List NodeId) :
    (program.descendAll limit (id :: stack) visits).1 =
      (program.descendAll limit (node.children ++ stack) (visits.push ⟨id, node⟩)).1 := by
  have visited : (program.descend limit id visits).1 =
      (program.descendAll limit node.children (visits.push ⟨id, node⟩)).1 := by
    rw [descend, found]
    simp only [dif_pos room]
  rw [descendAll_cons, visited, descendAll_append]

/-! ## Walks -/

/-- Walking a stack is descending into its nodes one after the other. -/
theorem descendAll_eq_walkStack (program : Program) (limit room : Nat) (stack : List NodeId)
    (visits : Array Visit) (budget : visits.size + room = limit) :
    (program.descendAll limit stack visits).1 = program.walkStack room stack visits := by
  fun_induction walkStack program room stack visits with
  | case1 room visits => exact descendAll_nil
  | case2 room id stack visits unknown => exact descendAll_of_unknown unknown stack
  | case3 id stack visits node found => exact descendAll_of_full found (by omega) stack
  | case4 id stack visits node found room ih =>
    have left : (visits.push ⟨id, node⟩).size + room = limit := by
      rw [Array.size_push]
      omega
    rw [descendAll_of_room found (by omega)]
    exact ih left

/-- **A walk is the recursive descent**, on every graph and for every limit: it makes the
same visits in the same order and ends in the same way. -/
theorem descend_eq_walk (program : Program) (root : NodeId) (limit : Nat) :
    (program.descend limit root #[]).1 = program.walk root limit := by
  calc (program.descend limit root #[]).1
      = (program.descendAll limit [root] #[]).1 := by
        simp only [descendAll_cons, descendAll_nil, Walk.andThen_finished]
    _ = program.walkStack limit [root] #[] :=
        program.descendAll_eq_walkStack limit limit [root] #[] (Nat.zero_add limit)

end Program

end TreeIR
