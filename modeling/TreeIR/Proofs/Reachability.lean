/-
# TreeIR.Proofs.Reachability -- what lies below a node

The nodes of a program form a graph: a node refers to its children by handle, and nothing
keeps references from being shared, from leading back or from leading nowhere.  `Reaches`
follows references from a node, `OnCycle` says that they lead back to it.

A program has finitely many nodes.  So where all that can be reached exists and lies on no
cycle, what holds of a node as soon as it holds of its children holds of all of them
(`acyclic_induction`).
-/
import TreeIR.Proofs.Chunks
import TreeIR.Program.Walk

namespace TreeIR

set_option autoImplicit false

namespace Program

variable {program : Program} {root id child : NodeId} {node : Node}

/-- The node exists. -/
def Allocated (program : Program) (id : NodeId) : Prop :=
  ∃ node, program.nodes.get? id = some node

instance (program : Program) (id : NodeId) : Decidable (program.Allocated id) :=
  decidable_of_iff _ Option.isSome_iff_exists

/-- The second handle stands in a child slot of the node at the first. -/
def Child (program : Program) (parent child : NodeId) : Prop :=
  ∃ node, program.nodes.get? parent = some node ∧ child ∈ node.children

/-- Child references lead from the first handle to the second, in any number of steps. -/
def Reaches (program : Program) : NodeId → NodeId → Prop :=
  Relation.ReflTransGen program.Child

/-- Child references lead from the node back to itself, in at least one step. -/
def OnCycle (program : Program) (id : NodeId) : Prop :=
  Relation.TransGen program.Child id id

/-- All that can be reached from the root exists. -/
def ClosedBelow (program : Program) (root : NodeId) : Prop :=
  ∀ id, program.Reaches root id → program.Allocated id

/-- Nothing that can be reached from the root lies on a cycle. -/
def AcyclicBelow (program : Program) (root : NodeId) : Prop :=
  ∀ id, program.Reaches root id → ¬program.OnCycle id

theorem Reaches.refl (program : Program) (id : NodeId) : program.Reaches id id :=
  Relation.ReflTransGen.refl

theorem Reaches.trans {last : NodeId} (first : program.Reaches root id)
    (second : program.Reaches id last) : program.Reaches root last :=
  Relation.ReflTransGen.trans first second

theorem reaches_of_mem_children (found : program.nodes.get? id = some node)
    (member : child ∈ node.children) : program.Reaches id child :=
  Relation.ReflTransGen.single ⟨node, found, member⟩

theorem ClosedBelow.of_reaches (closed : program.ClosedBelow root)
    (path : program.Reaches root id) : program.ClosedBelow id :=
  fun _ further => closed _ (path.trans further)

/-- Only finitely many nodes exist. -/
theorem finite_allocated (program : Program) : {id | program.Allocated id}.Finite := by
  have positions : {n | n < program.nodes.chunks.size * program.nodes.perChunk}.Finite :=
    Set.finite_lt_nat _
  refine (positions.preimage (f := Handle.position) ?_).subset ?_
  · intro id _ other _ same
    exact Handle.ext_position same
  · rintro id ⟨node, found⟩
    exact Arena.position_lt_of_get? found

/-- What holds of a node as soon as it holds of its children holds of everything below a
root without dangling references and without cycles. -/
theorem acyclic_induction {motive : NodeId → Prop} (closed : program.ClosedBelow root)
    (acyclic : program.AcyclicBelow root)
    (step : ∀ id, program.Reaches root id → (∀ child, program.Child id child → motive child) →
      motive id)
    (path : program.Reaches root id) : motive id := by
  let Below (child parent : {id // program.Reaches root id}) : Prop :=
    Relation.TransGen program.Child parent child
  have finite : Finite {id // program.Reaches root id} :=
    (program.finite_allocated.subset fun id => closed id).to_subtype
  have transitive : IsTrans _ Below := ⟨fun _ _ _ lower upper => upper.trans lower⟩
  have irreflexive : Std.Irrefl Below := ⟨fun id => acyclic id.1 id.2⟩
  have founded : WellFounded Below := Finite.wellFounded_of_trans_of_irrefl Below
  refine founded.induction (C := fun id => motive id.1) ⟨id, path⟩ ?_
  intro ⟨id, path⟩ ih
  refine step id path fun child edge => ?_
  exact ih ⟨child, path.tail edge⟩ (.single edge)

end Program

end TreeIR
