/-
# TreeIR.Proofs.Labels -- labels resolve to the nodes that declare them

A label is declared in a node and bound when the node is registered; nothing ties the two
together afterwards.  They stay together all the same as long as nobody else binds
labels and nodes change in their child slots only.

From the bindings to the nodes this is an invariant of the program (`Labelled`): a label
that is bound is declared by the node it is bound to.  From the nodes to the bindings it
is a fact about runs: what a node declared when it was registered it declares ever after
(`labels_after`), and what was bound then is bound ever after.  Bindings are functional,
so a label belongs to one node and to one of its roles.
-/
import TreeIR.Node.Children
import TreeIR.Proofs.Bindings
import TreeIR.Proofs.NodeStore

namespace TreeIR

set_option autoImplicit false

open Request (history)

/-- The run registers the labels of the node. -/
def Request.Registers (requests : List Request) (start : Program) (id : NodeId) : Prop :=
  ∃ call ∈ history requests start, call.request = .registerLabels id ∧
    ∃ answer, call.outcome = .ok answer

namespace Program

variable {program start : Program} {request : Request} {requests : List Request} {id : NodeId}
  {node : Node} {var : Var} {target : LabelTarget}

/-! ## Nodes keep their labels -/

/-- A node whose child slots are written declares what it declared. -/
theorem labels_step (rewires : request.Rewires program)
    (found : program.nodes.get? id = some node) :
    ∃ kept, (request.step program).2.nodes.get? id = some kept ∧ kept.labels = node.labels := by
  obtain stays | ⟨other, overwrites, written⟩ := get?_step found request
  · exact ⟨node, stays, rfl⟩
  · obtain ⟨f, rfl⟩ := rewires id node other overwrites found
    exact ⟨_, written, Node.labels_mapChildren f node⟩

theorem labels_after
    (rewired : ∀ call ∈ history requests program, call.request.Rewires call.before)
    (found : program.nodes.get? id = some node) :
    ∃ kept, (program.after requests).nodes.get? id = some kept ∧ kept.labels = node.labels := by
  refine after_of_step (motive := fun reached =>
    ∃ kept, reached.nodes.get? id = some kept ∧ kept.labels = node.labels) ?_ ?_
  · exact ⟨node, found, rfl⟩
  · rintro request before called ⟨kept, there, same⟩
    obtain ⟨next, reached, labels⟩ := labels_step (rewired _ called) there
    exact ⟨next, reached, labels.trans same⟩

/-! ## Bound labels are declared -/

/-- A program in which every bound label is declared by the node it stands for. -/
structure Labelled (program : Program) : Prop where
  declared : ∀ (var : Var) (target : LabelTarget),
    program.bindings[var]? = some (.label target) →
    ∃ node, program.nodes.get? target.node = some node ∧ (var, target.role) ∈ node.labels

theorem Created.labelled (created : program.Created) : program.Labelled where
  declared var target bound := by simp [created.bindings_eq] at bound

/-- A label is bound by hand or because its node declares it. -/
theorem label_mem_bound_iff {call : Call} :
    (var, .label target) ∈ call.bound ↔ (∃ answer, call.outcome = .ok answer) ∧
      (call.request = .bind var (.label target) ∨
        call.request = .registerLabels target.node ∧
          ∃ node, call.before.node target.node = .ok node ∧ (var, target.role) ∈ node.labels) := by
  obtain ⟨request, before, outcome⟩ := call
  obtain ⟨id, role⟩ := target
  cases outcome with
  | error failure => simp [Call.bound_of_error]
  | ok answer =>
    cases request with
    | bind bound entity => simp [Call.bound, eq_comm]
    | registerLabels registered =>
      cases found : before.node registered with
      | error cause =>
        simp only [Call.bound, found]
        grind
      | ok node =>
        simp only [Call.bound, found, List.mem_map, Prod.exists]
        grind
    | addSignature | addFunction | addImport => cases answer <;> simp [Call.bound]
    | _ => simp [Call.bound]

theorem labelled_step (labelled : program.Labelled)
    (registered : ∀ var target, (var, .label target) ∈ (Call.make request program).bound →
      ∃ id, request = .registerLabels id)
    (rewires : request.Rewires program) : (request.step program).2.Labelled where
  declared var target bound := by
    have before : ∃ node, program.nodes.get? target.node = some node ∧
        (var, target.role) ∈ node.labels := by
      obtain older | binds := (grown_step request program).getElem?_eq_some_iff.1 bound
      · exact labelled.declared var target older
      · obtain ⟨id, rfl⟩ := registered var target binds
        obtain ⟨-, byHand | ⟨-, node, found, declares⟩⟩ := label_mem_bound_iff.1 binds
        · cases byHand
        · exact ⟨node, node_eq_ok_iff.1 found, declares⟩
    obtain ⟨node, found, declares⟩ := before
    obtain ⟨kept, there, same⟩ := labels_step rewires found
    exact ⟨kept, there, same ▸ declares⟩

/-! ## Declared labels are bound -/

theorem exists_node_of_registers {answer : Answer}
    (succeeds : ((Request.registerLabels id).step program).1 = .ok answer) :
    ∃ node, program.node id = .ok node := by
  obtain ⟨next, effect, -⟩ := Request.effect_of_ok succeeds
  cases effect with
  | asked question => cases question
  | registeredLabels found => exact ⟨_, found⟩

/-- What a registered node declares at the end it declared when it was registered. -/
theorem resolve_of_registers
    (rewired : ∀ call ∈ history requests start, call.request.Rewires call.before)
    (registers : Request.Registers requests start id) :
    ∃ node, (start.after requests).node id = .ok node ∧ ∀ declared ∈ node.labels,
      (start.after requests).resolve declared.1 = .ok (.label ⟨id, declared.2⟩) := by
  obtain ⟨call, called, asks, answer, succeeds⟩ := registers
  have grown := grown_after requests start
  obtain ⟨earlier, request, later, rfl, rfl⟩ := Request.mem_history_iff.1 called
  obtain rfl : request = .registerLabels id := asks
  obtain ⟨node, found⟩ := exists_node_of_registers succeeds
  obtain ⟨kept, there, same⟩ := labels_after
    (fun call member => rewired call (Request.history_append .. ▸ List.mem_append_right _ member))
    (node_eq_ok_iff.1 found)
  rw [← after_append] at there
  refine ⟨kept, node_eq_ok_iff.2 there, fun declared declares => ?_⟩
  have binds : (declared.1, .label ⟨id, declared.2⟩) ∈
      (Call.make (.registerLabels id) (start.after earlier)).bound :=
    label_mem_bound_iff.2 ⟨⟨answer, succeeds⟩, .inr ⟨rfl, node, found, same ▸ declares⟩⟩
  rw [resolve_eq_ok_iff, grown.getElem?_eq_some_iff]
  exact .inr (List.mem_flatMap.2 ⟨_, called, binds⟩)

/-! ## Labels and nodes -/

/-- **Labels resolve to the nodes that declare them.**  In a run that binds labels by
registering nodes only and changes nodes in their child slots only, a label that resolves
is declared, in its role, by the node it resolves to; and every label of a registered node
resolves to that node and to its role there.  So no label belongs to two registered nodes
or to two roles of one, and what it resolves to it resolved to from the first. -/
theorem labels_resolve_to_declaring_nodes (created : start.Created) (requests : List Request)
    (registered : ∀ call ∈ history requests start, ∀ var target,
      (var, .label target) ∈ call.bound → ∃ id, call.request = .registerLabels id)
    (rewired : ∀ call ∈ history requests start, call.request.Rewires call.before) :
    let program := start.after requests
    (∀ var target, program.resolveLabel var = .ok target →
      ∃ node, program.node target.node = .ok node ∧ (var, target.role) ∈ node.labels) ∧
    (∀ id, Request.Registers requests start id →
      ∃ node, program.node id = .ok node ∧ ∀ declared ∈ node.labels,
        program.resolve declared.1 = .ok (.label ⟨id, declared.2⟩)) ∧
    (∀ first second one other label firstRole secondRole,
      Request.Registers requests start first → Request.Registers requests start second →
      program.node first = .ok one → program.node second = .ok other →
      (label, firstRole) ∈ one.labels → (label, secondRole) ∈ other.labels →
      first = second ∧ firstRole = secondRole) ∧
    (∀ earlier, earlier <+: requests → ∀ var target,
      (start.after earlier).resolveLabel var = .ok target →
      program.resolveLabel var = .ok target) := by
  intro program
  have resolves (id : NodeId) (registers : Request.Registers requests start id) :=
    resolve_of_registers rewired registers
  refine ⟨?_, resolves, ?_, ?_⟩
  · intro var target resolved
    have labelled : program.Labelled := after_of_step created.labelled fun _ _ called labelled =>
      labelled_step labelled (registered _ called) (rewired _ called)
    obtain ⟨node, found, declares⟩ := labelled.declared var target
      (resolve_eq_ok_iff.1 (resolveLabel_eq_ok_iff.1 resolved))
    exact ⟨node, node_eq_ok_iff.2 found, declares⟩
  · intro first second one other label firstRole secondRole registersFirst registersSecond
      atFirst atSecond inOne inOther
    obtain ⟨_, same, resolvesOne⟩ := resolves first registersFirst
    cases atFirst.symm.trans same
    obtain ⟨_, same, resolvesOther⟩ := resolves second registersSecond
    cases atSecond.symm.trans same
    have target := (resolvesOne _ inOne).symm.trans (resolvesOther (label, secondRole) inOther)
    cases target
    exact ⟨rfl, rfl⟩
  · rintro earlier ⟨later, rfl⟩ var target resolved
    rw [resolveLabel_eq_ok_iff, resolve_eq_ok_iff] at resolved ⊢
    rw [show program = (start.after earlier).after later from after_append ..]
    exact (grown_after later _).getElem?_of_some resolved

/-- A loop that is registered and then gets another body. -/
theorem labels_resolve_to_declaring_nodes_of_rewired_loop :
    let requests : List Request :=
      [.build .nop, .build (.loop (.index 5) (.index 6) ⟨0⟩), .registerLabels ⟨1⟩,
        .build (.marker (.index 7)), .putChildren ⟨1⟩ [⟨2⟩], .registerLabels ⟨1⟩]
    let program := empty.after requests
    empty.Created ∧
    program.resolveLabel (.index 6) = .ok ⟨⟨1⟩, .loopContinue⟩ ∧
    program.node ⟨1⟩ = .ok (.loop (.index 5) (.index 6) ⟨2⟩) ∧
    Request.Registers requests empty ⟨1⟩ ∧
    (∃ node, program.node ⟨1⟩ = .ok node ∧ (.index 6, .loopContinue) ∈ node.labels) ∧
    (∃ node, program.node ⟨1⟩ = .ok node ∧ ∀ declared ∈ node.labels,
      program.resolve declared.1 = .ok (.label ⟨⟨1⟩, declared.2⟩)) := by
  intro requests program
  have created : empty.Created := .inl rfl
  have registered : ∀ call ∈ history requests empty, ∀ var target,
      (var, .label target) ∈ call.bound → ∃ id, call.request = .registerLabels id := by
    intro call called var target binds
    obtain ⟨-, byHand | ⟨registers, -⟩⟩ := label_mem_bound_iff.1 binds
    · revert call
      iterate 5 refine List.forall_mem_cons.2 ⟨nofun, ?_⟩
      exact List.forall_mem_singleton.2 nofun
    · exact ⟨_, registers⟩
  have rewired : ∀ call ∈ history requests empty, call.request.Rewires call.before := by
    iterate 4 refine List.forall_mem_cons.2 ⟨Request.rewires_of_none rfl, ?_⟩
    refine List.forall_mem_cons.2 ⟨Request.rewires_putChildren _ _ _, ?_⟩
    exact List.forall_mem_singleton.2 (Request.rewires_of_none rfl)
  have registers : Request.Registers requests empty ⟨1⟩ :=
    ⟨_, .tail _ (.tail _ (.head _)), rfl, _, rfl⟩
  obtain ⟨declared, resolves, -⟩ :=
    labels_resolve_to_declaring_nodes created requests registered rewired
  have resolved : program.resolveLabel (.index 6) = .ok ⟨⟨1⟩, .loopContinue⟩ := by decide +kernel
  exact ⟨created, resolved, by decide +kernel, registers, declared _ _ resolved,
    resolves _ registers⟩

end Program

end TreeIR
