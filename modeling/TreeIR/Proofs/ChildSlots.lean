/-
# TreeIR.Proofs.ChildSlots -- child slots are a lens on every node

A node is its children and the rest, and the rest is its `Frame`: the kind with every label,
target, operator, type, literal, number and flag, and with the number of children where that
can vary, but without a single handle.  The two together are the node (`eq_of_frame_of_children`).

Writing into child slots changes the children, slot by slot, and keeps the frame
(`children_mapChildren`, `frame_mapChildren`).  Everything else about writing follows from this
without a look at the kinds: what two ways of writing have in common they do alike, what was
written is read back, writing what was read changes nothing, and of two writes the second
counts.
-/
import TreeIR.Node.Children

namespace TreeIR

set_option autoImplicit false

/-! ## Frames -/

/-- All of a node but the handles of its children. -/
inductive Frame
  | nop
  | block (label : Var) (count : Nat)
  | cond (alternative : Bool)
  | loop (exitLabel continueLabel : Var)
  | marker (label : Var)
  | branch (target : Var) (conditional : Bool)
  | switch (label : Var) (arms : List (Literal × Bool)) (fallback : Bool)
  | call (target : Var) (count : Nat)
  | callImport (target : Var) (count : Nat)
  | callIndirect (signature : Var) (count : Nat)
  | getLocal (slot : Var)
  | setLocal (slot : Var)
  | load (type : ValueType) (bytes : UInt32) (signed : Bool) (offset align : UInt32)
  | store (type : ValueType) (bytes offset align : UInt32)
  | const (value : Literal)
  | unary (op : UnaryOp) (type : ValueType)
  | binary (op : BinaryOp) (type : ValueType)
  | compare (op : RelationalOp) (type : ValueType)
  | convert (op : ConvertOp)
  | host (op : HostOp) (count : Nat)
  deriving DecidableEq, Repr

namespace SwitchCase

/-- What an arm is apart from its body. -/
def frame (arm : SwitchCase) : Literal × Bool := (arm.value, arm.fallthrough)

theorem eq_of_frame_of_body {arm other : SwitchCase} (frames : arm.frame = other.frame)
    (bodies : arm.body = other.body) : arm = other := by
  cases arm
  cases other
  cases frames
  cases bodies
  rfl

/-- Arms side by side are their frames and their bodies. -/
theorem eq_of_frames_of_bodies {arms others : List SwitchCase}
    (frames : arms.map frame = others.map frame) (bodies : arms.map body = others.map body) :
    arms = others := by
  induction arms generalizing others with
  | nil =>
    rw [List.map_nil, eq_comm, List.map_eq_nil_iff] at frames
    exact frames.symm
  | cons arm arms ih =>
    obtain _ | ⟨other, others⟩ := others
    · cases frames
    · rw [List.map_cons, List.map_cons, List.cons.injEq] at frames bodies
      rw [eq_of_frame_of_body frames.1 bodies.1, ih frames.2 bodies.2]

end SwitchCase

namespace Node

def frame : Node → Frame
  | nop => .nop
  | block label list => .block label list.length
  | cond _ _ ifFalse => .cond ifFalse.isSome
  | loop exitLabel continueLabel _ => .loop exitLabel continueLabel
  | marker label => .marker label
  | branch target condition => .branch target condition.isSome
  | switch label _ cases fallback => .switch label (cases.map SwitchCase.frame) fallback.isSome
  | call target operands => .call target operands.length
  | callImport target operands => .callImport target operands.length
  | callIndirect signature _ operands => .callIndirect signature operands.length
  | getLocal slot => .getLocal slot
  | setLocal slot _ => .setLocal slot
  | load type bytes signed offset align _ => .load type bytes signed offset align
  | store type bytes offset align _ _ => .store type bytes offset align
  | const value => .const value
  | unary op type _ => .unary op type
  | binary op type _ _ => .binary op type
  | compare op type _ _ => .compare op type
  | convert op _ => .convert op
  | host op operands => .host op operands.length

theorem eq_of_toList_eq {first second : Option NodeId} (same : first.toList = second.toList) :
    first = second := by
  cases first <;> cases second <;> simp_all

/-- The frame and the children are the whole node. -/
theorem eq_of_frame_of_children {node other : Node} (frames : node.frame = other.frame)
    (children : node.children = other.children) : node = other := by
  -- Nodes of different kinds have different frames, so one case is left for each kind.
  cases node <;> cases other <;> try (cases frames; done)
  case cond.cond =>
    obtain ⟨rfl, below⟩ := List.cons.inj children
    obtain ⟨rfl, rest⟩ := List.cons.inj below
    rw [eq_of_toList_eq rest]
  case branch.branch =>
    obtain ⟨rfl, -⟩ := Frame.branch.inj frames
    rw [eq_of_toList_eq children]
  case switch.switch =>
    obtain ⟨rfl, arms, -⟩ := Frame.switch.inj frames
    obtain ⟨rfl, below⟩ := List.cons.inj children
    -- The bodies end where the arms do, and what is left belongs to the fallback.
    have counted := congrArg List.length arms
    rw [List.length_map, List.length_map] at counted
    obtain ⟨bodies, rest⟩ := List.append_inj below (by simpa using counted)
    rw [SwitchCase.eq_of_frames_of_bodies arms bodies, eq_of_toList_eq rest]
  all_goals simp_all [frame, Node.children]

/-! ## Writing keeps the frame -/

variable {node : Node}

@[simp] theorem frame_mapChildren (f : Nat → NodeId → NodeId) (node : Node) :
    (node.mapChildren f).frame = node.frame := by
  cases node with
  | switch label value cases fallback =>
    have arms : (cases.mapIdx fun position arm => { arm with body := f (position + 1) arm.body }).map
        SwitchCase.frame = cases.map SwitchCase.frame :=
      List.ext_getElem (by simp) (by simp [SwitchCase.frame])
    simp [mapChildren, frame, arms]
  | _ => simp [mapChildren, frame]

/-- Two ways of writing do the same to a node exactly if they do the same to each of its
children at its position. -/
theorem mapChildren_eq_iff {f g : Nat → NodeId → NodeId} :
    node.mapChildren f = node.mapChildren g ↔ ∀ position child,
      node.children[position]? = some child → f position child = g position child := by
  constructor
  · intro same position child found
    have written := congrArg (fun node => node.children[position]?) same
    simpa [children_mapChildren, found] using written
  · intro same
    refine eq_of_frame_of_children (by simp) ?_
    rw [children_mapChildren, children_mapChildren]
    refine List.ext_getElem (by simp) fun position inside _ => ?_
    rw [List.length_mapIdx] at inside
    simpa using same position _ (List.getElem?_eq_getElem inside)

theorem mapChildren_id : (node.mapChildren fun _ child => child) = node := by
  refine eq_of_frame_of_children (by simp) ?_
  rw [children_mapChildren]
  exact List.ext_getElem (by simp) (by simp)

theorem mapChildren_mapChildren (f g : Nat → NodeId → NodeId) :
    (node.mapChildren f).mapChildren g =
      node.mapChildren fun position child => g position (f position child) := by
  refine eq_of_frame_of_children (by simp) ?_
  rw [children_mapChildren, children_mapChildren, children_mapChildren, List.mapIdx_mapIdx]
  rfl

/-! ## Writing a list -/

/-- What is written into all slots is read back. -/
theorem children_putChildren {ids : List NodeId} (full : ids.length = node.children.length) :
    (node.putChildren ids).children = ids := by
  rw [putChildren, children_mapChildren]
  refine List.ext_getElem (by simp [full]) fun position inside inIds => ?_
  simp [inIds]

theorem putChildren_children : node.putChildren node.children = node := by
  refine eq_of_frame_of_children (frame_mapChildren _ node) ?_
  exact children_putChildren rfl

/-- Of two writes the second counts. -/
theorem putChildren_putChildren {ids others : List NodeId}
    (fullOthers : others.length = node.children.length) :
    (node.putChildren ids).putChildren others = node.putChildren others := by
  rw [putChildren, putChildren, putChildren, mapChildren_mapChildren, mapChildren_eq_iff]
  intro position child found
  have inside : position < others.length := by
    rw [fullOthers]
    exact (List.getElem?_eq_some_iff.1 found).1
  simp [inside]

/-! ## Replacing a handle -/

/-- Nothing is left of a handle that was replaced by another. -/
theorem notMem_children_replaceChild {old new : NodeId} (different : old ≠ new) :
    old ∉ (node.replaceChild (some old) new).children := by
  rw [children_replaceChild, List.mem_map]
  rintro ⟨child, -, same⟩
  by_cases here : child = old
  · rw [if_pos here] at same
    exact different same.symm
  · rw [if_neg here] at same
    exact here same

/-- Where a handle does not occur there is nothing to replace. -/
theorem replaceChild_of_notMem {old : NodeId} (absent : old ∉ node.children) (new : NodeId) :
    node.replaceChild (some old) new = node := by
  have same : node.replaceChild (some old) new = node.mapChildren fun _ child => child := by
    rw [replaceChild, mapChildren_eq_iff]
    intro position child found
    have other : old ≠ child := by
      rintro rfl
      exact absent (List.mem_of_getElem? found)
    simp [other]
  rw [same, mapChildren_id]

/-! ## The laws -/

/-- **Child slots are a lens.**  On every node, of every kind and with any number of children:
what is written depends on what the writer does with each child at its position, and on nothing
else, so the slots are the positions of `children` and read what stands there.  A list of as
many handles is read back after it was written, and the node keeps its kind, its labels and all
else but its children, which is everything that together with the children makes a node.
Writing back what was read restores the node, and of two writes the second counts.  Replacing a
handle replaces it in `children` wherever it stands there and has nothing to do a second time. -/
theorem child_slots_lawful (node : Node) :
    (∀ f g : Nat → NodeId → NodeId, node.mapChildren f = node.mapChildren g ↔
      ∀ position child, node.children[position]? = some child →
        f position child = g position child) ∧
    (∀ f, (node.mapChildren f).children = node.children.mapIdx f) ∧
    (∀ ids : List NodeId, ids.length = node.children.length →
      let written := node.putChildren ids
      written.children = ids ∧ written.kind = node.kind ∧ written.labels = node.labels ∧
      written.frame = node.frame ∧ written.putChildren node.children = node ∧
      ∀ others : List NodeId, others.length = node.children.length →
        written.putChildren others = node.putChildren others) ∧
    node.putChildren node.children = node ∧
    (∀ other : Node, other.frame = node.frame → other.children = node.children → other = node) ∧
    (∀ old new : NodeId, let replaced := node.replaceChild (some old) new
      replaced.children = node.children.map (fun child => if child = old then new else child) ∧
      replaced.frame = node.frame ∧
      (old ≠ new → old ∉ replaced.children ∧ replaced.replaceChild (some old) new = replaced)) := by
  refine ⟨fun f g => mapChildren_eq_iff, fun f => children_mapChildren f node, ?_,
    putChildren_children, fun other => eq_of_frame_of_children, ?_⟩
  · intro ids full written
    have restored : written.putChildren node.children = node := by
      rw [putChildren_putChildren rfl, putChildren_children]
    exact ⟨children_putChildren full, kind_mapChildren _ node, labels_mapChildren _ node,
      frame_mapChildren _ node, restored, fun others => putChildren_putChildren⟩
  · intro old new replaced
    refine ⟨children_replaceChild node old new, frame_mapChildren _ node, fun different => ?_⟩
    have absent : old ∉ replaced.children := notMem_children_replaceChild different
    exact ⟨absent, replaceChild_of_notMem absent new⟩

/-- A switch whose first arm falls through and has the body that the fallback has: all of its
slots are written, or that body is replaced in both places. -/
theorem child_slots_lawful_of_switch :
    let switched (value first second fallback : UInt32) : Node :=
      .switch (.index 1) ⟨value⟩ [⟨.i32 5, ⟨first⟩, true⟩, ⟨.i64 5, ⟨second⟩, false⟩]
        (some ⟨fallback⟩)
    let ids : List NodeId := [⟨6⟩, ⟨7⟩, ⟨8⟩, ⟨9⟩]
    let node := switched 0 1 2 1
    ids.length = node.children.length ∧ node.putChildren ids = switched 6 7 8 9 ∧
    (switched 6 7 8 9).frame = node.frame ∧
    (switched 6 7 8 9).putChildren node.children = node ∧
    node.replaceChild (some ⟨1⟩) ⟨3⟩ = switched 0 3 2 3 ∧
    ⟨1⟩ ∉ (switched 0 3 2 3).children := by
  intro switched ids node
  have written : node.putChildren ids = switched 6 7 8 9 := rfl
  have replaced : node.replaceChild (some ⟨1⟩) ⟨3⟩ = switched 0 3 2 3 := rfl
  obtain ⟨-, -, writes, -, -, replaces⟩ := child_slots_lawful node
  obtain ⟨-, -, -, frame, restored, -⟩ := writes ids rfl
  obtain ⟨-, -, gone⟩ := replaces ⟨1⟩ ⟨3⟩
  rw [written] at frame restored
  exact ⟨rfl, written, frame, restored, replaced, replaced ▸ (gone (by decide)).1⟩

end Node

end TreeIR
