/-
# TreeIR.Node.Children -- writing into child slots

`mapChildren` changes every child slot by its position and leaves all else alone: the
kind, the labels and targets, the number of slots.  Reading back is
`children_mapChildren`; from it and `mapChildren_mapChildren` the laws of `putChildren`
follow.  `putChildren` writes a list into the slots, first to first; slots beyond the
list keep what they hold, and what the list has too many is dropped.
-/
import TreeIR.Node

namespace TreeIR

set_option autoImplicit false

namespace Node

/-- Changes each child slot, given its position. -/
def mapChildren (f : Nat → NodeId → NodeId) : Node → Node
  | nop => nop
  | marker label => marker label
  | getLocal slot => getLocal slot
  | const value => const value
  | block label list => block label (list.mapIdx f)
  | cond condition ifTrue ifFalse => cond (f 0 condition) (f 1 ifTrue) (ifFalse.map (f 2))
  | loop exitLabel continueLabel body => loop exitLabel continueLabel (f 0 body)
  | branch target condition => branch target (condition.map (f 0))
  | switch label value cases fallback =>
      switch label (f 0 value)
        (cases.mapIdx fun position arm => { arm with body := f (position + 1) arm.body })
        (fallback.map (f (cases.length + 1)))
  | call target operands => call target (operands.mapIdx f)
  | callImport target operands => callImport target (operands.mapIdx f)
  | callIndirect signature target operands =>
      callIndirect signature (f 0 target) (operands.mapIdx fun position => f (position + 1))
  | setLocal slot value => setLocal slot (f 0 value)
  | load type bytes signed offset align ptr => load type bytes signed offset align (f 0 ptr)
  | store type bytes offset align ptr value => store type bytes offset align (f 0 ptr) (f 1 value)
  | unary op type value => unary op type (f 0 value)
  | binary op type left right => binary op type (f 0 left) (f 1 right)
  | compare op type left right => compare op type (f 0 left) (f 1 right)
  | convert op value => convert op (f 0 value)
  | host op operands => host op (operands.mapIdx f)

/-- Writes the ids into the child slots in order. -/
def putChildren (node : Node) (ids : List NodeId) : Node :=
  node.mapChildren fun position child => ids.getD position child

/-- Writes `to` into every slot that holds `old`, or into every slot if `old` is not given. -/
def replaceChild (node : Node) (old : Option NodeId) (new : NodeId) : Node :=
  node.mapChildren fun _ child => if old.getD child = child then new else child

/-- The positions of the slots that `replaceChild` writes. -/
def slotsOf (node : Node) (old : Option NodeId) : List Nat :=
  (node.children.mapIdx fun position child => (position, child)).filterMap fun slot =>
    if old.getD slot.2 = slot.2 then some slot.1 else none

/-- Writes into one slot; nothing changes if there is no such slot. -/
def putChild (node : Node) (position : Nat) (new : NodeId) : Node :=
  node.mapChildren fun slot child => if slot = position then new else child

/-! ## Reading back -/

theorem bodies_mapIdx (f : Nat → NodeId → NodeId) (cases : List SwitchCase) :
    (cases.mapIdx fun position arm => { arm with body := f position arm.body }).map
        SwitchCase.body = (cases.map SwitchCase.body).mapIdx f :=
  List.ext_getElem (by simp) (by simp)

theorem children_mapChildren (f : Nat → NodeId → NodeId) (node : Node) :
    (node.mapChildren f).children = node.children.mapIdx f := by
  cases node with
  | cond condition ifTrue ifFalse => cases ifFalse <;> rfl
  | branch target condition => cases condition <;> rfl
  | switch label value cases fallback =>
    have bodies := bodies_mapIdx (fun position => f (position + 1)) cases
    cases fallback <;>
      simp [mapChildren, children, List.mapIdx_cons, List.mapIdx_append, bodies]
  | callIndirect signature target operands =>
    simp [mapChildren, children, List.mapIdx_cons]
  | _ => simp [mapChildren, children]

theorem children_replaceChild (node : Node) (old new : NodeId) :
    (node.replaceChild (some old) new).children =
      node.children.map fun child => if child = old then new else child := by
  rw [replaceChild, children_mapChildren]
  exact List.ext_getElem (by simp) (by simp [eq_comm])

@[simp] theorem kind_mapChildren (f : Nat → NodeId → NodeId) (node : Node) :
    (node.mapChildren f).kind = node.kind := by
  cases node <;> rfl

@[simp] theorem labels_mapChildren (f : Nat → NodeId → NodeId) (node : Node) :
    (node.mapChildren f).labels = node.labels := by
  cases node <;> rfl

end Node

end TreeIR
