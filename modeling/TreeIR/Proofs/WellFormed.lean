/-
# TreeIR.Proofs.WellFormed -- what is built stays well formed

`Node.WellFormed` says what the kinds promise: operators meet types of their class, a memory
access has a size its type can be read or written in, a branch has a target and a loop two
labels or none.  `Node.check` tests it when a node is built, rule by rule
(`check_eq_ok_iff`), and none of it speaks of the children, so writing into child slots
keeps it (`wellFormed_mapChildren`).

A run in which nodes come in by `build` or as copies of nodes that were there, and change in
their child slots only, therefore never meets a node that is not well formed.  A copy may be
put in long after it was made: what it was copied from was there in some earlier state.
-/
import TreeIR.Node.Contract
import TreeIR.Proofs.NodeStore

namespace TreeIR

set_option autoImplicit false

open Request (history)

-- Powers of naturals are the core library's, whatever else is in scope.
attribute [local instance (2000)] instPowNat

/-! ## What the kinds promise -/

/-- A memory access of a type: of a size that exists, no wider than the type, whole for a
float, aligned to a power of two. -/
structure Access (type : ValueType) (bytes align : UInt32) : Prop where
  size : bytes = 1 ∨ bytes = 2 ∨ bytes = 4 ∨ bytes = 8
  fits : bytes.toNat ≤ type.byteWidth
  whole : type.isFloat = true → bytes.toNat = type.byteWidth
  aligned : ∃ exponent : Nat, align.toNat = 2 ^ exponent

namespace Node

def WellFormed : Node → Prop
  | unary op type _ => op.operands.accepts type = true ∧ type ≠ .void
  | binary op type _ _ => op.operands.accepts type = true ∧ type ≠ .void
  | compare op type _ _ => op.operands.accepts type = true ∧ type ≠ .void
  | load type bytes signed _ align _ => Access type bytes align ∧
      (signed = true → type.isInt = true ∧ bytes.toNat < type.byteWidth)
  | store type bytes _ align _ _ => Access type bytes align
  | branch target _ => target ≠ .unset
  | loop exitLabel continueLabel _ =>
      exitLabel = continueLabel → exitLabel = .unset ∧ continueLabel = .unset
  | _ => True

/-- Two checks in a row pass if both pass. -/
theorem checks_eq_ok_iff {first rest : Except Fault Unit} :
    (do first; rest) = .ok () ↔ first = .ok () ∧ rest = .ok () := by
  cases first <;> simp [Bind.bind, Except.bind]

/-- No size is small enough for `void`, so what is not an integer is a float. -/
theorem whole_iff {type : ValueType} {bytes : UInt32}
    (size : bytes = 1 ∨ bytes = 2 ∨ bytes = 4 ∨ bytes = 8) (fits : bytes.toNat ≤ type.byteWidth) :
    (type.isInt || bytes.toNat == type.byteWidth) = true ↔
      (type.isFloat = true → bytes.toNat = type.byteWidth) := by
  have other : type ≠ .void := by
    rintro rfl
    obtain rfl | rfl | rfl | rfl := size <;> cases fits
  rw [ValueType.isInt_eq_not_isFloat other]
  cases type.isFloat <;> simp

theorem checkAccess_eq_ok_iff {type : ValueType} {bytes align : UInt32} :
    checkAccess type bytes align = .ok () ↔ Access type bytes align := by
  have sizes : accessSizes.contains bytes = true ↔
      bytes = 1 ∨ bytes = 2 ∨ bytes = 4 ∨ bytes = 8 := by simp [accessSizes]
  simp only [checkAccess, checks_eq_ok_iff, Fault.ensure_eq_ok_iff, isPowerOfTwo_iff,
    Bool.and_eq_true, decide_eq_true_iff, sizes]
  constructor
  · rintro ⟨⟨size, fits⟩, whole, aligned⟩
    exact ⟨size, fits, (whole_iff size fits).1 whole, aligned⟩
  · rintro ⟨size, fits, whole, aligned⟩
    exact ⟨⟨size, fits⟩, (whole_iff size fits).2 whole, aligned⟩

theorem checkOperand_eq_ok_iff {op : Operator} {type : ValueType} :
    checkOperand op type = .ok () ↔ op.operands.accepts type = true ∧ type ≠ .void := by
  rw [checkOperand, Fault.ensure_eq_ok_iff]
  refine ⟨fun accepts => ⟨accepts, ?_⟩, And.left⟩
  rintro rfl
  rw [OperandClass.accepts_void] at accepts
  cases accepts

theorem check_eq_ok_iff {node : Node} : node.check = .ok () ↔ node.WellFormed := by
  cases node with
  | unary op type value => exact checkOperand_eq_ok_iff
  | binary op type left right => exact checkOperand_eq_ok_iff
  | compare op type left right => exact checkOperand_eq_ok_iff
  | load type bytes signed offset align ptr =>
    simp only [check, checkSign, WellFormed, checks_eq_ok_iff, checkAccess_eq_ok_iff,
      Fault.ensure_eq_ok_iff]
    cases signed <;> simp
  | store type bytes offset align ptr value => exact checkAccess_eq_ok_iff
  | branch target condition =>
    rw [check, checkTarget, WellFormed, Fault.ensure_eq_ok_iff, Bool.not_eq_true',
      Bool.eq_false_iff, Ne, Var.isUnset_iff]
  | loop exitLabel continueLabel body =>
    rw [check, checkLoopLabels, WellFormed, Fault.ensure_eq_ok_iff, Bool.or_eq_true,
      Var.isUnset_iff, bne_iff_ne]
    grind
  | _ => exact ⟨fun _ => trivial, fun _ => rfl⟩

/-- Writing into child slots keeps a node well formed. -/
theorem wellFormed_mapChildren (f : Nat → NodeId → NodeId) (node : Node) :
    (node.mapChildren f).WellFormed ↔ node.WellFormed := by
  cases node <;> rfl

end Node

/-! ## Calls and runs -/

namespace Program

variable {program start : Program} {request : Request} {requests : List Request} {id : NodeId}
  {node : Node}

/-- A program all of whose nodes are well formed. -/
def WellFormed (program : Program) : Prop :=
  ∀ id node, program.nodes.get? id = some node → node.WellFormed

/-- The node was there in some state of the run. -/
def Stored (start : Program) (requests : List Request) (node : Node) : Prop :=
  ∃ earlier id, earlier <+: requests ∧ (start.after earlier).node id = .ok node

theorem Created.wellFormed (created : program.Created) : program.WellFormed := by
  intro id node found
  rw [created.get?_eq_none] at found
  cases found

theorem check_of_build {answer : Answer}
    (succeeds : ((Request.build node).step program).1 = .ok answer) : node.check = .ok () := by
  obtain ⟨next, effect, -⟩ := Request.effect_of_ok succeeds
  cases effect with
  | asked question => cases question
  | built kept => exact kept

/-- A call keeps the nodes well formed if it writes into child slots only and what it takes
in unchecked is well formed. -/
theorem wellFormed_step (sound : program.nodes.Sound) (wellFormed : program.WellFormed)
    (rewires : request.Rewires program)
    (entered : ∀ value id, request = .alloc value → (request.step program).1 = .ok (.id id) →
      value.WellFormed) :
    (request.step program).2.WellFormed := by
  intro id node found
  obtain before | ⟨adds, -, succeeds⟩ | ⟨old, overwrites, stored⟩ := get?_of_step sound found
  · exact wellFormed id node before
  · cases request with
    | build value =>
      cases adds
      exact Node.check_eq_ok_iff.1 (check_of_build succeeds)
    | alloc value =>
      cases adds
      exact entered node id rfl succeeds
    | copyNode copied => exact wellFormed copied node adds
    | _ => cases adds
  · obtain ⟨f, rfl⟩ := rewires id old node overwrites stored
    exact (Node.wellFormed_mapChildren f old).2 (wellFormed id old stored)

/-- **What is built stays well formed.**  In a run from a created program in which every node
comes in by `build`, by `copyNode` or as a copy of a node that was there before, and nodes
change in their child slots only, every node of every state is well formed. -/
theorem wellFormed_of_built (created : start.Created) (requests : List Request)
    (copies : ∀ earlier value later id, requests = earlier ++ .alloc value :: later →
      ((Request.alloc value).step (start.after earlier)).1 = .ok (.id id) →
      start.Stored earlier value)
    (rewired : ∀ call ∈ history requests start, call.request.Rewires call.before) :
    ∀ reached id node, reached <+: requests → (start.after reached).node id = .ok node →
      node.WellFormed := by
  -- A copy comes from any earlier state, so the induction is over all of them at once.
  induction requests using List.reverseRecOn with
  | nil =>
    intro reached id node inside found
    obtain rfl := List.prefix_nil.1 inside
    exact created.wellFormed id node (node_eq_ok_iff.1 found)
  | append_singleton requests request ih =>
    intro reached id node inside found
    have before := ih
      (fun earlier value later id split succeeds =>
        copies earlier value (later ++ [request]) id (by simp [split]) succeeds)
      (fun call called => rewired call (Request.history_append .. ▸ List.mem_append_left _ called))
    obtain rfl | inside := List.prefix_concat_iff.1 inside
    · rw [after_append] at found
      refine wellFormed_step (sound_after created.sound requests) ?_ ?_ ?_ id node
        (node_eq_ok_iff.1 found)
      · intro id node found
        exact before requests id node List.prefix_rfl (node_eq_ok_iff.2 found)
      · exact rewired _ (Request.mem_history_iff.2 ⟨requests, request, [], rfl, rfl⟩)
      · rintro value id rfl succeeds
        obtain ⟨earlier, source, inside, stored⟩ := copies requests value [] id rfl succeeds
        exact before earlier source value inside stored
    · exact before reached id node inside found

/-- A load that is copied twice, once by `copyNode` and once by hand after the original got
another address, next to a signed load of a whole integer, which is refused. -/
theorem wellFormed_of_built_of_copied_loads :
    let source : Node := .load .i64 4 true 16 4 ⟨0⟩
    let requests : List Request :=
      [.build .nop, .build source, .build (.load .i64 8 true 16 4 ⟨0⟩), .copyNode ⟨1⟩,
        .putChildren ⟨1⟩ [⟨2⟩], .alloc source]
    empty.Created ∧ (empty.after requests).nodeCount = 4 ∧
    (empty.after requests).node ⟨1⟩ = .ok (.load .i64 4 true 16 4 ⟨2⟩) ∧
    (Node.load .i64 4 true 16 4 ⟨2⟩).WellFormed ∧ source.WellFormed := by
  intro source requests
  have created : empty.Created := .inl rfl
  have rewired : ∀ call ∈ history requests empty, call.request.Rewires call.before := by
    iterate 4 refine List.forall_mem_cons.2 ⟨Request.rewires_of_none rfl, ?_⟩
    refine List.forall_mem_cons.2 ⟨Request.rewires_putChildren _ _ _, ?_⟩
    exact List.forall_mem_singleton.2 (Request.rewires_of_none rfl)
  have copies : ∀ earlier value later id, requests = earlier ++ .alloc value :: later →
      ((Request.alloc value).step (empty.after earlier)).1 = .ok (.id id) →
      empty.Stored earlier value := by
    intro earlier value later id split succeeds
    simp only [requests] at split
    iterate 5
      obtain _ | ⟨_, earlier⟩ := earlier
      · cases split
    obtain _ | ⟨_, earlier⟩ := earlier
    · cases split
      exact ⟨requests.take 2, ⟨1⟩, ⟨_, rfl⟩, by decide +kernel⟩
    · simp at split
  have wellFormed := wellFormed_of_built created requests copies rewired requests
  have rewritten : (empty.after requests).node ⟨1⟩ = .ok (.load .i64 4 true 16 4 ⟨2⟩) := by
    decide +kernel
  have copied : (empty.after requests).node ⟨3⟩ = .ok source := by decide +kernel
  exact ⟨created, by decide +kernel, rewritten, wellFormed _ _ List.prefix_rfl rewritten,
    wellFormed _ _ List.prefix_rfl copied⟩

end Program

end TreeIR
