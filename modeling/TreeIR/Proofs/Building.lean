/-
# TreeIR.Proofs.Building -- building keeps to the contract

The contract of a node is a list of rules.  `Node.Breaks` has one entry for each way to break one,
with what the builder says to it.  The checks are made one after the other and the first that fails
is reported, so what is reported is a rule that is broken (`breaks_of_check`); and a node breaks
none exactly if it is well formed (`exists_breaks_iff`), that is if all checks pass.

A constructor is these checks and then an allocation (`Builds.eq_check`).  Where they pass, the node
of its arguments is appended: it is found at the handle that was handed out, and nothing else in the
program differs.  Two other things are in the way: handles run out, and the memory for a chunk may
be more than there can be.  The latter depends on the chunk size alone, so either no node of a
program is ever refused for it or each one is.
-/
import TreeIR.Proofs.Room
import TreeIR.Proofs.WellFormed

namespace TreeIR

set_option autoImplicit false

-- Powers of naturals are the core library's, whatever else is in scope.
attribute [local instance (2000)] instPowNat

/-! ## Broken rules -/

/-- A memory access breaks a rule. -/
inductive AccessBreaks (type : ValueType) (bytes align : UInt32) : Fault → Prop
  | size (absent : ¬(bytes = 1 ∨ bytes = 2 ∨ bytes = 4 ∨ bytes = 8)) :
      AccessBreaks type bytes align (.accessWidth bytes type)
  | wide (exceeds : type.byteWidth < bytes.toNat) :
      AccessBreaks type bytes align (.accessWidth bytes type)
  | part (float : type.isFloat = true) (partly : bytes.toNat ≠ type.byteWidth) :
      AccessBreaks type bytes align .partialFloat
  | odd (unaligned : ∀ exponent : Nat, align.toNat ≠ 2 ^ exponent) :
      AccessBreaks type bytes align (.alignment align)

/-- A node breaks a rule of its kind. -/
inductive Node.Breaks : Node → Fault → Prop
  | unary {op : UnaryOp} {type : ValueType} {value : NodeId}
      (rejects : op.operands.accepts type = false) :
      Breaks (.unary op type value) (.rejectedOperand (.unary op) type)
  | binary {op : BinaryOp} {type : ValueType} {left right : NodeId}
      (rejects : op.operands.accepts type = false) :
      Breaks (.binary op type left right) (.rejectedOperand (.binary op) type)
  | compare {op : RelationalOp} {type : ValueType} {left right : NodeId}
      (rejects : op.operands.accepts type = false) :
      Breaks (.compare op type left right) (.rejectedOperand (.relational op) type)
  | load {type : ValueType} {bytes offset align : UInt32} {signed : Bool} {ptr : NodeId}
      {cause : Fault} (access : AccessBreaks type bytes align cause) :
      Breaks (.load type bytes signed offset align ptr) cause
  | store {type : ValueType} {bytes offset align : UInt32} {ptr value : NodeId}
      {cause : Fault} (access : AccessBreaks type bytes align cause) :
      Breaks (.store type bytes offset align ptr value) cause
  /-- There is no sign to extend, or nowhere to extend it to. -/
  | sign {type : ValueType} {bytes offset align : UInt32} {ptr : NodeId}
      (pointless : type.isInt = false ∨ bytes.toNat = type.byteWidth) :
      Breaks (.load type bytes true offset align ptr) .signedLoad
  | loop {label : Var} {body : NodeId} (set : label ≠ .unset) :
      Breaks (.loop label label body) .equalLoopLabels
  | branch {condition : Option NodeId} : Breaks (.branch .unset condition) .missingTarget

namespace Node

variable {node : Node} {type : ValueType} {bytes align : UInt32} {cause : Fault}

theorem not_access_of_breaks (broken : AccessBreaks type bytes align cause) :
    ¬Access type bytes align := by
  intro access
  cases broken with
  | size absent => exact absent access.size
  | wide exceeds => exact Nat.not_lt.2 access.fits exceeds
  | part float partly => exact partly (access.whole float)
  | odd unaligned =>
    obtain ⟨exponent, aligned⟩ := access.aligned
    exact unaligned exponent aligned

theorem breaks_of_checkAccess (refused : checkAccess type bytes align = .error cause) :
    AccessBreaks type bytes align cause := by
  have sizes : accessSizes.contains bytes = true ↔
      bytes = 1 ∨ bytes = 2 ∨ bytes = 4 ∨ bytes = 8 := by simp [accessSizes]
  simp only [checkAccess, checks_eq_error_iff, Fault.ensure_eq_error_iff, Fault.ensure_eq_ok_iff,
    Bool.and_eq_true, Bool.and_eq_false_iff, decide_eq_true_iff, decide_eq_false_iff_not,
    ← Bool.not_eq_true (accessSizes.contains bytes), sizes] at refused
  rcases refused with ⟨absent | exceeds, rfl⟩ | ⟨⟨size, fits⟩, ⟨part, rfl⟩ | ⟨-, odd, rfl⟩⟩
  · exact .size absent
  · exact .wide (Nat.not_le.1 exceeds)
  · have partly := mt (whole_iff size fits).2 (Bool.eq_false_iff.1 part)
    obtain ⟨float, other⟩ := Classical.not_imp.1 partly
    exact .part float other
  · have unaligned := mt isPowerOfTwo_iff.2 (Bool.eq_false_iff.1 odd)
    exact .odd (not_exists.1 unaligned)

/-- What the builder reports is a rule that is broken. -/
theorem breaks_of_check (refused : node.check = .error cause) : node.Breaks cause := by
  cases node with
  | unary op type value =>
    obtain ⟨rejects, rfl⟩ := Fault.ensure_eq_error_iff.1 refused
    exact .unary rejects
  | binary op type left right =>
    obtain ⟨rejects, rfl⟩ := Fault.ensure_eq_error_iff.1 refused
    exact .binary rejects
  | compare op type left right =>
    obtain ⟨rejects, rfl⟩ := Fault.ensure_eq_error_iff.1 refused
    exact .compare rejects
  | load type bytes signed offset align ptr =>
    rcases checks_eq_error_iff.1 refused with access | ⟨access, sign⟩
    · exact .load (breaks_of_checkAccess access)
    · obtain ⟨pointless, rfl⟩ := Fault.ensure_eq_error_iff.1 sign
      rw [Bool.or_eq_false_iff, Bool.not_eq_false', Bool.and_eq_false_iff,
        decide_eq_false_iff_not] at pointless
      obtain ⟨rfl, pointless⟩ := pointless
      -- The access has passed by now, so the load is not too wide.
      have fits := (checkAccess_eq_ok_iff.1 access).fits
      exact .sign (pointless.imp_right fun part => Nat.le_antisymm fits (Nat.not_lt.1 part))
  | store type bytes offset align ptr value => exact .store (breaks_of_checkAccess refused)
  | branch target condition =>
    obtain ⟨unset, rfl⟩ := Fault.ensure_eq_error_iff.1 refused
    rw [Bool.not_eq_false', Var.isUnset_iff] at unset
    subst unset
    exact .branch
  | loop exitLabel continueLabel body =>
    obtain ⟨equal, rfl⟩ := Fault.ensure_eq_error_iff.1 refused
    rw [Bool.or_eq_false_iff, bne_eq_false_iff_eq, Bool.eq_false_iff, Ne, Var.isUnset_iff] at equal
    obtain ⟨set, rfl⟩ := equal
    exact .loop set
  | _ => cases refused

theorem not_wellFormed_of_breaks (broken : node.Breaks cause) : ¬node.WellFormed := by
  intro wellFormed
  cases broken with
  | unary rejects => exact Bool.eq_false_iff.1 rejects wellFormed.1
  | binary rejects => exact Bool.eq_false_iff.1 rejects wellFormed.1
  | compare rejects => exact Bool.eq_false_iff.1 rejects wellFormed.1
  | load access => exact not_access_of_breaks access wellFormed.1
  | store access => exact not_access_of_breaks access wellFormed
  | sign pointless =>
    obtain ⟨int, part⟩ := wellFormed.2 rfl
    rcases pointless with float | whole
    · exact Bool.eq_false_iff.1 float int
    · exact Nat.ne_of_lt part whole
  | loop set => exact set (wellFormed rfl).1
  | branch => exact wellFormed rfl

theorem exists_breaks_iff : (∃ cause, node.Breaks cause) ↔ ¬node.WellFormed := by
  refine ⟨fun ⟨cause, broken⟩ => not_wellFormed_of_breaks broken, fun malformed => ?_⟩
  cases checked : node.check with
  | ok => exact absurd (check_eq_ok_iff.1 checked) malformed
  | error cause => exact ⟨cause, breaks_of_check checked⟩

end Node

namespace Program

variable {program start : Program} {node : Node} {cause : Fault}

/-! ## Constructors -/

section Construct

variable {construct : Action NodeId} (builds : Builds construct node)

include builds

/-- Arguments that break a rule are refused for one they break, in any program. -/
theorem run_of_broken (program : Program) (broken : ∃ cause, node.Breaks cause) :
    ∃ cause, node.Breaks cause ∧ construct.run program = .error (.fault cause) program := by
  have malformed := Node.exists_breaks_iff.1 broken
  obtain ⟨cause, refused, stops⟩ | ⟨_, kept, -⟩ | ⟨kept, -⟩ := builds.cases program
  · exact ⟨cause, Node.breaks_of_check refused, stops⟩
  · exact absurd (Node.check_eq_ok_iff.1 kept) malformed
  · exact absurd (Node.check_eq_ok_iff.1 kept) malformed

/-- Those that break none are refused where there is no room, and then for that. -/
theorem run_of_full (kept : ¬∃ cause, node.Breaks cause)
    (full : program.nodes.checkRoom = .error cause) :
    construct.run program = .error (.fault cause) program := by
  obtain ⟨_, refused, -⟩ | ⟨_, -, lacks, stops⟩ | ⟨-, room, -⟩ := builds.cases program
  · exact absurd ⟨_, Node.breaks_of_check refused⟩ kept
  · cases full.symm.trans lacks
    exact stops
  · cases full.symm.trans room

theorem run_of_exhausted (kept : ¬∃ cause, node.Breaks cause) (reserves : program.nodes.Reserves)
    (full : program.nodeCount = positionLimit) :
    construct.run program = .error (.fault .arenaFull) program :=
  run_of_full builds kept (reserves.checkRoom_of_full (Nat.le_of_eq full.symm))

/-- Where there is room their node is appended, and nothing else happens. -/
theorem run_of_kept (sound : program.nodes.Sound) (room : program.nodes.checkRoom = .ok ())
    (kept : ¬∃ cause, node.Breaks cause) :
    ∃ after, construct.run program = .ok program.nodes.next after ∧
      after = { program with nodes := after.nodes } ∧
      after.nodeCount = program.nodeCount + 1 ∧
      after.node program.nodes.next = .ok node ∧
      ∀ other, other ≠ program.nodes.next → after.node other = program.node other := by
  obtain ⟨_, refused, -⟩ | ⟨_, -, full, -⟩ | ⟨-, -, goes⟩ := builds.cases program
  · exact absurd ⟨_, Node.breaks_of_check refused⟩ kept
  · cases full.symm.trans room
  · refine ⟨_, goes, rfl, Arena.size_push node, ?_, ?_⟩
    · rw [node_eq_ok_iff, Arena.get?_push sound room]
      exact if_pos rfl
    · intro other elsewhere
      have same := (Arena.get?_push sound room node other).trans (if_neg elsewhere)
      rw [Program.node, Program.node, Arena.get, Arena.get, same]

end Construct

/-- **Constructors accept the contract and nothing else, and store what they were given.**  Take
any constructor with any arguments (`Builds`), in every state of a program whose chunk size was
accepted.  If the arguments break a rule of the kind they are refused with a rule they break, and
the program stays as it was.  If chunks can be reserved and a handle is left, this is the only way
to be refused: else a node of that kind, with every argument in its field, gets the next handle,
which is the number of nodes, and all else in the program is as it was, the other nodes included.
With no handle left, or if chunks can not be reserved, arguments that break no rule are refused for
that. -/
theorem build_iff_contract (created : start.Created) (requests : List Request)
    {construct : Action NodeId} {node : Node} (builds : Builds construct node) :
    let program := start.after requests
    let result := construct.run program
    let id := program.nodes.next
    (id.position = program.nodeCount ∧ program.nodeCount ≤ positionLimit) ∧
    ((∃ cause, node.Breaks cause) →
      ∃ cause, node.Breaks cause ∧ result = .error (.fault cause) program) ∧
    (start.nodes.reserved < blockLimit → program.nodeCount < positionLimit →
      ((∃ failure after, result = .error failure after) ↔ ∃ cause, node.Breaks cause) ∧
      ((¬∃ cause, node.Breaks cause) →
        ∃ after, result = .ok id after ∧ after = { program with nodes := after.nodes } ∧
          after.nodeCount = program.nodeCount + 1 ∧ after.node id = .ok node ∧
          ∀ other, other ≠ id → after.node other = program.node other)) ∧
    (start.nodes.reserved < blockLimit → program.nodeCount = positionLimit →
      (¬∃ cause, node.Breaks cause) → result = .error (.fault .arenaFull) program) ∧
    (blockLimit ≤ start.nodes.reserved →
      (¬∃ cause, node.Breaks cause) → result = .error (.fault .oversizedChunk) program) := by
  intro program result id
  have sound : program.nodes.Sound := sound_after created.sound requests
  refine ⟨⟨sound.position_next, sound.size_le⟩, run_of_broken builds program, ?_, ?_, ?_⟩
  · intro reservable left
    have room : program.nodes.checkRoom = .ok () :=
      Arena.checkRoom_eq_ok_iff.2 ⟨created.reserves reservable requests, left⟩
    refine ⟨⟨?_, ?_⟩, run_of_kept builds sound room⟩
    · rintro ⟨failure, after, failed⟩
      by_contra kept
      obtain ⟨_, goes, -⟩ := run_of_kept builds sound room kept
      cases goes.symm.trans failed
    · intro broken
      obtain ⟨cause, -, stops⟩ := run_of_broken builds program broken
      exact ⟨_, _, stops⟩
  · intro reservable full kept
    exact run_of_exhausted builds kept (created.reserves reservable requests) full
  · intro huge kept
    exact run_of_full builds kept (created.checkRoom_of_huge huge requests)

/-- In a program with two nodes to a chunk, a loop with one label in both roles and a load of half
a float are refused; a switch one of whose arms is not there yet is stored as it is. -/
theorem build_iff_contract_of_switch :
    let start := ofArena (.ofChunkSize 100)
    let arms : List SwitchCase := [⟨.i64 7, ⟨9⟩, true⟩, ⟨.i32 7, ⟨0⟩, false⟩]
    let program := start.after [.build .nop]
    ofConfig ⟨100⟩ = .ok start ∧
    (Builder.loop (.index 5) (.index 5) ⟨0⟩).run program =
      .error (.fault .equalLoopLabels) program ∧
    (∃ failure after,
      (Builder.load .f64 4 false 0 4 ⟨0⟩).run program = .error failure after) ∧
    ∃ after, (Builder.switch .unset ⟨0⟩ arms (some ⟨9⟩)).run program = .ok ⟨1⟩ after ∧
      after.node ⟨1⟩ = .ok (.switch .unset ⟨0⟩ arms (some ⟨9⟩)) ∧ after.node ⟨0⟩ = .ok .nop := by
  intro start arms program
  have made : ofConfig ⟨100⟩ = .ok start := rfl
  have created : start.Created := .inr ⟨⟨100⟩, made⟩
  have reservable : start.nodes.reserved < blockLimit := by decide
  have left : program.nodeCount < positionLimit := by decide +kernel
  have next : program.nodes.next = ⟨1⟩ := by decide +kernel
  have keeps : ¬∃ cause, (Node.switch .unset ⟨0⟩ arms (some ⟨9⟩)).Breaks cause := fun broken =>
    Node.exists_breaks_iff.1 broken trivial
  obtain ⟨-, refuses, -⟩ :=
    build_iff_contract created [.build .nop] (.loop (.index 5) (.index 5) ⟨0⟩)
  obtain ⟨-, -, fails, -⟩ :=
    build_iff_contract created [.build .nop] (.load .f64 4 false 0 4 ⟨0⟩)
  obtain ⟨-, -, stores, -⟩ :=
    build_iff_contract created [.build .nop] (.switch .unset ⟨0⟩ arms (some ⟨9⟩))
  refine ⟨made, ?_, ?_, ?_⟩
  · obtain ⟨cause, broken, stops⟩ := refuses ⟨_, .loop (by decide)⟩
    cases broken
    exact stops
  · exact (fails reservable left).1.2 ⟨_, .load (.part rfl (by decide))⟩
  · obtain ⟨after, goes, -, -, stored, others⟩ := (stores reservable left).2 keeps
    rw [next] at stored others
    have first : program.node ⟨0⟩ = .ok .nop := by decide +kernel
    exact ⟨after, next ▸ goes, stored, (others ⟨0⟩ (by decide)).trans first⟩

/-- As long as handles are left, every node without a contract is appended. -/
theorem nodeCount_after_nops (reserves : start.nodes.Reserves) (empty : start.nodes.size = 0)
    {count : Nat} (left : count ≤ positionLimit) :
    (start.after (List.replicate count (.build .nop))).nodeCount = count := by
  induction count with
  | zero => exact empty
  | succ count ih =>
    have before := ih (Nat.le_of_succ_le left)
    have room : (start.after (List.replicate count (.build .nop))).nodes.checkRoom = .ok () :=
      Arena.checkRoom_eq_ok_iff.2 ⟨(reserves_after start _).2 reserves, Nat.lt_of_lt_of_le
        (Nat.lt_of_le_of_lt (Nat.le_of_eq before) (Nat.lt_succ_self count)) left⟩
    have adds : (Request.build .nop).adds? (start.after (List.replicate count (.build .nop))) =
        some .nop := rfl
    rw [List.replicate_succ', after_append, after_cons, after_nil]
    obtain ⟨_, -, refused, -⟩ | ⟨_, -, full, -⟩ | ⟨-, -, step⟩ := step_of_adds adds
    · cases refused
    · cases room.symm.trans full
    · rw [step, nodeCount, Arena.size_push]
      exact congrArg (· + 1) before

/-- Constructors that keep the contract can fail in two ways.  A chunk size for which no chunk can
be reserved is accepted, but no node can be built; and after as many nodes as there are handles no
other can be. -/
theorem build_fails_without_room :
    let huge := ofArena (.ofChunkSize 18446744073709551615)
    let full := empty.after (List.replicate positionLimit (.build .nop))
    (¬∃ cause, Node.nop.Breaks cause) ∧
    ofConfig ⟨18446744073709551615⟩ = .ok huge ∧
    Builder.nop.run huge = .error (.fault .oversizedChunk) huge ∧
    full.nodeCount = 4294967295 ∧
    Builder.nop.run full = .error (.fault .arenaFull) full := by
  intro huge full
  have kept : ¬∃ cause, Node.nop.Breaks cause := nofun
  have made : ofConfig ⟨18446744073709551615⟩ = .ok huge := rfl
  have roomless : huge.nodes.checkRoom = .error .oversizedChunk :=
    Created.checkRoom_of_huge (.inr ⟨_, made⟩) (by decide) []
  have created : empty.Created := .inl rfl
  have reserves : empty.nodes.Reserves := created.reserves (by decide) []
  have count : full.nodeCount = positionLimit :=
    nodeCount_after_nops reserves rfl (Nat.le_refl _)
  have exhausted : Builder.nop.run full = .error (.fault .arenaFull) full :=
    run_of_exhausted .nop kept ((reserves_after empty _).2 reserves) count
  exact ⟨kept, made, run_of_full .nop kept roomless, count, exhausted⟩

end Program

end TreeIR
