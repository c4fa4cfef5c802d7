/-
# TreeIR.Proofs.Operations -- the outcome of each operation

One lemma for each operation that can fail and changes the program: under which
condition it fails, with which cause and in which state, and what it makes of the
program otherwise.  Everything about calls and runs rests on these; no later proof
opens an operation again.

Where an operation stores something before it binds a name, its check in front is what
makes the binding succeed (`bind_of_unbound`), so a failure never comes halfway.
Minting is the exception: it moves the counter over bound indices before it can fail
(`freshVar_cases`).
-/
import Mathlib
import TreeIR.Program.Request

namespace TreeIR

set_option autoImplicit false

/-! ## Questions and checks -/

namespace Action

variable {α : Type}

theorem ask_cases (question : Program → Except Failure α) (program : Program) :
    (∃ failure, question program = .error failure ∧
      (ask question).run program = .error failure program) ∨
    (∃ answer, question program = .ok answer ∧
      (ask question).run program = .ok answer program) := by
  cases asked : question program with
  | error failure => exact .inl ⟨failure, rfl, by simp [ask, asked]; rfl⟩
  | ok answer => exact .inr ⟨answer, rfl, by simp [ask, asked]⟩

/-- The same for a question whose errors are wrapped on the way out. -/
theorem ask_mapError_cases {ε : Type} (wrap : ε → Failure) (question : Program → Except ε α)
    (program : Program) :
    (∃ error, question program = .error error ∧
      (ask fun program => (question program).mapError wrap).run program =
        .error (wrap error) program) ∨
    (∃ answer, question program = .ok answer ∧
      (ask fun program => (question program).mapError wrap).run program =
        .ok answer program) := by
  cases asked : question program with
  | error error => exact .inl ⟨error, rfl, by simp [ask, asked, Except.mapError]; rfl⟩
  | ok answer => exact .inr ⟨answer, rfl, by simp [ask, asked, Except.mapError]⟩

theorem require_cases (checked : Except Fault Unit) (program : Program) :
    (∃ cause, checked = .error cause ∧
      (require checked).run program = .error (.fault cause) program) ∨
    (checked = .ok () ∧ (require checked).run program = .ok () program) := by
  cases checked with
  | error cause => exact .inl ⟨cause, rfl, rfl⟩
  | ok => exact .inr ⟨rfl, rfl⟩

/-- Checks that are made one after the other are one check. -/
theorem require_require (first second : Except Fault Unit) (rest : Action α) :
    (do require first; require second; rest) = (do require (do first; second); rest) := by
  cases first <;> rfl

end Action

namespace Program

variable (program : Program)

/-! ## Names -/

theorem intern_cases (text : String) :
    (∃ cause, program.names.intern text = .error cause ∧
      (intern text).run program = .error (.fault cause) program) ∨
    (∃ name names, program.names.intern text = .ok (name, names) ∧
      (intern text).run program = .ok name { program with names }) := by
  cases tried : program.names.intern text with
  | error cause => exact .inl ⟨cause, rfl, by simp [intern, tried]; rfl⟩
  | ok result => exact .inr ⟨result.1, result.2, rfl, by simp [intern, tried]⟩

/-! ## Binding -/

theorem requireUnbound_cases (var : Var) :
    (∃ existing, program.bindings[var]? = some existing ∧
      (requireUnbound var).run program =
        .error (.register (.alreadyBound var existing.kind)) program) ∨
    (program.bindings[var]? = none ∧ (requireUnbound var).run program = .ok () program) := by
  cases bound : program.bindings[var]? with
  | some existing => exact .inl ⟨existing, rfl, by simp [requireUnbound, bound]⟩
  | none => exact .inr ⟨rfl, by simp [requireUnbound, bound]⟩

/-- Nothing stands in the way of a var that is set and not bound. -/
theorem bind_of_unbound {program : Program} {var : Var} (set : var ≠ .unset)
    (free : program.bindings[var]? = none) (entity : Entity) :
    (bind var entity).run program =
      .ok () { program with bindings := program.bindings.insert var entity } := by
  simp [bind, requireUnbound, set, free]

theorem bind_cases (var : Var) (entity : Entity) :
    (var = .unset ∧ (bind var entity).run program = .error (.fault .nullBinding) program) ∨
    (∃ existing, program.bindings[var]? = some existing ∧
      (bind var entity).run program =
        .error (.register (.alreadyBound var existing.kind)) program) ∨
    (var ≠ .unset ∧ program.bindings[var]? = none ∧
      (bind var entity).run program =
        .ok () { program with bindings := program.bindings.insert var entity }) := by
  by_cases unset : var = .unset
  · exact .inl ⟨unset, by simp [bind, unset]⟩
  · obtain ⟨existing, bound, stops⟩ | ⟨free, -⟩ := program.requireUnbound_cases var
    · exact .inr (.inl ⟨existing, bound, by simp [bind, unset, stops]⟩)
    · exact .inr (.inr ⟨unset, free, bind_of_unbound unset free entity⟩)

/-! ## Entities under a name -/

theorem addSignature_cases (entry : Signature) :
    (∃ existing, program.bindings[Var.named entry.name]? = some existing ∧
      (addSignature entry).run program =
        .error (.register (.alreadyBound (.named entry.name) existing.kind)) program) ∨
    (program.bindings[Var.named entry.name]? = none ∧
      (addSignature entry).run program = .ok program.signatures.size
        { program with
          signatures := program.signatures.push entry
          bindings := program.bindings.insert (.named entry.name)
            (.signature program.signatures.size) }) := by
  obtain ⟨existing, bound, stops⟩ | ⟨free, passes⟩ :=
    program.requireUnbound_cases (.named entry.name)
  · exact .inl ⟨existing, bound, by simp [addSignature, stops]⟩
  · refine .inr ⟨free, ?_⟩
    simp [addSignature, passes, bind_of_unbound, free]

theorem addFunction_cases (func : Func) :
    (∃ existing, program.bindings[Var.named func.name]? = some existing ∧
      (addFunction func).run program =
        .error (.register (.alreadyBound (.named func.name) existing.kind)) program) ∨
    (∃ name, program.bindings[Var.named func.name]? = none ∧ func.repeatedSlot? = some name ∧
      (addFunction func).run program = .error (.register (.duplicateLocal name)) program) ∨
    (program.bindings[Var.named func.name]? = none ∧ func.repeatedSlot? = none ∧
      (addFunction func).run program = .ok program.functions.size
        { program with
          functions := program.functions.push func
          bindings := program.bindings.insert (.named func.name)
            (.function program.functions.size) }) := by
  obtain ⟨existing, bound, stops⟩ | ⟨free, passes⟩ :=
    program.requireUnbound_cases (.named func.name)
  · exact .inl ⟨existing, bound, by simp [addFunction, stops]⟩
  · cases repeated : func.repeatedSlot? with
    | some name => exact .inr (.inl ⟨name, free, rfl, by simp [addFunction, passes, repeated]⟩)
    | none =>
      refine .inr (.inr ⟨free, rfl, ?_⟩)
      simp [addFunction, passes, repeated, bind_of_unbound, free]

theorem addImport_cases (entry : Import) :
    (∃ existing, program.bindings[Var.named entry.name]? = some existing ∧
      (addImport entry).run program =
        .error (.register (.alreadyBound (.named entry.name) existing.kind)) program) ∨
    (program.bindings[Var.named entry.name]? = none ∧
      (addImport entry).run program = .ok program.imports.size
        { program with
          imports := program.imports.push entry
          bindings := program.bindings.insert (.named entry.name)
            (.imported program.imports.size) }) := by
  obtain ⟨existing, bound, stops⟩ | ⟨free, passes⟩ :=
    program.requireUnbound_cases (.named entry.name)
  · exact .inl ⟨existing, bound, by simp [addImport, stops]⟩
  · refine .inr ⟨free, ?_⟩
    simp [addImport, passes, bind_of_unbound, free]

theorem addExport_cases (entry : Export) :
    (entry.name ∈ program.exportIndices ∧
      (addExport entry).run program = .error (.register (.duplicateExport entry.name)) program) ∨
    (entry.name ∉ program.exportIndices ∧
      (addExport entry).run program = .ok program.exports.size
        { program with
          exports := program.exports.push entry
          exportIndices := program.exportIndices.insert entry.name program.exports.size }) := by
  by_cases taken : entry.name ∈ program.exportIndices
  · exact .inl ⟨taken, by simp [addExport, taken]⟩
  · exact .inr ⟨taken, by simp [addExport, taken]⟩

/-! ## Labels -/

/-- What registering the labels of a node binds, in order. -/
def labelTargets (id : NodeId) (labels : List (Var × LabelRole)) : List (Var × Entity) :=
  labels.map fun declared => (declared.1, .label ⟨id, declared.2⟩)

theorem checkLabels_cases (labels : List (Var × LabelRole)) (earlier : List Var) :
    (∃ failure, (checkLabels earlier labels).run program = .error failure program) ∨
    ((∀ declared ∈ labels, program.bindings[declared.1]? = none ∧ declared.1 ∉ earlier) ∧
      (labels.map Prod.fst).Nodup ∧
      (checkLabels earlier labels).run program = .ok () program) := by
  induction labels generalizing earlier with
  | nil => exact .inr ⟨by simp, by simp, rfl⟩
  | cons declared rest ih =>
    obtain ⟨label, role⟩ := declared
    obtain ⟨existing, -, stops⟩ | ⟨free, passes⟩ := program.requireUnbound_cases label
    · exact .inl ⟨_, by simp [checkLabels, stops]; rfl⟩
    · by_cases repeated : label ∈ earlier
      · exact .inl ⟨_, by simp [checkLabels, passes, repeated]; rfl⟩
      · obtain ⟨failure, stops⟩ | ⟨apart, distinct, goes⟩ := ih (label :: earlier)
        · exact .inl ⟨failure, by simp [checkLabels, passes, repeated, stops]⟩
        · refine .inr ⟨?_, ?_, by simp [checkLabels, passes, repeated, goes]⟩
          · intro declared member
            rcases List.mem_cons.1 member with rfl | later
            · exact ⟨free, repeated⟩
            · exact ⟨(apart declared later).1, fun old => (apart declared later).2 (.tail _ old)⟩
          · rw [List.map_cons, List.nodup_cons]
            refine ⟨fun again => ?_, distinct⟩
            obtain ⟨declared, later, same⟩ := List.mem_map.1 again
            exact (apart declared later).2 (same ▸ .head _)

/-- Labels that are set, free and distinct are bound without a failure on the way: the
ones bound first do not get in the way of the later ones. -/
theorem bindLabels_of_unbound {program : Program} (id : NodeId) {labels : List (Var × LabelRole)}
    (set : ∀ declared ∈ labels, declared.1 ≠ .unset)
    (free : ∀ declared ∈ labels, program.bindings[declared.1]? = none)
    (distinct : (labels.map Prod.fst).Nodup) :
    (bindLabels id labels).run program =
      .ok () { program with bindings := program.bindings.insertMany (labelTargets id labels) } := by
  induction labels generalizing program with
  | nil => simp [bindLabels, labelTargets]
  | cons declared rest ih =>
    obtain ⟨label, role⟩ := declared
    rw [List.map_cons, List.nodup_cons] at distinct
    have bound := bind_of_unbound (set _ (.head _)) (free _ (.head _)) (.label ⟨id, role⟩)
    have later := @ih
      { program with bindings := program.bindings.insert label (.label ⟨id, role⟩) }
      (fun declared member => set declared (.tail _ member))
      (fun declared member => by
        have other : label ≠ declared.1 := fun same =>
          distinct.1 (List.mem_map.2 ⟨declared, member, same.symm⟩)
        rw [Std.ExtTreeMap.getElem?_insert, if_neg (by simpa using other)]
        exact free declared (.tail _ member))
      distinct.2
    rw [labelTargets, List.map_cons, Std.ExtTreeMap.insertMany_cons, ← labelTargets]
    simp [bindLabels, bound, later]

theorem set_of_mem_labels {node : Node} {declared : Var × LabelRole}
    (member : declared ∈ node.labels) : declared.1 ≠ .unset := by
  obtain ⟨label, role⟩ := declared
  rintro rfl
  exact Node.unset_notMem_labels member

theorem registerLabels_cases (id : NodeId) :
    (∃ failure, (registerLabels id).run program = .error failure program) ∨
    (∃ node, program.node id = .ok node ∧ node.labels ≠ [] ∧
      (∀ declared ∈ node.labels, program.bindings[declared.1]? = none) ∧
      (node.labels.map Prod.fst).Nodup ∧
      (registerLabels id).run program = .ok ()
        { program with
          bindings := program.bindings.insertMany (labelTargets id node.labels) }) := by
  obtain ⟨cause, -, stops⟩ | ⟨node, found, goes⟩ :=
    Action.ask_mapError_cases .fault (fun program => program.node id) program
  · exact .inl ⟨_, by simp [registerLabels, stops]; rfl⟩
  · by_cases bare : node.labels = []
    · exact .inl ⟨.register (.notLabelBearing id), by simp [registerLabels, goes, bare]⟩
    · obtain ⟨failure, stops⟩ | ⟨apart, distinct, passes⟩ :=
        program.checkLabels_cases node.labels []
      · exact .inl ⟨failure, by simp [registerLabels, goes, bare, stops]⟩
      · have free := fun declared member => (apart declared member).1
        have bound := bindLabels_of_unbound id (fun _ => set_of_mem_labels) free distinct
        exact .inr ⟨node, found, bare, free, distinct,
          by simp [registerLabels, goes, bare, passes, bound]⟩

/-! ## Minting -/

theorem le_lastIndex (number : UInt32) : number ≤ lastIndex := by
  rw [UInt32.le_iff_toNat_le]
  exact Nat.le_of_lt_succ number.toNat_lt

theorem toNat_succ_of_lt {number bound : UInt32} (below : number < bound) :
    (number + 1).toNat = number.toNat + 1 := by
  have below : number.toNat < bound.toNat := UInt32.lt_iff_toNat_lt.1 below
  have words : bound.toNat < 2 ^ 32 := bound.toNat_lt
  rw [UInt32.toNat_add, Nat.mod_eq_of_lt]
  · rfl
  · exact Nat.lt_of_le_of_lt below words

theorem succ_le_of_le_of_ne {number index : UInt32} (lower : number ≤ index)
    (other : index ≠ number) : number + 1 ≤ index := by
  have below : number < index := UInt32.lt_of_le_of_ne lower other.symm
  have next := toNat_succ_of_lt below
  rw [UInt32.le_iff_toNat_le, next]
  exact UInt32.lt_iff_toNat_lt.1 below

theorem lt_succ_iff_of_lt {index number bound : UInt32} (below : number < bound) :
    index < number + 1 ↔ index ≤ number := by
  rw [UInt32.lt_iff_toNat_lt, toNat_succ_of_lt below, Nat.lt_succ_iff, UInt32.le_iff_toNat_le]

/-- The search stops at an index that is not bound and has passed bound ones only. -/
theorem firstUnbound?_eq_some {bindings : Std.ExtTreeMap Var Entity} {number first : UInt32}
    (found : firstUnbound? bindings number = some first) :
    number ≤ first ∧ Var.index first ∉ bindings ∧
      ∀ index, number ≤ index → index < first → Var.index index ∈ bindings := by
  fun_induction firstUnbound? bindings number with
  | case1 number bound below ih =>
    obtain ⟨reached, free, passed⟩ := ih found
    have next := toNat_succ_of_lt below
    rw [UInt32.le_iff_toNat_le] at reached
    refine ⟨UInt32.le_iff_toNat_le.2 (by omega), free, fun index lower upper => ?_⟩
    by_cases same : index = number
    · exact same ▸ bound
    · exact passed index (succ_le_of_le_of_ne lower same) upper
  | case2 number bound last => cases found
  | case3 number free =>
    cases found
    exact ⟨UInt32.le_refl _, free, fun index lower upper => absurd upper (UInt32.not_lt.2 lower)⟩

/-- The search fails only where every index from the start on is bound. -/
theorem firstUnbound?_eq_none {bindings : Std.ExtTreeMap Var Entity} {number : UInt32}
    (exhausted : firstUnbound? bindings number = none) :
    ∀ index, number ≤ index → Var.index index ∈ bindings := by
  intro index lower
  fun_induction firstUnbound? bindings number with
  | case1 number bound below ih =>
    by_cases same : index = number
    · exact same ▸ bound
    · exact ih exhausted (succ_le_of_le_of_ne lower same)
  | case2 number bound last =>
    have upper : index ≤ number := UInt32.le_trans (le_lastIndex index) (UInt32.not_lt.1 last)
    exact UInt32.le_antisymm upper lower ▸ bound
  | case3 number free => cases exhausted

theorem firstUnbound?_of_notMem {bindings : Std.ExtTreeMap Var Entity} {number : UInt32}
    (free : Var.index number ∉ bindings) : firstUnbound? bindings number = some number := by
  rw [firstUnbound?, if_neg free]

theorem freshVar_cases :
    (firstUnbound? program.bindings program.nextIndex = none ∧
      freshVar.run program =
        .error (.fault .indicesExhausted) { program with nextIndex := lastIndex }) ∨
    (∃ number, firstUnbound? program.bindings program.nextIndex = some number ∧
      ¬(0 < number ∧ number < Var.indexLimit) ∧
      freshVar.run program =
        .error (.fault (.indexOutOfRange number)) { program with nextIndex := number }) ∨
    (∃ number, firstUnbound? program.bindings program.nextIndex = some number ∧
      (0 < number ∧ number < Var.indexLimit) ∧
      freshVar.run program = .ok (.index number) { program with nextIndex := number + 1 }) := by
  cases first : firstUnbound? program.bindings program.nextIndex with
  | none => exact .inl ⟨rfl, by simp [freshVar, first]; rfl⟩
  | some number =>
    by_cases inRange : 0 < number ∧ number < Var.indexLimit
    · have minted : Var.ofIndex? number = some (.index number) := if_pos inRange
      exact .inr (.inr ⟨number, rfl, inRange, by simp [freshVar, first, minted]⟩)
    · have refused : Var.ofIndex? number = none := if_neg inRange
      exact .inr (.inl ⟨number, rfl, inRange, by simp [freshVar, first, refused]; rfl⟩)

/-! ## Nodes and functions -/

theorem alloc_cases (node : Node) :
    (∃ cause, program.nodes.checkRoom = .error cause ∧
      (alloc node).run program = .error (.fault cause) program) ∨
    (program.nodes.checkRoom = .ok () ∧
      (alloc node).run program =
        .ok program.nodes.next { program with nodes := program.nodes.push node }) := by
  obtain ⟨cause, full, stops⟩ | ⟨room, passes⟩ :=
    Action.require_cases program.nodes.checkRoom program
  · exact .inl ⟨cause, full, by simp [alloc, stops]⟩
  · exact .inr ⟨room, by simp [alloc, passes]⟩

/-- The node that the constructor of a kind makes of its arguments. -/
inductive Builds : Action NodeId → Node → Prop
  | nop : Builds Builder.nop .nop
  | block (label : Var) (list : List NodeId) :
      Builds (Builder.block label list) (.block label list)
  | cond (condition ifTrue : NodeId) (ifFalse : Option NodeId) :
      Builds (Builder.cond condition ifTrue ifFalse) (.cond condition ifTrue ifFalse)
  | loop (exitLabel continueLabel : Var) (body : NodeId) :
      Builds (Builder.loop exitLabel continueLabel body) (.loop exitLabel continueLabel body)
  | marker (label : Var) : Builds (Builder.marker label) (.marker label)
  | branch (target : Var) (condition : Option NodeId) :
      Builds (Builder.branch target condition) (.branch target condition)
  | switch (label : Var) (value : NodeId) (cases : List SwitchCase) (fallback : Option NodeId) :
      Builds (Builder.switch label value cases fallback) (.switch label value cases fallback)
  | call (target : Var) (operands : List NodeId) :
      Builds (Builder.call target operands) (.call target operands)
  | callImport (target : Var) (operands : List NodeId) :
      Builds (Builder.callImport target operands) (.callImport target operands)
  | callIndirect (signature : Var) (target : NodeId) (operands : List NodeId) :
      Builds (Builder.callIndirect signature target operands)
        (.callIndirect signature target operands)
  | getLocal (slot : Var) : Builds (Builder.getLocal slot) (.getLocal slot)
  | setLocal (slot : Var) (value : NodeId) :
      Builds (Builder.setLocal slot value) (.setLocal slot value)
  | load (type : ValueType) (bytes : UInt32) (signed : Bool) (offset align : UInt32)
      (ptr : NodeId) :
      Builds (Builder.load type bytes signed offset align ptr)
        (.load type bytes signed offset align ptr)
  | store (type : ValueType) (bytes offset align : UInt32) (ptr value : NodeId) :
      Builds (Builder.store type bytes offset align ptr value)
        (.store type bytes offset align ptr value)
  | const (value : Literal) : Builds (Builder.const value) (.const value)
  | i32Const (value : Int32) : Builds (Builder.i32Const value) (.const (.i32 value))
  | i64Const (value : Int64) : Builds (Builder.i64Const value) (.const (.i64 value))
  | f32Const (word : UInt32) : Builds (Builder.f32Const word) (.const (.f32 word))
  | f64Const (word : UInt64) : Builds (Builder.f64Const word) (.const (.f64 word))
  | unary (op : UnaryOp) (type : ValueType) (value : NodeId) :
      Builds (Builder.unary op type value) (.unary op type value)
  | binary (op : BinaryOp) (type : ValueType) (left right : NodeId) :
      Builds (Builder.binary op type left right) (.binary op type left right)
  | compare (op : RelationalOp) (type : ValueType) (left right : NodeId) :
      Builds (Builder.compare op type left right) (.compare op type left right)
  | convert (op : ConvertOp) (value : NodeId) :
      Builds (Builder.convert op value) (.convert op value)
  | host (op : HostOp) (operands : List NodeId) :
      Builds (Builder.host op operands) (.host op operands)

/-- A constructor checks the contract of its kind and appends the node of its arguments. -/
theorem Builds.eq_check {construct : Action NodeId} {node : Node}
    (builds : Builds construct node) :
    construct = (do Action.require node.check; alloc node) := by
  cases builds with
  | load type bytes signed offset align ptr => exact Action.require_require _ _ _
  | _ => rfl

/-- Every kind has its constructor. -/
theorem builds_build (node : Node) : Builds (build node) node := by
  match node with
  | .nop => exact .nop
  | .block label list => exact .block label list
  | .cond condition ifTrue ifFalse => exact .cond condition ifTrue ifFalse
  | .loop exitLabel continueLabel body => exact .loop exitLabel continueLabel body
  | .marker label => exact .marker label
  | .branch target condition => exact .branch target condition
  | .switch label value cases fallback => exact .switch label value cases fallback
  | .call target operands => exact .call target operands
  | .callImport target operands => exact .callImport target operands
  | .callIndirect signature target operands => exact .callIndirect signature target operands
  | .getLocal slot => exact .getLocal slot
  | .setLocal slot value => exact .setLocal slot value
  | .load type bytes signed offset align ptr => exact .load type bytes signed offset align ptr
  | .store type bytes offset align ptr value => exact .store type bytes offset align ptr value
  | .const (.i32 value) => exact .i32Const value
  | .const (.i64 value) => exact .i64Const value
  | .const (.f32 word) => exact .f32Const word
  | .const (.f64 word) => exact .f64Const word
  | .unary op type value => exact .unary op type value
  | .binary op type left right => exact .binary op type left right
  | .compare op type left right => exact .compare op type left right
  | .convert op value => exact .convert op value
  | .host op operands => exact .host op operands

/-- The contract of the node comes before the room for it. -/
theorem Builds.cases {construct : Action NodeId} {node : Node} (builds : Builds construct node) :
    (∃ cause, node.check = .error cause ∧
      construct.run program = .error (.fault cause) program) ∨
    (∃ cause, node.check = .ok () ∧ program.nodes.checkRoom = .error cause ∧
      construct.run program = .error (.fault cause) program) ∨
    (node.check = .ok () ∧ program.nodes.checkRoom = .ok () ∧
      construct.run program =
        .ok program.nodes.next { program with nodes := program.nodes.push node }) := by
  rw [builds.eq_check]
  obtain ⟨cause, broken, stops⟩ | ⟨kept, passes⟩ := Action.require_cases node.check program
  · exact .inl ⟨cause, broken, by simp [stops]⟩
  · obtain ⟨cause, full, stops⟩ | ⟨room, goes⟩ := program.alloc_cases node
    · exact .inr (.inl ⟨cause, kept, full, by simp [passes, stops]⟩)
    · exact .inr (.inr ⟨kept, room, by simp [passes, goes]⟩)

theorem copyNode_cases (id : NodeId) :
    (∃ cause, (copyNode id).run program = .error (.fault cause) program) ∨
    (∃ node, program.node id = .ok node ∧ program.nodes.checkRoom = .ok () ∧
      (copyNode id).run program =
        .ok program.nodes.next { program with nodes := program.nodes.push node }) := by
  obtain ⟨cause, -, stops⟩ | ⟨node, found, goes⟩ :=
    Action.ask_mapError_cases .fault (fun program => program.node id) program
  · exact .inl ⟨cause, by simp [copyNode, stops]⟩
  · obtain ⟨cause, -, stops⟩ | ⟨room, appends⟩ := program.alloc_cases node
    · exact .inl ⟨cause, by simp [copyNode, goes, stops]⟩
    · exact .inr ⟨node, found, room, by simp [copyNode, goes, appends]⟩

theorem setNode_cases (id : NodeId) (node : Node) :
    (∃ cause, program.node id = .error cause ∧
      (setNode id node).run program = .error (.fault cause) program) ∨
    (∃ old, program.node id = .ok old ∧
      (setNode id node).run program =
        .ok () { program with nodes := program.nodes.put id node }) := by
  obtain ⟨cause, unknown, stops⟩ | ⟨old, found, goes⟩ :=
    Action.ask_mapError_cases .fault (fun program => program.node id) program
  · exact .inl ⟨cause, unknown, by simp [setNode, stops]⟩
  · exact .inr ⟨old, found, by simp [setNode, goes]⟩

theorem putChildren_cases (id : NodeId) (ids : List NodeId) :
    (∃ cause, program.node id = .error cause ∧
      (putChildren id ids).run program = .error (.fault cause) program) ∨
    (∃ old, program.node id = .ok old ∧
      (putChildren id ids).run program =
        .ok () { program with nodes := program.nodes.put id (old.putChildren ids) }) := by
  obtain ⟨cause, unknown, stops⟩ | ⟨old, found, goes⟩ :=
    Action.ask_mapError_cases .fault (fun program => program.node id) program
  · exact .inl ⟨cause, unknown, by simp [putChildren, stops]⟩
  · exact .inr ⟨old, found, by simp [putChildren, setNode, goes]⟩

theorem setFunction_cases (index : Nat) (func : Func) :
    (∃ cause, program.function index = .error cause ∧
      (setFunction index func).run program = .error (.fault cause) program) ∨
    (∃ old, program.function index = .ok old ∧
      (setFunction index func).run program =
        .ok () { program with functions := program.functions.setIfInBounds index func }) := by
  obtain ⟨cause, unknown, stops⟩ | ⟨old, found, goes⟩ :=
    Action.ask_mapError_cases .fault (fun program => program.function index) program
  · exact .inl ⟨cause, unknown, by simp [setFunction, stops]⟩
  · exact .inr ⟨old, found, by simp [setFunction, goes]⟩

theorem setBody_cases (index : Nat) (body : NodeId) :
    (∃ cause, program.function index = .error cause ∧
      (setBody index body).run program = .error (.fault cause) program) ∨
    (∃ old, program.function index = .ok old ∧
      (setBody index body).run program = .ok ()
        { program with
          functions := program.functions.setIfInBounds index { old with body := some body } }) := by
  obtain ⟨cause, unknown, stops⟩ | ⟨old, found, goes⟩ :=
    Action.ask_mapError_cases .fault (fun program => program.function index) program
  · exact .inl ⟨cause, unknown, by simp [setBody, stops]⟩
  · exact .inr ⟨old, found, by simp [setBody, setFunction, goes]⟩

end Program

end TreeIR
