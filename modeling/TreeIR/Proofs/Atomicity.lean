/-
# TreeIR.Proofs.Atomicity -- a call happens as a whole or not at all

A call that fails leaves the program as it was, whatever it had to do in between; this
is `Outcome` read for failures and needs no assumption on the program.  Two operations
work in several steps, and both are covered: an entity is stored before its name is
bound, so `NewAreBound` says that whatever a call has added to the stores is bound
afterwards; and a node binds its labels one after the other, so one label that is taken
keeps all of them from being bound.

Minting is the one call that leaves a trace when it fails.  The counter may have moved,
but only over bound indices (`Stuck.passed`), which minting would pass again anyway: the
next attempt fails in the same way and moves nothing (`Stuck.again`).
-/
import TreeIR.Proofs.Bindings

namespace TreeIR

set_option autoImplicit false

namespace Program

variable {program : Program} {failure : Failure}

/-! ## Stores and bindings -/

/-- Every entry that a store has beyond its old size is bound to its name. -/
def TailBound {α : Type} (program : Program) (name : α → Name) (entity : Nat → Entity)
    (before after : Array α) : Prop :=
  ∀ index entry, before.size ≤ index → after[index]? = some entry →
    program.resolve (.named (name entry)) = .ok (entity index)

/-- Every entity that the second program has beyond the first is bound to its name. -/
structure NewAreBound (before after : Program) : Prop where
  signatures : TailBound after Signature.name .signature before.signatures after.signatures
  functions : TailBound after Func.name .function before.functions after.functions
  imports : TailBound after Import.name .imported before.imports after.imports

section TailBound

variable {α : Type} {name : α → Name} {entity : Nat → Entity} {before after : Array α}

theorem TailBound.of_size (same : after.size = before.size) :
    TailBound program name entity before after := by
  intro index entry beyond found
  obtain ⟨inside, -⟩ := Array.getElem?_eq_some_iff.1 found
  omega

/-- The one entry that a push adds. -/
theorem TailBound.of_push {pushed : α}
    (bound : program.resolve (.named (name pushed)) = .ok (entity before.size)) :
    TailBound program name entity before (before.push pushed) := by
  intro index entry beyond found
  rw [Array.getElem?_push] at found
  split at found
  · rename_i here
    cases found
    rw [here]
    exact bound
  · obtain ⟨inside, -⟩ := Array.getElem?_eq_some_iff.1 found
    omega

end TailBound

theorem NewAreBound.of_sizes {before after : Program}
    (signatures : after.signatures.size = before.signatures.size)
    (functions : after.functions.size = before.functions.size)
    (imports : after.imports.size = before.imports.size) : NewAreBound before after where
  signatures := .of_size signatures
  functions := .of_size functions
  imports := .of_size imports

theorem resolve_insert_self {bindings : Std.ExtTreeMap Var Entity} {var : Var} {entity : Entity}
    (here : program.bindings = bindings.insert var entity) :
    program.resolve var = .ok entity := by
  rw [resolve_eq_ok_iff, here, Std.ExtTreeMap.getElem?_insert_self]

theorem newAreBound_step (request : Request) (program : Program) :
    NewAreBound program (request.step program).2 := by
  cases request.outcome program with
  | failed step =>
    rw [step]
    exact .of_sizes rfl rfl rfl
  | stuck mints why step =>
    rw [step]
    exact .of_sizes rfl rfl rfl
  | succeeded effect step =>
    rw [step]
    cases effect with
    | addedSignature free =>
      exact ⟨.of_push (resolve_insert_self rfl), .of_size rfl, .of_size rfl⟩
    | addedFunction free distinct =>
      exact ⟨.of_size rfl, .of_push (resolve_insert_self rfl), .of_size rfl⟩
    | addedImport free =>
      exact ⟨.of_size rfl, .of_size rfl, .of_push (resolve_insert_self rfl)⟩
    | changedFunction found func => exact .of_sizes rfl Array.size_setIfInBounds rfl
    | changedBody found body => exact .of_sizes rfl Array.size_setIfInBounds rfl
    | _ => exact .of_sizes rfl rfl rfl

/-! ## Failures -/

theorem step_eq_of_error {request : Request} (mints : request ≠ .freshVar)
    (failed : (request.step program).1 = .error failure) : (request.step program).2 = program := by
  cases request.outcome program with
  | failed step => rw [step]
  | stuck mint why step => exact absurd mint mints
  | succeeded effect step => rw [step] at failed; cases failed

theorem stuck_of_error (failed : (Request.freshVar.step program).1 = .error failure) :
    ∃ counter, program.Stuck failure counter ∧
      Request.freshVar.step program = (.error failure, { program with nextIndex := counter }) := by
  obtain ⟨none, stops⟩ | ⟨number, first, refused, stops⟩ | ⟨number, -, -, goes⟩ :=
    program.freshVar_cases
  · have step : Request.freshVar.step program = _ := Request.step_of_error rfl stops
    rw [step] at failed
    cases failed
    exact ⟨_, .exhausted none, step⟩
  · have step : Request.freshVar.step program = _ := Request.step_of_error rfl stops
    rw [step] at failed
    cases failed
    exact ⟨_, .outOfRange first refused, step⟩
  · have step : Request.freshVar.step program = _ := Request.step_of_ok rfl goes
    rw [step] at failed
    cases failed

/-- A node with a label that is taken binds none of its labels. -/
theorem registerLabels_of_taken {id : NodeId} {node : Node} {declared : Var × LabelRole}
    (found : program.node id = .ok node) (declares : declared ∈ node.labels)
    (taken : declared.1 ∈ program.bindings) :
    ∃ failure, (Request.registerLabels id).step program = (.error failure, program) := by
  cases Request.outcome (.registerLabels id) program with
  | failed step => exact ⟨_, step⟩
  | stuck mints why step => cases mints
  | succeeded effect step =>
    cases effect with
    | asked question => cases question
    | registeredLabels other _ free _ =>
      cases found.symm.trans other
      have unbound := free declared declares
      rw [Std.ExtTreeMap.mem_iff_isSome_getElem?, unbound] at taken
      cases taken

/-- **Failed calls change nothing.**  A call that fails, minting apart, leaves the whole
program as it was, and so does every question, a walk that meets an unknown node
included.  Failed minting can move the counter, past bound indices only and to where it
fails again with the same message.  No call ever leaves an entity in a store without its
name bound to it, and of a node one of whose labels is taken no label is bound. -/
theorem failure_changes_nothing (program : Program) :
    (∀ (request : Request) (failure : Failure), request ≠ .freshVar →
      (request.step program).1 = .error failure → (request.step program).2 = program) ∧
    (∀ request : Request, request.isQuestion = true → (request.step program).2 = program) ∧
    (∀ failure, (Request.freshVar.step program).1 = .error failure →
      ∃ counter, (Request.freshVar.step program).2 = { program with nextIndex := counter } ∧
        program.nextIndex ≤ counter ∧
        (∀ index, program.nextIndex ≤ index → index < counter →
          Var.index index ∈ program.bindings) ∧
        Request.freshVar.step { program with nextIndex := counter } =
          (.error failure, { program with nextIndex := counter })) ∧
    (∀ request : Request, NewAreBound program (request.step program).2) ∧
    (∀ id node declared, program.node id = .ok node → declared ∈ node.labels →
      declared.1 ∈ program.bindings →
      ∃ failure, (Request.registerLabels id).step program = (.error failure, program)) := by
  refine ⟨?_, ?_, ?_, ?_, ?_⟩
  · intro request failure mints failed
    exact step_eq_of_error mints failed
  · intro request question
    exact Request.step_of_isQuestion question program
  · intro failure failed
    obtain ⟨counter, stuck, step⟩ := stuck_of_error failed
    have next : (Request.freshVar.step program).2 = { program with nextIndex := counter } :=
      congrArg Prod.snd step
    exact ⟨counter, next, stuck.le, fun index => stuck.passed, stuck.again⟩
  · intro request
    exact newAreBound_step request program
  · intro id node declared found declares taken
    exact registerLabels_of_taken found declares taken

/-- A loop whose second label is taken, and minting where the last index is taken. -/
theorem failure_changes_nothing_of_clash :
    let clash := empty.after
      [.build (.block (.index 1) []), .registerLabels ⟨0⟩,
        .build (.loop (.index 2) (.index 1) ⟨0⟩)]
    let full : Program :=
      { empty with nextIndex := 999999, bindings := .insert ∅ (.index 999999) (.function 0) }
    ((Request.registerLabels ⟨1⟩).step clash).1 =
      .error (.register (.alreadyBound (.index 1) .label)) ∧
    ((Request.registerLabels ⟨1⟩).step clash).2 = clash ∧
    (Request.freshVar.step full).1 = .error (.fault (.indexOutOfRange 1000000)) ∧
    ∃ counter, (Request.freshVar.step full).2 = { full with nextIndex := counter } ∧
      (Request.freshVar.step { full with nextIndex := counter }).1 =
        .error (.fault (.indexOutOfRange 1000000)) := by
  intro clash full
  have refused : ((Request.registerLabels ⟨1⟩).step clash).1 =
      .error (.register (.alreadyBound (.index 1) .label)) := by decide +kernel
  have stuck : (Request.freshVar.step full).1 = .error (.fault (.indexOutOfRange 1000000)) := by
    decide +kernel
  obtain ⟨same, -, -, -, -⟩ := failure_changes_nothing clash
  obtain ⟨-, -, mints, -, -⟩ := failure_changes_nothing full
  obtain ⟨counter, next, -, -, again⟩ := mints _ stuck
  exact ⟨refused, same _ _ (by simp) refused, stuck, counter, next, congrArg Prod.fst again⟩

end Program

end TreeIR
