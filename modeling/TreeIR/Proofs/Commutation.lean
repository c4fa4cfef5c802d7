/-
# TreeIR.Proofs.Commutation -- registrations of different kinds commute

A `Registration` is one of the four calls that register an entity.  All four work alike
(`step_request`): there may be something to refuse them for (`refusal?`), and otherwise they hand
out a position (`position`) and add the entity (`enter`).

Each kind of entity has a store of its own, and the position is the size of that store.  What two
kinds share are the bindings of names, and there an entry under one name neither refuses another
name nor is overwritten by it; exports do not even share these.  So for two registrations that are
`Apart` -- of different kinds, and under different names unless one is an export -- entering one
decides nothing about the other (`refusal?_enter`, `position_enter`), and it does not matter which
of them is entered first (`enter_comm`).
-/
import TreeIR.Proofs.Run

namespace TreeIR

set_option autoImplicit false

/-- A call that registers an entity. -/
inductive Registration
  | signature (entry : Signature)
  | function (func : Func)
  | imported (entry : Import)
  | exported (entry : Export)
  deriving DecidableEq, Repr

namespace Registration

/-- The call itself. -/
def request : Registration → Request
  | signature entry => .addSignature entry
  | function func => .addFunction func
  | imported entry => .addImport entry
  | exported entry => .addExport entry

/-- What a var can be bound to by the call; for exports there is no such kind. -/
def kind? : Registration → Option EntityKind
  | signature _ => some .signature
  | function _ => some .function
  | imported _ => some .imported
  | exported _ => none

/-- The name that the entity is registered under. -/
def name : Registration → Name
  | signature entry => entry.name
  | function func => func.name
  | imported entry => entry.name
  | exported entry => entry.name

/-! ## What a registration does -/

/-- A name that a var of the program has already. -/
def clash? (program : Program) (name : Name) : Option Failure :=
  program.bindings[Var.named name]?.map fun existing =>
    .register (.alreadyBound (.named name) existing.kind)

/-- Why the registration is refused, if it is. -/
def refusal? (program : Program) : Registration → Option Failure
  | signature entry => clash? program entry.name
  | function func =>
      (clash? program func.name).or
        (func.repeatedSlot?.map fun name => .register (.duplicateLocal name))
  | imported entry => clash? program entry.name
  | exported entry =>
      if entry.name ∈ program.exportIndices then some (.register (.duplicateExport entry.name))
      else none

/-- The position that the entity gets. -/
def position (program : Program) : Registration → Nat
  | signature _ => program.signatures.size
  | function _ => program.functions.size
  | imported _ => program.imports.size
  | exported _ => program.exports.size

/-- The program with the entity. -/
def enter (program : Program) : Registration → Program
  | signature entry =>
      { program with
        signatures := program.signatures.push entry
        bindings := program.bindings.insert (.named entry.name)
          (.signature program.signatures.size) }
  | function func =>
      { program with
        functions := program.functions.push func
        bindings := program.bindings.insert (.named func.name)
          (.function program.functions.size) }
  | imported entry =>
      { program with
        imports := program.imports.push entry
        bindings := program.bindings.insert (.named entry.name)
          (.imported program.imports.size) }
  | exported entry =>
      { program with
        exports := program.exports.push entry
        exportIndices := program.exportIndices.insert entry.name program.exports.size }

/-- Every registration is refused without a trace, or hands out a position and adds its entity. -/
theorem step_request (registration : Registration) (program : Program) :
    registration.request.step program =
      match registration.refusal? program with
      | some failure => (.error failure, program)
      | none => (.ok (.index (registration.position program)), registration.enter program) := by
  cases registration with
  | signature entry =>
    rcases program.addSignature_cases entry with ⟨existing, bound, stops⟩ | ⟨free, goes⟩
    · simp only [refusal?, clash?, bound]
      exact Request.step_of_error rfl stops
    · simp only [refusal?, clash?, free]
      exact Request.step_of_ok rfl goes
  | function func =>
    rcases program.addFunction_cases func with ⟨existing, bound, stops⟩ |
      ⟨name, free, repeated, stops⟩ | ⟨free, distinct, goes⟩
    · simp only [refusal?, clash?, bound]
      exact Request.step_of_error rfl stops
    · simp only [refusal?, clash?, free, repeated]
      exact Request.step_of_error rfl stops
    · simp only [refusal?, clash?, free, distinct]
      exact Request.step_of_ok rfl goes
  | imported entry =>
    rcases program.addImport_cases entry with ⟨existing, bound, stops⟩ | ⟨free, goes⟩
    · simp only [refusal?, clash?, bound]
      exact Request.step_of_error rfl stops
    · simp only [refusal?, clash?, free]
      exact Request.step_of_ok rfl goes
  | exported entry =>
    rcases program.addExport_cases entry with ⟨taken, stops⟩ | ⟨free, goes⟩
    · simp only [refusal?, if_pos taken]
      exact Request.step_of_error rfl stops
    · simp only [refusal?, if_neg free]
      exact Request.step_of_ok rfl goes

theorem clash?_of_insert {before after : Program} {name bound : Name} {entity : Entity}
    (grown : after.bindings = before.bindings.insert (.named bound) entity)
    (other : name ≠ bound) : clash? after name = clash? before name := by
  rw [clash?, clash?, grown, Std.ExtTreeMap.getElem?_insert, if_neg (by simpa using other.symm)]

/-! ## Two registrations -/

/-- Registrations of different kinds, under different names if both bind theirs. -/
structure Apart (first second : Registration) : Prop where
  kinds : first.kind? ≠ second.kind?
  names : first.kind? ≠ none → second.kind? ≠ none → first.name ≠ second.name

namespace Apart

variable {first second : Registration}

theorem symm (apart : first.Apart second) : second.Apart first where
  kinds := apart.kinds.symm
  names binds bindsToo := (apart.names bindsToo binds).symm

/-- Entities under other names do not clash, and exports clash with exports only. -/
theorem clash?_enter (apart : first.Apart second) (binds : first.kind? ≠ none)
    (program : Program) :
    clash? (second.enter program) first.name = clash? program first.name := by
  have names := apart.names binds
  cases second with
  | signature entry => exact clash?_of_insert rfl (names nofun)
  | function func => exact clash?_of_insert rfl (names nofun)
  | imported entry => exact clash?_of_insert rfl (names nofun)
  | exported entry => rfl

theorem exportIndices_enter (binds : second.kind? ≠ none) (program : Program) :
    (second.enter program).exportIndices = program.exportIndices := by
  cases second with
  | exported entry => exact absurd rfl binds
  | _ => rfl

/-- Whether a registration is refused, and why, does not depend on one that is apart. -/
theorem refusal?_enter (apart : first.Apart second) (program : Program) :
    first.refusal? (second.enter program) = first.refusal? program := by
  have clash (binds : first.kind? ≠ none) :
      clash? (second.enter program) first.name = clash? program first.name :=
    apart.clash?_enter binds program
  cases first with
  | signature entry => exact clash nofun
  | function func => exact congrArg (Option.or · _) (clash nofun)
  | imported entry => exact clash nofun
  | exported entry => simp only [refusal?, exportIndices_enter apart.kinds.symm]

/-- The position it gets is the size of a store that the other does not touch. -/
theorem position_enter (apart : first.Apart second) (program : Program) :
    first.position (second.enter program) = first.position program := by
  have kinds := apart.kinds
  cases first <;> cases second <;> first
    | rfl
    | exact absurd rfl kinds

theorem insert_comm {bindings : Std.ExtTreeMap Var Entity} {name other : Name}
    (different : name ≠ other) (entity otherEntity : Entity) :
    (bindings.insert (.named other) otherEntity).insert (.named name) entity =
      (bindings.insert (.named name) entity).insert (.named other) otherEntity := by
  apply Std.ExtTreeMap.ext_getElem?
  intro var
  simp only [Std.ExtTreeMap.getElem?_insert, Std.LawfulEqCmp.compare_eq_iff_eq]
  by_cases here : Var.named name = var
  · subst here
    simp [different.symm]
  · simp [here]

/-- The stores are different, and under different names the bindings are the same in the end. -/
theorem enter_comm (apart : first.Apart second) (program : Program) :
    first.enter (second.enter program) = second.enter (first.enter program) := by
  obtain ⟨kinds, names⟩ := apart
  cases first <;> cases second <;> first
    | exact absurd rfl kinds
    | rfl
    | (simp only [enter]
       congr 1
       exact insert_comm (names nofun nofun) _ _)

end Apart

/-! ## Two calls in either order -/

variable {first second : Registration} {program : Program}

/-- What a registration gives back does not change by another that is carried out before it. -/
theorem outcome_of_apart (apart : first.Apart second) (program : Program) :
    (first.request.step (second.request.step program).2).1 = (first.request.step program).1 := by
  rw [second.step_request program]
  cases second.refusal? program with
  | some failure => rfl
  | none =>
    rw [first.step_request, first.step_request, apart.refusal?_enter, apart.position_enter]
    cases first.refusal? program <;> rfl

/-- Neither does what the two together make of the program, by their order. -/
theorem step_comm (apart : first.Apart second) (program : Program) :
    (first.request.step (second.request.step program).2).2 =
      (second.request.step (first.request.step program).2).2 := by
  cases refused : first.refusal? program <;> cases refusedToo : second.refusal? program <;>
    simp [step_request, refused, refusedToo, apart.refusal?_enter, apart.symm.refusal?_enter,
      apart.enter_comm]

/-- **Registrations of different kinds commute.**  In any program, two registrations of different
kinds give back the same whichever is carried out first, an entity's position or the reason of
a refusal, and leave the same program.  Their names have to be different unless one of them
registers an export. -/
theorem registrations_commute (apart : first.Apart second) (program : Program) :
    ∃ last,
      Request.run [first.request, second.request] program =
        ([(first.request.step program).1, (second.request.step program).1], last) ∧
      Request.run [second.request, first.request] program =
        ([(second.request.step program).1, (first.request.step program).1], last) := by
  refine ⟨(second.request.step (first.request.step program).2).2, ?_, ?_⟩
  · simp only [Request.run, outcome_of_apart apart.symm]
  · simp only [Request.run, outcome_of_apart apart, step_comm apart]

/-- A signature whose name a function has, and an export under that same name: the first is
refused and the second is not, in either order. -/
theorem registrations_commute_of_shared_name :
    let program := Program.empty.after [.addFunction ⟨⟨0⟩, .void, [], [], none⟩]
    let entry : Registration := .signature ⟨⟨0⟩, .i32, []⟩
    let exported : Registration := .exported ⟨⟨0⟩, .named ⟨0⟩⟩
    entry.Apart exported ∧
    ∃ last,
      Request.run [entry.request, exported.request] program =
        ([.error (.register (.alreadyBound (.named ⟨0⟩) .function)), .ok (.index 0)], last) ∧
      Request.run [exported.request, entry.request] program =
        ([.ok (.index 0), .error (.register (.alreadyBound (.named ⟨0⟩) .function))], last) := by
  intro program entry exported
  have apart : entry.Apart exported := ⟨by decide, by decide⟩
  have refused : (entry.request.step program).1 =
      .error (.register (.alreadyBound (.named ⟨0⟩) .function)) := by decide +kernel
  have accepted : (exported.request.step program).1 = .ok (.index 0) := by decide +kernel
  have both := registrations_commute apart program
  rw [refused, accepted] at both
  exact ⟨apart, both⟩

end Registration

end TreeIR
