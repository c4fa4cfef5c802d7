/-
# TreeIR.Proofs.Effect -- everything a call can do

`Effect` lists what a call that succeeds does to the program it meets, one constructor
for each kind of change, each with the guards that its success implies.  `Stuck` lists
the two ways minting fails, and where the counter stands then.  `outcome` says that
nothing else happens: a call has an effect, or minting is stuck, or the call fails and
the program is what it was.

An invariant of programs is a case analysis over `Effect`, and a run is a sequence of
these steps.
-/
import TreeIR.Proofs.Operations

namespace TreeIR

set_option autoImplicit false

/-- Whether a request only asks; what it gives back is read off the program. -/
def Request.isQuestion : Request → Bool
  | nameText _ | resolve _ | resolveSignature _ | resolveFunction _ | resolveImport _
  | resolveLabel _ | resolveExport _ | resolveLocal _ _ | signatureText _ | signature _
  | function _ | imported _ | exported _ | nodeCount | node _ | walk _ _ => true
  | _ => false

namespace Program

/-- The change that a request which succeeds makes, and the answer that comes with it. -/
inductive Effect (program : Program) : Request → Answer → Program → Prop
  | asked {request : Request} {answer : Answer} (question : request.isQuestion = true) :
      Effect program request answer program
  | interned {text : String} {name : Name} {names : Interner}
      (made : program.names.intern text = .ok (name, names)) :
      Effect program (.intern text) (.name name) { program with names }
  | named {text : String} {name : Name} {names : Interner}
      (made : program.names.intern text = .ok (name, names)) :
      Effect program (.namedVar text) (.var (.named name)) { program with names }
  | minted {number : UInt32}
      (first : firstUnbound? program.bindings program.nextIndex = some number)
      (inRange : 0 < number ∧ number < Var.indexLimit) :
      Effect program .freshVar (.var (.index number)) { program with nextIndex := number + 1 }
  | bound {var : Var} (entity : Entity) (set : var ≠ .unset)
      (free : program.bindings[var]? = none) :
      Effect program (.bind var entity) .done
        { program with bindings := program.bindings.insert var entity }
  | addedSignature {entry : Signature} (free : program.bindings[Var.named entry.name]? = none) :
      Effect program (.addSignature entry) (.index program.signatures.size)
        { program with
          signatures := program.signatures.push entry
          bindings := program.bindings.insert (.named entry.name)
            (.signature program.signatures.size) }
  | addedFunction {func : Func} (free : program.bindings[Var.named func.name]? = none)
      (distinct : func.repeatedSlot? = none) :
      Effect program (.addFunction func) (.index program.functions.size)
        { program with
          functions := program.functions.push func
          bindings := program.bindings.insert (.named func.name)
            (.function program.functions.size) }
  | addedImport {entry : Import} (free : program.bindings[Var.named entry.name]? = none) :
      Effect program (.addImport entry) (.index program.imports.size)
        { program with
          imports := program.imports.push entry
          bindings := program.bindings.insert (.named entry.name)
            (.imported program.imports.size) }
  | addedExport {entry : Export} (free : entry.name ∉ program.exportIndices) :
      Effect program (.addExport entry) (.index program.exports.size)
        { program with
          exports := program.exports.push entry
          exportIndices := program.exportIndices.insert entry.name program.exports.size }
  | pushedTableEntry (var : Var) :
      Effect program (.pushTableEntry var) .done
        { program with table := program.table.push var }
  | registeredLabels {id : NodeId} {node : Node} (found : program.node id = .ok node)
      (declares : node.labels ≠ [])
      (free : ∀ declared ∈ node.labels, program.bindings[declared.1]? = none)
      (distinct : (node.labels.map Prod.fst).Nodup) :
      Effect program (.registerLabels id) .done
        { program with
          bindings := program.bindings.insertMany (labelTargets id node.labels) }
  | changedFunction {index : Nat} {old : Func} (found : program.function index = .ok old)
      (func : Func) :
      Effect program (.setFunction index func) .done
        { program with functions := program.functions.setIfInBounds index func }
  | changedBody {index : Nat} {old : Func} (found : program.function index = .ok old)
      (body : NodeId) :
      Effect program (.setBody index body) .done
        { program with
          functions := program.functions.setIfInBounds index { old with body := some body } }
  | built {node : Node} (kept : node.check = .ok ())
      (room : program.nodes.checkRoom = .ok ()) :
      Effect program (.build node) (.id program.nodes.next)
        { program with nodes := program.nodes.push node }
  | allocated (node : Node) (room : program.nodes.checkRoom = .ok ()) :
      Effect program (.alloc node) (.id program.nodes.next)
        { program with nodes := program.nodes.push node }
  | copied {id : NodeId} {node : Node} (found : program.node id = .ok node)
      (room : program.nodes.checkRoom = .ok ()) :
      Effect program (.copyNode id) (.id program.nodes.next)
        { program with nodes := program.nodes.push node }
  | changedNode {id : NodeId} {old : Node} (found : program.node id = .ok old) (node : Node) :
      Effect program (.setNode id node) .done
        { program with nodes := program.nodes.put id node }
  | changedChildren {id : NodeId} {old : Node} (found : program.node id = .ok old)
      (ids : List NodeId) :
      Effect program (.putChildren id ids) .done
        { program with nodes := program.nodes.put id (old.putChildren ids) }

/-- Why minting fails, and where it leaves the counter. -/
inductive Stuck (program : Program) : Failure → UInt32 → Prop
  | exhausted (none : firstUnbound? program.bindings program.nextIndex = none) :
      Stuck program (.fault .indicesExhausted) lastIndex
  | outOfRange {number : UInt32}
      (first : firstUnbound? program.bindings program.nextIndex = some number)
      (refused : ¬(0 < number ∧ number < Var.indexLimit)) :
      Stuck program (.fault (.indexOutOfRange number)) number

end Program

namespace Request

variable {request : Request} {program next : Program} {answer : Answer} {failure : Failure}

section Operation

variable {α : Type} {operation : Action α} {make : α → Answer}

/-- A request hands on the failure of its operation, with the state it left. -/
theorem step_of_error (performs : request.perform = make <$> operation)
    (stops : operation.run program = .error failure next) :
    request.step program = (.error failure, next) := by
  simp [step, performs, stops]

/-- A request wraps the value of its operation into its answer. -/
theorem step_of_ok {value : α} (performs : request.perform = make <$> operation)
    (goes : operation.run program = .ok value next) :
    request.step program = (.ok (make value), next) := by
  simp [step, performs, goes]

theorem step_of_done {operation : Action Unit}
    (performs : request.perform = do operation; return .done)
    (goes : operation.run program = .ok () next) :
    request.step program = (.ok .done, next) := by
  simp [step, performs, goes]

/-- What a question gives back is a function of the program, and the program stays. -/
theorem step_of_ask {asked : Program → Except Failure α}
    (performs : request.perform = make <$> Action.ask asked) (program : Program) :
    request.step program = ((asked program).map make, program) := by
  obtain ⟨failure, fails, stops⟩ | ⟨answer, answers, goes⟩ := Action.ask_cases asked program
  · rw [fails]
    exact step_of_error performs stops
  · rw [answers]
    exact step_of_ok performs goes

end Operation

theorem step_of_isQuestion (question : request.isQuestion = true) (program : Program) :
    (request.step program).2 = program := by
  cases request <;> first
    | exact absurd question Bool.false_ne_true
    | rfl
    | exact congrArg Prod.snd (step_of_ask rfl program)

/-- How a call ends: it fails and changes nothing, it mints and is stuck, or it succeeds
with an effect. -/
inductive Outcome (request : Request) (program : Program) : Prop
  | failed {failure : Failure} (step : request.step program = (.error failure, program))
  | stuck {failure : Failure} {counter : UInt32} (mints : request = .freshVar)
      (why : program.Stuck failure counter)
      (step : request.step program = (.error failure, { program with nextIndex := counter }))
  | succeeded {answer : Answer} {next : Program} (effect : program.Effect request answer next)
      (step : request.step program = (.ok answer, next))

theorem Outcome.of_isQuestion (question : request.isQuestion = true) (program : Program) :
    request.Outcome program := by
  have unchanged := step_of_isQuestion question program
  cases came : (request.step program).1 with
  | error failure => exact .failed (Prod.ext came unchanged)
  | ok answer => exact .succeeded (.asked question) (Prod.ext came unchanged)

/-- **All that can happen**, in any program whatever: the cases of `Outcome`. -/
theorem outcome (request : Request) (program : Program) : request.Outcome program := by
  by_cases question : request.isQuestion = true
  · exact .of_isQuestion question program
  cases request with
  | intern text =>
    obtain ⟨cause, -, stops⟩ | ⟨name, names, made, goes⟩ := program.intern_cases text
    · exact .failed (step_of_error rfl stops)
    · exact .succeeded (.interned made) (step_of_ok rfl goes)
  | namedVar text =>
    obtain ⟨cause, -, stops⟩ | ⟨name, names, made, goes⟩ := program.intern_cases text
    · exact .failed (by simp [step, perform, Program.namedVar, stops]; rfl)
    · exact .succeeded (.named made) (by simp [step, perform, Program.namedVar, goes])
  | freshVar =>
    obtain ⟨none, stops⟩ | ⟨number, first, refused, stops⟩ | ⟨number, first, inRange, goes⟩ :=
      program.freshVar_cases
    · exact .stuck rfl (.exhausted none) (step_of_error rfl stops)
    · exact .stuck rfl (.outOfRange first refused) (step_of_error rfl stops)
    · exact .succeeded (.minted first inRange) (step_of_ok rfl goes)
  | bind var entity =>
    obtain ⟨-, stops⟩ | ⟨existing, -, stops⟩ | ⟨set, free, goes⟩ := program.bind_cases var entity
    · exact .failed (step_of_error rfl stops)
    · exact .failed (step_of_error rfl stops)
    · exact .succeeded (.bound entity set free) (step_of_done rfl goes)
  | addSignature entry =>
    obtain ⟨existing, -, stops⟩ | ⟨free, goes⟩ := program.addSignature_cases entry
    · exact .failed (step_of_error rfl stops)
    · exact .succeeded (.addedSignature free) (step_of_ok rfl goes)
  | addFunction func =>
    obtain ⟨existing, -, stops⟩ | ⟨name, -, -, stops⟩ | ⟨free, distinct, goes⟩ :=
      program.addFunction_cases func
    · exact .failed (step_of_error rfl stops)
    · exact .failed (step_of_error rfl stops)
    · exact .succeeded (.addedFunction free distinct) (step_of_ok rfl goes)
  | addImport entry =>
    obtain ⟨existing, -, stops⟩ | ⟨free, goes⟩ := program.addImport_cases entry
    · exact .failed (step_of_error rfl stops)
    · exact .succeeded (.addedImport free) (step_of_ok rfl goes)
  | addExport entry =>
    obtain ⟨-, stops⟩ | ⟨free, goes⟩ := program.addExport_cases entry
    · exact .failed (step_of_error rfl stops)
    · exact .succeeded (.addedExport free) (step_of_ok rfl goes)
  | pushTableEntry var =>
    exact .succeeded (.pushedTableEntry var) (step_of_done rfl rfl)
  | registerLabels id =>
    obtain ⟨failure, stops⟩ | ⟨node, found, declares, free, distinct, goes⟩ :=
      program.registerLabels_cases id
    · exact .failed (step_of_error rfl stops)
    · exact .succeeded (.registeredLabels found declares free distinct) (step_of_done rfl goes)
  | setFunction index func =>
    obtain ⟨cause, -, stops⟩ | ⟨old, found, goes⟩ := program.setFunction_cases index func
    · exact .failed (step_of_error rfl stops)
    · exact .succeeded (.changedFunction found func) (step_of_done rfl goes)
  | setBody index body =>
    obtain ⟨cause, -, stops⟩ | ⟨old, found, goes⟩ := program.setBody_cases index body
    · exact .failed (step_of_error rfl stops)
    · exact .succeeded (.changedBody found body) (step_of_done rfl goes)
  | build node =>
    obtain ⟨cause, -, stops⟩ | ⟨cause, -, -, stops⟩ | ⟨kept, room, goes⟩ :=
      (Program.builds_build node).cases program
    · exact .failed (step_of_error rfl stops)
    · exact .failed (step_of_error rfl stops)
    · exact .succeeded (.built kept room) (step_of_ok rfl goes)
  | alloc node =>
    obtain ⟨cause, -, stops⟩ | ⟨room, goes⟩ := program.alloc_cases node
    · exact .failed (step_of_error rfl stops)
    · exact .succeeded (.allocated node room) (step_of_ok rfl goes)
  | copyNode id =>
    obtain ⟨cause, stops⟩ | ⟨node, found, room, goes⟩ := program.copyNode_cases id
    · exact .failed (step_of_error rfl stops)
    · exact .succeeded (.copied found room) (step_of_ok rfl goes)
  | setNode id node =>
    obtain ⟨cause, -, stops⟩ | ⟨old, found, goes⟩ := program.setNode_cases id node
    · exact .failed (step_of_error rfl stops)
    · exact .succeeded (.changedNode found node) (step_of_done rfl goes)
  | putChildren id ids =>
    obtain ⟨cause, -, stops⟩ | ⟨old, found, goes⟩ := program.putChildren_cases id ids
    · exact .failed (step_of_error rfl stops)
    · exact .succeeded (.changedChildren found ids) (step_of_done rfl goes)
  | _ => exact absurd rfl question

/-- What a call that succeeds did is one of the effects. -/
theorem effect_of_ok (succeeds : (request.step program).1 = .ok answer) :
    ∃ next, program.Effect request answer next ∧ request.step program = (.ok answer, next) := by
  cases request.outcome program with
  | failed step => cases (congrArg Prod.fst step).symm.trans succeeds
  | stuck mints why step => cases (congrArg Prod.fst step).symm.trans succeeds
  | succeeded effect step =>
    cases (congrArg Prod.fst step).symm.trans succeeds
    exact ⟨_, effect, step⟩

end Request

namespace Program

/-! ## Stuck minting -/

variable {program : Program} {failure : Failure} {counter : UInt32}

theorem Stuck.le (stuck : program.Stuck failure counter) : program.nextIndex ≤ counter := by
  cases stuck with
  | exhausted none => exact le_lastIndex _
  | outOfRange first refused => exact (firstUnbound?_eq_some first).1

/-- A failed attempt passes bound indices only. -/
theorem Stuck.passed (stuck : program.Stuck failure counter) {index : UInt32}
    (lower : program.nextIndex ≤ index) (upper : index < counter) :
    Var.index index ∈ program.bindings := by
  cases stuck with
  | exhausted none => exact firstUnbound?_eq_none none index lower
  | outOfRange first refused => exact (firstUnbound?_eq_some first).2.2 index lower upper

/-- From where a failed attempt stopped the next one fails at once. -/
theorem Stuck.again (stuck : program.Stuck failure counter) :
    Request.freshVar.step { program with nextIndex := counter } =
      (.error failure, { program with nextIndex := counter }) := by
  cases stuck with
  | exhausted none =>
    have last := firstUnbound?_eq_none none lastIndex (le_lastIndex _)
    have here : firstUnbound? program.bindings lastIndex = .none := by
      rw [firstUnbound?, if_pos last, if_neg (UInt32.lt_irrefl _)]
    obtain ⟨-, stops⟩ | ⟨number, first, -, -⟩ | ⟨number, first, -, -⟩ :=
      freshVar_cases { program with nextIndex := lastIndex }
    · exact Request.step_of_error rfl stops
    · exact absurd (here.symm.trans first) (by simp)
    · exact absurd (here.symm.trans first) (by simp)
  | outOfRange first refused =>
    have here := firstUnbound?_of_notMem (firstUnbound?_eq_some first).2.1
    obtain ⟨none, -⟩ | ⟨number, found, -, stops⟩ | ⟨number, found, inRange, -⟩ :=
      freshVar_cases { program with nextIndex := counter }
    · exact absurd (here.symm.trans none) (by simp)
    · cases here.symm.trans found
      exact Request.step_of_error rfl stops
    · cases here.symm.trans found
      exact absurd inRange refused

end Program

end TreeIR
