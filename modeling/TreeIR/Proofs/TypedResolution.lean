/-
# TreeIR.Proofs.TypedResolution -- the typed forms agree on what a var is bound to

There is a typed form of `resolve` for each kind of entity.  `resolveKind` lines the four up by the
kind they ask for, and one equation covers all pairs of a kind asked for and a kind found
(`resolveKind_of_ok`): the form whose kind is found hands the entity on, the others name their own
kind and the one that is found, and where `resolve` finds nothing they fail as it does.

A registration that is refused because a var is bound names a kind, too.  It reads that off the
bindings, as the resolvers do, with one exception: a label that a node repeats is reported as a
label, but then it is not bound.  So of a var that is bound all speak alike
(`kind_of_alreadyBound`).
-/
import TreeIR.Proofs.Clashes

namespace TreeIR

set_option autoImplicit false

namespace Program

variable {program : Program} {var : Var} {entity : Entity}

/-! ## The four resolvers -/

/-- The typed form for a kind, with its answer as an entity again. -/
def resolveKind (program : Program) (var : Var) : EntityKind → Except ResolveError Entity
  | .signature => (program.resolveSignature var).map .signature
  | .function => (program.resolveFunction var).map .function
  | .imported => (program.resolveImport var).map .imported
  | .label => (program.resolveLabel var).map .label

/-- The form of the entity's own kind hands it on, and each other names both kinds. -/
theorem resolveKind_of_ok (resolved : program.resolve var = .ok entity) (kind : EntityKind) :
    program.resolveKind var kind =
      if kind = entity.kind then .ok entity
      else .error (.unexpectedKind var kind entity.kind) := by
  cases kind <;>
    simp only [resolveKind, resolveSignature, resolveFunction, resolveImport, resolveLabel,
      resolveAs, resolved] <;>
    cases entity <;> rfl

/-- What does not resolve at all is not of another kind. -/
theorem resolveKind_of_error {cause : ResolveError}
    (unresolved : program.resolve var = .error cause) (kind : EntityKind) :
    program.resolveKind var kind = .error cause := by
  cases kind <;>
    simp only [resolveKind, resolveSignature, resolveFunction, resolveImport, resolveLabel,
      resolveAs, unresolved] <;>
    rfl

/-- There is only one way not to resolve. -/
theorem eq_unresolved_of_error {cause : ResolveError}
    (unresolved : program.resolve var = .error cause) : cause = .unresolved var := by
  unfold resolve at unresolved
  split at unresolved
  · cases unresolved
  · cases unresolved
    rfl

end Program

/-! ## Registrations that are refused -/

namespace Request

open Program

variable {request : Request} {program : Program} {var : Var} {entity : Entity}
  {named : EntityKind}

/-- Whether a request binds vars. -/
def binds : Request → Bool
  | bind _ _ | addSignature _ | addFunction _ | addImport _ | registerLabels _ => true
  | _ => false

/-- A refusal that goes by the bindings names the kind that is found there. -/
theorem kind_of_refused {taken : Var} {existing : Entity}
    (found : program.bindings[taken]? = some existing)
    (stops : (request.step program).1 = .error (.register (.alreadyBound taken existing.kind)))
    (resolved : program.resolve var = .ok entity)
    (refused : (request.step program).1 = .error (.register (.alreadyBound var named))) :
    named = entity.kind := by
  cases stops.symm.trans refused
  cases found.symm.trans (resolve_eq_ok_iff.1 resolved)
  rfl

/-- Of a node's labels the first that clashes is reported.  If it is only repeated it is reported
as a label, but then it is not bound. -/
theorem kind_of_refused_labels {id : NodeId} (resolved : program.resolve var = .ok entity)
    (refused : ((registerLabels id).step program).1 =
      .error (.register (.alreadyBound var named))) : named = entity.kind := by
  cases found : program.node id with
  | error cause =>
    have stops : (registerLabels id).step program = (.error (.fault cause), program) := by
      apply step_of_error rfl
      simp [Program.registerLabels, Action.ask, found, Except.mapError]
      rfl
    cases (congrArg Prod.fst stops).symm.trans refused
  | ok node =>
    by_cases clashes : ∃ position, program.ClashesAt node.labels position
    · obtain ⟨position, first⟩ := exists_first_clash clashes
      obtain ⟨⟨label, role⟩, here⟩ : ∃ declared, node.labels[position]? = some declared :=
        ⟨_, List.getElem?_eq_getElem first.1.lt_length⟩
      obtain ⟨bound, repeated⟩ := registerLabels_of_first found first here
      cases resolves : program.resolve label with
      | ok existing =>
        have stops := congrArg Prod.fst (bound existing resolves)
        exact kind_of_refused (resolve_eq_ok_iff.1 resolves) stops resolved refused
      | error cause =>
        cases eq_unresolved_of_error resolves
        cases (congrArg Prod.fst (repeated resolves)).symm.trans refused
        cases resolves.symm.trans resolved
    · by_cases bare : node.labels = []
      · have stops := registerLabels_of_bare found bare
        cases (congrArg Prod.fst stops).symm.trans refused
      · obtain ⟨after, goes, -⟩ := registerLabels_of_clear found bare (not_exists.1 clashes)
        cases (congrArg Prod.fst goes).symm.trans refused

/-- Whatever registration is refused because a var is bound, it names the kind of what the var is
bound to. -/
theorem kind_of_alreadyBound (registers : request.binds = true)
    (resolved : program.resolve var = .ok entity)
    (refused : (request.step program).1 = .error (.register (.alreadyBound var named))) :
    named = entity.kind := by
  cases request with
  | bind other entry =>
    obtain ⟨-, stops⟩ | ⟨existing, found, stops⟩ | ⟨-, -, goes⟩ := program.bind_cases other entry
    · cases (congrArg Prod.fst (step_of_error rfl stops)).symm.trans refused
    · exact kind_of_refused found (congrArg Prod.fst (step_of_error rfl stops)) resolved refused
    · cases (congrArg Prod.fst (step_of_done rfl goes)).symm.trans refused
  | addSignature entry =>
    obtain ⟨existing, found, stops⟩ | ⟨-, goes⟩ := program.addSignature_cases entry
    · exact kind_of_refused found (congrArg Prod.fst (step_of_error rfl stops)) resolved refused
    · cases (congrArg Prod.fst (step_of_ok rfl goes)).symm.trans refused
  | addFunction func =>
    obtain ⟨existing, found, stops⟩ | ⟨_, -, -, stops⟩ | ⟨-, -, goes⟩ :=
      program.addFunction_cases func
    · exact kind_of_refused found (congrArg Prod.fst (step_of_error rfl stops)) resolved refused
    · cases (congrArg Prod.fst (step_of_error rfl stops)).symm.trans refused
    · cases (congrArg Prod.fst (step_of_ok rfl goes)).symm.trans refused
  | addImport entry =>
    obtain ⟨existing, found, stops⟩ | ⟨-, goes⟩ := program.addImport_cases entry
    · exact kind_of_refused found (congrArg Prod.fst (step_of_error rfl stops)) resolved refused
    · cases (congrArg Prod.fst (step_of_ok rfl goes)).symm.trans refused
  | registerLabels id => exact kind_of_refused_labels resolved refused
  | _ => exact absurd registers Bool.false_ne_true

end Request

namespace Program

/-- **Resolving by kind says what resolving says**, in any program and for any var.  Of a var that
resolves, exactly the form of the entity's kind hands over the entity, and every other form fails
with the var, its own kind and the kind that was found.  If a registration is refused because this
var is bound, the kind it names is the one that these forms find.  Of a var that does not resolve
all forms say just that. -/
theorem typed_resolution_agrees (program : Program) (var : Var) :
    (∀ entity, program.resolve var = .ok entity →
      (∀ kind, program.resolveKind var kind =
        if kind = entity.kind then .ok entity
        else .error (.unexpectedKind var kind entity.kind)) ∧
      ∀ (request : Request) (named : EntityKind), request.binds = true →
        (request.step program).1 = .error (.register (.alreadyBound var named)) →
        program.resolveKind var named = .ok entity ∧
          ∀ kind, kind ≠ named →
            program.resolveKind var kind = .error (.unexpectedKind var kind named)) ∧
    ∀ cause, program.resolve var = .error cause →
      cause = .unresolved var ∧
        ∀ kind, program.resolveKind var kind = .error (.unresolved var) := by
  constructor
  · intro entity resolved
    have typed := resolveKind_of_ok resolved
    refine ⟨typed, fun request named registers refused => ?_⟩
    obtain rfl := Request.kind_of_alreadyBound registers resolved refused
    exact ⟨(typed _).trans (if_pos rfl), fun kind other => (typed kind).trans (if_neg other)⟩
  · intro cause unresolved
    obtain rfl := eq_unresolved_of_error unresolved
    exact ⟨rfl, resolveKind_of_error unresolved⟩

/-- A var that a loop has bound, which a marker is refused for, and a var that nothing has
bound. -/
theorem typed_resolution_agrees_of_loop :
    let loop : Node := .loop (.index 7) (.index 8) ⟨0⟩
    let program := empty.after
      [.build .nop, .build loop, .registerLabels ⟨1⟩, .build (.marker (.index 8))]
    program.resolve (.index 8) = .ok (.label ⟨⟨1⟩, .loopContinue⟩) ∧
    program.resolveLabel (.index 8) = .ok ⟨⟨1⟩, .loopContinue⟩ ∧
    ((Request.registerLabels ⟨2⟩).step program).1 =
      .error (.register (.alreadyBound (.index 8) .label)) ∧
    program.resolveKind (.index 8) .function =
      .error (.unexpectedKind (.index 8) .function .label) ∧
    program.resolveKind (.index 9) .label = .error (.unresolved (.index 9)) := by
  intro loop program
  have bound : program.resolve (.index 8) = .ok (.label ⟨⟨1⟩, .loopContinue⟩) := by decide +kernel
  have free : program.resolve (.index 9) = .error (.unresolved (.index 9)) := by decide +kernel
  have refused : ((Request.registerLabels ⟨2⟩).step program).1 =
      .error (.register (.alreadyBound (.index 8) .label)) := by decide +kernel
  obtain ⟨typed, refusals⟩ := (typed_resolution_agrees program (.index 8)).1 _ bound
  obtain ⟨-, others⟩ := refusals (.registerLabels ⟨2⟩) .label rfl refused
  obtain ⟨-, unresolved⟩ := (typed_resolution_agrees program (.index 9)).2 _ free
  exact ⟨bound, resolveLabel_eq_ok_iff.2 bound, refused, others .function (by decide),
    unresolved .label⟩

end Program

end TreeIR
