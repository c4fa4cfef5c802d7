/-
# TreeIR.Proofs.Bindings -- the bindings are the history of what was bound

`Call.bound` reads off a call what it says it bound: a registration binds the name of
its entity to the position it gives back, `bind` binds its var, and registering a node
binds the labels the node declares at that moment.  A call that fails binds nothing.

`Grown` relates the bindings before and after: the new ones are the old ones with some
pairs added, none of them for a var that was bound or is unset, and no var twice.  One
call grows the bindings by what it bound (`grown_step`), growth composes, so a run grows
them by everything its calls bound (`grown_after`).  A created program has no bindings
at all, which makes its bindings after a run the record of the run.
-/
import TreeIR.Proofs.Run

namespace TreeIR

set_option autoImplicit false

/-! ## What a call binds -/

namespace Call

/-- What a call bound, by what it was asked, what it met and what it gave back. -/
def bound (call : Call) : List (Var × Entity) :=
  match call.request, call.outcome with
  | .bind var entity, .ok _ => [(var, entity)]
  | .addSignature entry, .ok (.index index) => [(.named entry.name, .signature index)]
  | .addFunction func, .ok (.index index) => [(.named func.name, .function index)]
  | .addImport entry, .ok (.index index) => [(.named entry.name, .imported index)]
  | .registerLabels id, .ok _ =>
      match call.before.node id with
      | .ok node => node.labels.map fun declared => (declared.1, .label ⟨id, declared.2⟩)
      | .error _ => []
  | _, _ => []

theorem bound_of_error {call : Call} {failure : Failure} (failed : call.outcome = .error failure) :
    call.bound = [] := by
  unfold bound
  rw [failed]
  split <;> simp_all

/-- Only a call that succeeds binds something. -/
theorem ok_of_mem_bound {call : Call} {pair : Var × Entity} (binds : pair ∈ call.bound) :
    ∃ answer, call.outcome = .ok answer := by
  cases ended : call.outcome with
  | ok answer => exact ⟨answer, rfl⟩
  | error failure =>
    rw [bound_of_error ended] at binds
    cases binds

theorem bound_of_isQuestion {call : Call} (question : call.request.isQuestion = true) :
    call.bound = [] := by
  unfold bound
  split <;> simp_all [Request.isQuestion]

end Call

/-! ## Growth -/

/-- The second bindings are the first with the added pairs, all of them for new vars. -/
structure Grown (before : Std.ExtTreeMap Var Entity) (added : List (Var × Entity))
    (after : Std.ExtTreeMap Var Entity) : Prop where
  eq : after = before.insertMany added
  set : ∀ pair ∈ added, pair.1 ≠ .unset
  free : ∀ pair ∈ added, before[pair.1]? = none
  distinct : (added.map Prod.fst).Nodup

namespace Grown

variable {before middle after : Std.ExtTreeMap Var Entity} {first second added : List (Var × Entity)}

theorem refl (bindings : Std.ExtTreeMap Var Entity) : Grown bindings [] bindings where
  eq := by simp
  set := by simp
  free := by simp
  distinct := by simp

theorem single {var : Var} (set : var ≠ .unset) (free : before[var]? = none) (entity : Entity) :
    Grown before [(var, entity)] (before.insert var entity) where
  eq := by simp
  set := by simpa using set
  free := by simpa using free
  distinct := by simp

/-- What a var stands for afterwards: what it stood for, or what was added for it. -/
theorem getElem?_eq_some_iff (grown : Grown before added after) {var : Var} {entity : Entity} :
    after[var]? = some entity ↔ before[var]? = some entity ∨ (var, entity) ∈ added := by
  rw [grown.eq]
  have apart : added.Pairwise fun a b => ¬ compare a.1 b.1 = .eq := by
    have distinct := grown.distinct
    rw [List.Nodup, List.pairwise_map] at distinct
    exact distinct.imp fun other same => other (Std.LawfulEqOrd.eq_of_compare same)
  have lookup : ∀ {entity}, (var, entity) ∈ added →
      (before.insertMany added)[var]? = some entity := fun member =>
    Std.ExtTreeMap.getElem?_insertMany_list_of_mem Std.ReflCmp.compare_self apart member
  constructor
  · intro found
    by_cases mentioned : ∃ entity, (var, entity) ∈ added
    · obtain ⟨other, member⟩ := mentioned
      have same : other = entity := Option.some.inj ((lookup member).symm.trans found)
      exact .inr (same ▸ member)
    · have absent : (added.map Prod.fst).contains var = false := by
        simpa using mentioned
      rw [Std.ExtTreeMap.getElem?_insertMany_list_of_contains_eq_false absent] at found
      exact .inl found
  · rintro (found | member)
    · have absent : (added.map Prod.fst).contains var = false := by
        have unmentioned : ∀ entity, (var, entity) ∉ added := fun entity member => by
          have free := grown.free _ member
          simp_all
        simpa using unmentioned
      rw [Std.ExtTreeMap.getElem?_insertMany_list_of_contains_eq_false absent]
      exact found
    · exact lookup member

theorem getElem?_of_some (grown : Grown before added after) {var : Var} {entity : Entity}
    (found : before[var]? = some entity) : after[var]? = some entity :=
  grown.getElem?_eq_some_iff.2 (.inl found)

/-- What nothing was added for stands for what it stood for. -/
theorem getElem?_of_notMem (grown : Grown before added after) {var : Var}
    (absent : var ∉ added.map Prod.fst) : after[var]? = before[var]? := by
  refine Option.ext fun entity => ?_
  rw [grown.getElem?_eq_some_iff]
  exact or_iff_left fun member => absent (List.mem_map_of_mem member)

/-- A var that is free afterwards was free before. -/
theorem free_before (grown : Grown before added after) {var : Var} (free : after[var]? = none) :
    before[var]? = none := by
  cases found : before[var]? with
  | none => rfl
  | some entity => rw [grown.getElem?_of_some found] at free; cases free

theorem trans (first_grown : Grown before first middle) (second_grown : Grown middle second after) :
    Grown before (first ++ second) after where
  eq := by rw [second_grown.eq, first_grown.eq, Std.ExtTreeMap.insertMany_append]
  set pair member := by
    rcases List.mem_append.1 member with early | late
    · exact first_grown.set pair early
    · exact second_grown.set pair late
  free pair member := by
    rcases List.mem_append.1 member with early | late
    · exact first_grown.free pair early
    · exact first_grown.free_before (second_grown.free pair late)
  distinct := by
    rw [List.map_append, List.nodup_append]
    refine ⟨first_grown.distinct, second_grown.distinct, ?_⟩
    rintro var inFirst other inSecond rfl
    obtain ⟨⟨_, entity⟩, early, rfl⟩ := List.mem_map.1 inFirst
    obtain ⟨pair, late, same⟩ := List.mem_map.1 inSecond
    have bound := first_grown.getElem?_eq_some_iff.2 (.inr early)
    have free := second_grown.free pair late
    rw [same, bound] at free
    cases free

/-- The labels of a node that are all free can be added together. -/
theorem labels {labels : List (Var × LabelRole)} (set : ∀ declared ∈ labels, declared.1 ≠ .unset)
    (free : ∀ declared ∈ labels, before[declared.1]? = none)
    (distinct : (labels.map Prod.fst).Nodup) (id : NodeId) :
    Grown before (Program.labelTargets id labels)
      (before.insertMany (Program.labelTargets id labels)) where
  eq := rfl
  set pair member := by
    obtain ⟨declared, declares, rfl⟩ := List.mem_map.1 member
    exact set declared declares
  free pair member := by
    obtain ⟨declared, declares, rfl⟩ := List.mem_map.1 member
    exact free declared declares
  distinct := by
    rw [Program.labelTargets, List.map_map]
    exact distinct

end Grown

/-! ## Calls and runs -/

/-- One call grows the bindings by what it bound. -/
theorem grown_step (request : Request) (program : Program) :
    Grown program.bindings (Call.make request program).bound
      (request.step program).2.bindings := by
  cases request.outcome program with
  | failed step =>
    have nothing : (Call.make request program).bound = [] :=
      Call.bound_of_error (congrArg Prod.fst step)
    rw [nothing, step]
    exact .refl _
  | stuck mints why step =>
    have nothing : (Call.make request program).bound = [] :=
      Call.bound_of_error (congrArg Prod.fst step)
    rw [nothing, step]
    exact .refl _
  | succeeded effect step =>
    rw [Call.make, step]
    cases effect with
    | asked question =>
      rw [Call.bound_of_isQuestion question]
      exact .refl _
    | bound entity set free => exact .single set free entity
    | addedSignature free => exact .single (by simp) free _
    | addedFunction free distinct => exact .single (by simp) free _
    | addedImport free => exact .single (by simp) free _
    | @registeredLabels id node found declares free distinct =>
      have declared : Call.bound ⟨.registerLabels id, program, .ok .done⟩ =
          Program.labelTargets id node.labels := by
        simp only [Call.bound, found, Program.labelTargets]
      rw [declared]
      exact .labels (fun _ => Program.set_of_mem_labels) free distinct id
    | _ => exact .refl _

/-- A run grows the bindings by everything its calls bound, in order. -/
theorem grown_after (requests : List Request) (program : Program) :
    Grown program.bindings ((Request.history requests program).flatMap Call.bound)
      (program.after requests).bindings := by
  induction requests generalizing program with
  | nil => exact .refl _
  | cons request rest ih => exact (grown_step request program).trans (ih _)

/-- Where the calls of a list bind no var twice, two bindings of one var are the same
binding of the same call. -/
theorem bound_once {calls : List Call}
    (distinct : ((calls.flatMap Call.bound).map Prod.fst).Nodup) {i j : Nat} {first second : Call}
    {var : Var} {one other : Entity} (atFirst : calls[i]? = some first)
    (atSecond : calls[j]? = some second) (bindsOne : (var, one) ∈ first.bound)
    (bindsOther : (var, other) ∈ second.bound) : i = j ∧ one = other := by
  rw [List.map_flatMap, List.nodup_flatMap] at distinct
  obtain ⟨within, across⟩ := distinct
  rw [List.pairwise_iff_getElem] at across
  obtain ⟨inside, rfl⟩ := List.getElem?_eq_some_iff.1 atFirst
  obtain ⟨inside', rfl⟩ := List.getElem?_eq_some_iff.1 atSecond
  have inOne := List.mem_map_of_mem (f := Prod.fst) bindsOne
  have inOther := List.mem_map_of_mem (f := Prod.fst) bindsOther
  rcases Nat.lt_trichotomy i j with earlier | rfl | later
  · exact absurd inOther (across i j inside inside' earlier inOne)
  · have unique := List.inj_on_of_nodup_map (within _ (List.getElem_mem inside))
    have same := unique bindsOne bindsOther rfl
    exact ⟨rfl, congrArg Prod.snd same⟩
  · exact absurd inOne (across j i inside' inside later inOther)

namespace Program

theorem resolve_eq_ok_iff {program : Program} {var : Var} {entity : Entity} :
    program.resolve var = .ok entity ↔ program.bindings[var]? = some entity := by
  unfold resolve
  split <;> simp_all

theorem resolveExport_eq_ok_iff {program : Program} {name : Name} {index : Nat} :
    program.resolveExport name = .ok index ↔ program.exportIndices[name]? = some index := by
  unfold resolveExport
  split <;> simp_all

section Typed

variable {program : Program} {var : Var} {index : Nat}

/-- A typed form resolves a var to what it stands for, if that is of its kind: if it is what
`make` makes of the value that `select` finds in it. -/
theorem resolveAs_eq_ok_iff {α : Type} {expected : EntityKind} {select : Entity → Option α}
    {make : α → Entity}
    (selects : ∀ entity target, select entity = some target ↔ make target = entity) {target : α} :
    program.resolveAs expected select var = .ok target ↔
      program.resolve var = .ok (make target) := by
  rw [resolveAs]
  cases program.resolve var with
  | error cause => simp [Bind.bind, Except.bind]
  | ok entity =>
    simp only [Bind.bind, Except.bind, Except.ok.injEq, @eq_comm _ entity, ← selects]
    cases select entity <;> simp

theorem resolveSignature_eq_ok_iff :
    program.resolveSignature var = .ok index ↔ program.resolve var = .ok (.signature index) :=
  resolveAs_eq_ok_iff fun entity index => by cases entity <;> simp [eq_comm]

theorem resolveFunction_eq_ok_iff :
    program.resolveFunction var = .ok index ↔ program.resolve var = .ok (.function index) :=
  resolveAs_eq_ok_iff fun entity index => by cases entity <;> simp [eq_comm]

theorem resolveImport_eq_ok_iff :
    program.resolveImport var = .ok index ↔ program.resolve var = .ok (.imported index) :=
  resolveAs_eq_ok_iff fun entity index => by cases entity <;> simp [eq_comm]

theorem resolveLabel_eq_ok_iff {target : LabelTarget} :
    program.resolveLabel var = .ok target ↔ program.resolve var = .ok (.label target) :=
  resolveAs_eq_ok_iff fun entity target => by cases entity <;> simp [eq_comm]

end Typed

theorem resolve_eq_error_of_free {program : Program} {var : Var}
    (free : program.bindings[var]? = none) : program.resolve var = .error (.unresolved var) := by
  unfold resolve
  rw [free]

theorem free_of_unresolved {program : Program} {var : Var}
    (unresolved : program.resolve var = .error (.unresolved var)) :
    program.bindings[var]? = none := by
  cases bound : program.bindings[var]? with
  | none => rfl
  | some entity => cases unresolved.symm.trans (resolve_eq_ok_iff.2 bound)

theorem resolve_of_getElem? {program after : Program} {var : Var}
    (same : after.bindings[var]? = program.bindings[var]?) :
    after.resolve var = program.resolve var := by
  rw [resolve, resolve, same]

theorem Created.bindings_eq {program : Program} (created : program.Created) :
    program.bindings = ∅ := by
  obtain ⟨chunkSize, rfl⟩ := created.eq_ofArena
  rfl

/-- **The bindings are the history.**  After any run from a created program a var stands
for an entity exactly if some call of the run bound it to that entity.  It is bound by at
most one call, to one entity, and stands for it in every longer run; the unset var is
never bound, and a var that no call bound is unresolved. -/
theorem resolve_iff_bound {start : Program} (created : start.Created) (requests : List Request)
    (var : Var) :
    let calls := Request.history requests start
    (∀ entity, (start.after requests).resolve var = .ok entity ↔
      ∃ call ∈ calls, (var, entity) ∈ call.bound) ∧
    (∀ (i j : Nat) (first second : Call) (one other : Entity),
      calls[i]? = some first → calls[j]? = some second →
      (var, one) ∈ first.bound → (var, other) ∈ second.bound → i = j ∧ one = other) ∧
    (∀ (later : List Request) (entity : Entity), (start.after requests).resolve var = .ok entity →
      (start.after (requests ++ later)).resolve var = .ok entity) ∧
    (∀ call ∈ calls, ∀ entity, (Var.unset, entity) ∉ call.bound) ∧
    ((∀ call ∈ calls, ∀ entity, (var, entity) ∉ call.bound) →
      (start.after requests).resolve var = .error (.unresolved var)) := by
  intro calls
  have grown := grown_after requests start
  have resolved (entity : Entity) : (start.after requests).resolve var = .ok entity ↔
      ∃ call ∈ calls, (var, entity) ∈ call.bound := by
    rw [resolve_eq_ok_iff, grown.getElem?_eq_some_iff, created.bindings_eq, List.mem_flatMap]
    exact or_iff_right (by simp)
  refine ⟨resolved, ?_, ?_, ?_, ?_⟩
  · intro i j first second one other atFirst atSecond
    exact bound_once grown.distinct atFirst atSecond
  · intro later entity found
    rw [resolve_eq_ok_iff] at found ⊢
    rw [after_append]
    exact (grown_after later (start.after requests)).getElem?_of_some found
  · intro call member entity binds
    exact grown.set _ (List.mem_flatMap.2 ⟨call, member, binds⟩) rfl
  · intro unbound
    apply resolve_eq_error_of_free
    cases found : (start.after requests).bindings[var]? with
    | none => rfl
    | some entity =>
      obtain ⟨call, member, binds⟩ := (resolved entity).1 (resolve_eq_ok_iff.2 found)
      exact absurd binds (unbound call member entity)

/-- A loop whose labels stay bound when the loop is overwritten and registering it again
has failed, next to an unset var that was refused. -/
theorem resolve_iff_bound_of_overwritten_loop :
    let target : Entity := .label ⟨⟨0⟩, .loopContinue⟩
    let requests : List Request :=
      [.build (.loop (.index 7) (.index 2) ⟨0⟩), .freshVar, .registerLabels ⟨0⟩,
        .registerLabels ⟨0⟩, .bind .unset (.function 0)]
    empty.Created ∧
    (∃ call ∈ Request.history requests empty, (Var.index 2, target) ∈ call.bound) ∧
    (empty.after (requests ++ [.setNode ⟨0⟩ .nop])).resolve (.index 2) = .ok target ∧
    (empty.after requests).resolve .unset = .error (.unresolved .unset) := by
  intro target requests
  have created : empty.Created := .inl rfl
  obtain ⟨resolved, -, keeps, -, -⟩ := resolve_iff_bound created requests (.index 2)
  obtain ⟨-, -, -, never, unresolved⟩ := resolve_iff_bound created requests .unset
  have found : (empty.after requests).resolve (.index 2) = .ok target := by decide +kernel
  exact ⟨created, (resolved target).1 found, keeps _ target found, unresolved never⟩

end Program

end TreeIR
