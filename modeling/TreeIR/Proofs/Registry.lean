/-
# TreeIR.Proofs.Registry -- stores and bindings agree, both ways

A registered entity lives in a store and is found through the bindings.

What a var stands for is there (`Backed`).  No call takes anything out of a store
(`has_step`), and whatever a registration binds it has just stored; only `bind` takes an
entity on trust, so it has to be called with one that is there.

What is in a store is found under its name.  The stores are the record of the
registrations, in order, each with the position it got (`filed_after`); a registration
binds the name to that position, and no binding is ever lost (`resolve_of_registered`).
A function can be exchanged in its store, so for functions it is the record and not the
store that knows the name.
-/
import TreeIR.Proofs.Bindings
import TreeIR.Proofs.NodeStore

namespace TreeIR

set_option autoImplicit false

/-! ## Entities that are there -/

namespace Program

/-- The entity is there: what it stands for can be had from the program. -/
def Has (program : Program) : Entity → Prop
  | .signature index => ∃ entry, program.signature index = .ok entry
  | .function index => ∃ func, program.function index = .ok func
  | .imported index => ∃ entry, program.imported index = .ok entry
  | .label target => ∃ node, program.node target.node = .ok node

theorem entry_eq_ok_iff {α : Type} {entries : Array α} {index : Nat} {value : α} :
    entry entries index = .ok value ↔ entries[index]? = some value := by
  unfold entry
  split <;> simp_all

theorem exists_entry_iff {α : Type} {entries : Array α} {index : Nat} :
    (∃ value, entry entries index = .ok value) ↔ index < entries.size := by
  simp only [entry_eq_ok_iff, ← Option.isSome_iff_exists, isSome_getElem?]

end Program

/-! ## What is registered -/

namespace Request

/-- The signature that a request registers if it succeeds. -/
def newSignature? : Request → Option Signature
  | addSignature entry => some entry
  | _ => none

/-- The function that a request registers if it succeeds. -/
def newFunction? : Request → Option Func
  | addFunction func => some func
  | _ => none

/-- The import that a request registers if it succeeds. -/
def newImport? : Request → Option Import
  | addImport entry => some entry
  | _ => none

end Request

namespace Call

variable {α : Type} {call : Call} {new? : Request → Option α}

/-- What a call registered of one kind of entry, with the position it got. -/
def added (new? : Request → Option α) (call : Call) : List (α × Nat) :=
  match new? call.request, call.outcome with
  | some entry, .ok (.index index) => [(entry, index)]
  | _, _ => []

theorem added_of_none (other : new? call.request = none) : call.added new? = [] := by
  rw [added, other]

theorem added_of_error {failure : Failure} (failed : call.outcome = .error failure) :
    call.added new? = [] := by
  rw [added, failed]
  cases new? call.request <;> rfl

theorem mem_added_iff {entry : α} {index : Nat} :
    (entry, index) ∈ call.added new? ↔
      new? call.request = some entry ∧ call.outcome = .ok (.index index) := by
  unfold added
  split <;> simp_all [eq_comm]

end Call

/-- What a run registered of one kind of entry, in order. -/
def Request.registered {α : Type} (new? : Request → Option α) (requests : List Request)
    (program : Program) : List (α × Nat) :=
  (history requests program).flatMap (Call.added new?)

/-! ## The stores are the record -/

open Request (newSignature? newFunction? newImport? registered)

/-- A call that registers no entry of any kind. -/
def Call.RegistersNothing (call : Call) : Prop :=
  call.added newSignature? = [] ∧ call.added newFunction? = [] ∧ call.added newImport? = []

theorem Call.registersNothing_of_error {call : Call} {failure : Failure}
    (failed : call.outcome = .error failure) : call.RegistersNothing :=
  ⟨added_of_error failed, added_of_error failed, added_of_error failed⟩

theorem Call.registersNothing_of_isQuestion {call : Call}
    (question : call.request.isQuestion = true) : call.RegistersNothing := by
  obtain ⟨request, before, outcome⟩ := call
  cases request <;> first
    | exact absurd question Bool.false_ne_true
    | exact ⟨added_of_none rfl, added_of_none rfl, added_of_none rfl⟩

/-- What a call registers goes to the end of its store.  A function can be exchanged, so for
functions it is the positions that say this. -/
structure Filed (before : Program) (call : Call) (after : Program) : Prop where
  signatures : after.signatures.toList.zipIdx =
    before.signatures.toList.zipIdx ++ call.added newSignature?
  functions : List.range after.functions.size =
    List.range before.functions.size ++ (call.added newFunction?).map Prod.snd
  imports : after.imports.toList.zipIdx =
    before.imports.toList.zipIdx ++ call.added newImport?

namespace Filed

variable {before after : Program} {call : Call}

theorem of_nothing (nothing : call.RegistersNothing)
    (signatures : after.signatures = before.signatures)
    (functions : after.functions.size = before.functions.size)
    (imports : after.imports = before.imports) : Filed before call after where
  signatures := by rw [signatures, nothing.1, List.append_nil]
  functions := by rw [functions, nothing.2.1, List.map_nil, List.append_nil]
  imports := by rw [imports, nothing.2.2, List.append_nil]

/-- No store gets shorter. -/
theorem sizes_le (filed : Filed before call after) :
    before.signatures.size ≤ after.signatures.size ∧
    before.functions.size ≤ after.functions.size ∧
    before.imports.size ≤ after.imports.size := by
  have signatures := congrArg List.length filed.signatures
  have functions := congrArg List.length filed.functions
  have imports := congrArg List.length filed.imports
  simp only [List.length_append, List.length_zipIdx, List.length_range, Array.length_toList]
    at signatures functions imports
  omega

end Filed

theorem filed_step (request : Request) (program : Program) :
    Filed program (.make request program) (request.step program).2 := by
  cases request.outcome program with
  | failed step =>
    have nothing : (Call.make request program).RegistersNothing :=
      Call.registersNothing_of_error (congrArg Prod.fst step)
    rw [step]
    exact .of_nothing nothing rfl rfl rfl
  | stuck mints why step =>
    have nothing : (Call.make request program).RegistersNothing :=
      Call.registersNothing_of_error (congrArg Prod.fst step)
    rw [step]
    exact .of_nothing nothing rfl rfl rfl
  | succeeded effect step =>
    rw [Call.make, step]
    cases effect with
    | asked question => exact .of_nothing (Call.registersNothing_of_isQuestion question) rfl rfl rfl
    | addedSignature free =>
      refine ⟨?_, (List.append_nil _).symm, (List.append_nil _).symm⟩
      rw [Array.toList_push, List.zipIdx_append, Array.length_toList, Nat.zero_add]
      rfl
    | addedFunction free distinct =>
      refine ⟨(List.append_nil _).symm, ?_, (List.append_nil _).symm⟩
      rw [Array.size_push, List.range_succ]
      rfl
    | addedImport free =>
      refine ⟨(List.append_nil _).symm, (List.append_nil _).symm, ?_⟩
      rw [Array.toList_push, List.zipIdx_append, Array.length_toList, Nat.zero_add]
      rfl
    | changedFunction found func =>
      exact .of_nothing ⟨rfl, rfl, rfl⟩ rfl Array.size_setIfInBounds rfl
    | changedBody found body =>
      exact .of_nothing ⟨rfl, rfl, rfl⟩ rfl Array.size_setIfInBounds rfl
    | _ => exact .of_nothing ⟨rfl, rfl, rfl⟩ rfl rfl rfl

/-- From a created program on, the stores are the record of what was registered: the
signatures and the imports themselves, the functions by their positions. -/
theorem filed_after {start : Program} (created : start.Created) (requests : List Request) :
    (start.after requests).signatures.toList.zipIdx = registered newSignature? requests start ∧
    List.range (start.after requests).functions.size =
      (registered newFunction? requests start).map Prod.snd ∧
    (start.after requests).imports.toList.zipIdx = registered newImport? requests start := by
  obtain ⟨chunkSize, rfl⟩ := created.eq_ofArena
  refine ⟨?_, ?_, ?_⟩
  · exact Program.after_eq_append (fun program => program.signatures.toList.zipIdx) _
      (fun request program => (filed_step request program).signatures) requests _
  · rw [registered, List.map_flatMap]
    exact Program.after_eq_append (fun program => List.range program.functions.size) _
      (fun request program => (filed_step request program).functions) requests _
  · exact Program.after_eq_append (fun program => program.imports.toList.zipIdx) _
      (fun request program => (filed_step request program).imports) requests _

/-! ## What is in a store is found -/

section Found

variable {start : Program} {requests : List Request} {index : Nat}

theorem Call.bound_of_added_signature {call : Call} {entry : Signature}
    (added : (entry, index) ∈ call.added newSignature?) :
    (.named entry.name, .signature index) ∈ call.bound := by
  obtain ⟨asks, answers⟩ := mem_added_iff.1 added
  unfold newSignature? at asks
  split at asks <;> cases asks
  rename_i asks
  simp [bound, asks, answers]

theorem Call.bound_of_added_function {call : Call} {func : Func}
    (added : (func, index) ∈ call.added newFunction?) :
    (.named func.name, .function index) ∈ call.bound := by
  obtain ⟨asks, answers⟩ := mem_added_iff.1 added
  unfold newFunction? at asks
  split at asks <;> cases asks
  rename_i asks
  simp [bound, asks, answers]

theorem Call.bound_of_added_import {call : Call} {entry : Import}
    (added : (entry, index) ∈ call.added newImport?) :
    (.named entry.name, .imported index) ∈ call.bound := by
  obtain ⟨asks, answers⟩ := mem_added_iff.1 added
  unfold newImport? at asks
  split at asks <;> cases asks
  rename_i asks
  simp [bound, asks, answers]

/-- What a call of the run registered is found under its name at the end of the run. -/
theorem resolve_of_registered {α : Type} {new? : Request → Option α} {name : α → Name}
    {entity : Nat → Entity}
    (binds : ∀ {call : Call} {entry : α} {index : Nat}, (entry, index) ∈ call.added new? →
      (.named (name entry), entity index) ∈ call.bound)
    {entry : α} (member : (entry, index) ∈ registered new? requests start) :
    (start.after requests).resolve (.named (name entry)) = .ok (entity index) := by
  obtain ⟨call, called, added⟩ := List.mem_flatMap.1 member
  rw [Program.resolve_eq_ok_iff, (grown_after requests start).getElem?_eq_some_iff]
  exact .inr (List.mem_flatMap.2 ⟨call, called, binds added⟩)

/-- Where a store is the record, what it holds is found under its name. -/
theorem resolve_of_stored {α : Type} {new? : Request → Option α} {name : α → Name}
    {entity : Nat → Entity}
    (binds : ∀ {call : Call} {entry : α} {index : Nat}, (entry, index) ∈ call.added new? →
      (.named (name entry), entity index) ∈ call.bound)
    {store : Array α} (record : store.toList.zipIdx = registered new? requests start) {entry : α}
    (stored : Program.entry store index = .ok entry) :
    (start.after requests).resolve (.named (name entry)) = .ok (entity index) := by
  apply resolve_of_registered binds
  rw [← record, List.mk_mem_zipIdx_iff_getElem?, Array.getElem?_toList]
  exact Program.entry_eq_ok_iff.1 stored

/-- For functions only the position is sure. -/
theorem resolve_of_function (record : List.range (start.after requests).functions.size =
      (registered newFunction? requests start).map Prod.snd) {func : Func}
    (stored : (start.after requests).function index = .ok func) :
    ∃ added, (registered newFunction? requests start)[index]? = some (added, index) ∧
      (start.after requests).resolve (.named added.name) = .ok (.function index) := by
  have position := List.getElem?_range (Program.exists_entry_iff.1 ⟨func, stored⟩)
  rw [record, List.getElem?_map] at position
  obtain ⟨⟨added, same⟩, atIndex, rfl⟩ := Option.map_eq_some_iff.1 position
  exact ⟨added, atIndex,
    resolve_of_registered Call.bound_of_added_function (List.mem_of_getElem? atIndex)⟩

end Found

/-! ## What is bound is there -/

namespace Program

variable {program : Program} {request : Request}

/-- What is there stays there. -/
theorem has_step {entity : Entity} (has : program.Has entity) (request : Request) :
    (request.step program).2.Has entity := by
  obtain ⟨signatures, functions, imports⟩ := (filed_step request program).sizes_le
  cases entity with
  | signature index =>
    exact exists_entry_iff.2 (Nat.lt_of_lt_of_le (exists_entry_iff.1 has) signatures)
  | function index =>
    exact exists_entry_iff.2 (Nat.lt_of_lt_of_le (exists_entry_iff.1 has) functions)
  | imported index =>
    exact exists_entry_iff.2 (Nat.lt_of_lt_of_le (exists_entry_iff.1 has) imports)
  | label target =>
    obtain ⟨node, found⟩ := has
    obtain kept | ⟨other, -, written⟩ := get?_step (node_eq_ok_iff.1 found) request
    · exact ⟨node, node_eq_ok_iff.2 kept⟩
    · exact ⟨other, node_eq_ok_iff.2 written⟩

/-- What a call binds is there afterwards, if it is there before where `bind` is called. -/
theorem has_of_bound
    (trusted : ∀ var entity, request = .bind var entity → program.Has entity) {var : Var}
    {entity : Entity} (binds : (var, entity) ∈ (Call.make request program).bound) :
    (request.step program).2.Has entity := by
  obtain ⟨answer, succeeds⟩ := Call.ok_of_mem_bound binds
  obtain ⟨next, effect, step⟩ := Request.effect_of_ok succeeds
  have stays (has : program.Has entity) := has_step has request
  rw [Call.make, step] at binds
  rw [step] at stays ⊢
  cases effect with
  | asked question =>
    rw [Call.bound_of_isQuestion question] at binds
    cases binds
  | bound entity set free =>
    cases List.mem_singleton.1 binds
    exact stays (trusted _ _ rfl)
  | addedSignature free =>
    cases List.mem_singleton.1 binds
    exact exists_entry_iff.2 (by simp)
  | addedFunction free distinct =>
    cases List.mem_singleton.1 binds
    exact exists_entry_iff.2 (by simp)
  | addedImport free =>
    cases List.mem_singleton.1 binds
    exact exists_entry_iff.2 (by simp)
  | registeredLabels found declares free distinct =>
    simp only [Call.bound, found] at binds
    obtain ⟨declared, -, same⟩ := List.mem_map.1 binds
    cases same
    exact stays ⟨_, found⟩
  | _ => cases binds

/-- A program that holds everything its vars stand for. -/
structure Backed (program : Program) : Prop where
  has : ∀ (var : Var) (entity : Entity), program.bindings[var]? = some entity → program.Has entity

theorem Created.backed (created : program.Created) : program.Backed where
  has var entity bound := by simp [created.bindings_eq] at bound

theorem backed_step (backed : program.Backed)
    (trusted : ∀ var entity, request = .bind var entity → program.Has entity) :
    (request.step program).2.Backed where
  has var entity bound := by
    obtain older | binds := (grown_step request program).getElem?_eq_some_iff.1 bound
    · exact has_step (backed.has var entity older) request
    · exact has_of_bound trusted binds

/-! ## No name twice -/

variable {start : Program} {requests : List Request}

/-- Everything that a run registered, each entity with the name it was registered under. -/
def registry (requests : List Request) (start : Program) : List (Name × Entity) :=
  ((registered newSignature? requests start).map fun (entry, index) =>
    (entry.name, .signature index)) ++
  ((registered newFunction? requests start).map fun (func, index) =>
    (func.name, .function index)) ++
  ((registered newImport? requests start).map fun (entry, index) =>
    (entry.name, .imported index))

/-- What a run registered is found under its name. -/
theorem resolve_of_mem_registry {name : Name} {entity : Entity}
    (member : (name, entity) ∈ registry requests start) :
    (start.after requests).resolve (.named name) = .ok entity := by
  simp only [registry, List.mem_append, List.mem_map, Prod.exists, Prod.mk.injEq] at member
  obtain (⟨entry, index, member, rfl, rfl⟩ | ⟨func, index, member, rfl, rfl⟩) |
    ⟨entry, index, member, rfl, rfl⟩ := member
  · exact resolve_of_registered Call.bound_of_added_signature member
  · exact resolve_of_registered Call.bound_of_added_function member
  · exact resolve_of_registered Call.bound_of_added_import member

/-- Entities of one kind have different positions, of different kinds they differ anyway. -/
theorem nodup_entities (created : start.Created) (requests : List Request) :
    ((registry requests start).map Prod.snd).Nodup := by
  obtain ⟨signatures, functions, imports⟩ := filed_after created requests
  have positions := congrArg (List.map Prod.snd) signatures
  have otherPositions := congrArg (List.map Prod.snd) imports
  rw [List.zipIdx_map_snd, ← List.range_eq_range'] at positions otherPositions
  have entities : (registry requests start).map Prod.snd =
      ((registered newSignature? requests start).map Prod.snd).map .signature ++
      ((registered newFunction? requests start).map Prod.snd).map .function ++
      ((registered newImport? requests start).map Prod.snd).map .imported := by
    simp [registry, Function.comp_def]
  have nodup (size : Nat) {entity : Nat → Entity} (different : Function.Injective entity) :
      ((List.range size).map entity).Nodup := List.nodup_range.map different
  rw [entities, ← positions, ← functions, ← otherPositions, List.nodup_append, List.nodup_append]
  refine ⟨⟨nodup _ ?_, nodup _ ?_, ?_⟩, nodup _ ?_, ?_⟩
  · exact fun _ _ => Entity.signature.inj
  · exact fun _ _ => Entity.function.inj
  · simp
  · exact fun _ _ => Entity.imported.inj
  · grind

/-- The names are different because each of them is found as an entity of its own. -/
theorem nodup_names (created : start.Created) (requests : List Request) :
    ((registry requests start).map Prod.fst).Nodup := by
  let find (name : Name) := (start.after requests).resolve (.named name)
  have found : ((registry requests start).map Prod.fst).map find =
      ((registry requests start).map Prod.snd).map .ok := by
    rw [List.map_map, List.map_map]
    exact List.map_congr_left fun pair member => resolve_of_mem_registry member
  apply List.Nodup.of_map find
  rw [found]
  exact (nodup_entities created requests).map fun _ _ => Except.ok.inj

/-! ## Both directions -/

/-- **Stores and bindings agree.**  After any run from a created program in which `bind` was
only called with entities that were there, whatever a var stands for is there, so the
accessor that belongs to a typed form never fails on what the form gave back.  Conversely,
after any run, what was registered is found: a signature or an import under the name it
has in its store, a function under the name it was registered under, even if it was
exchanged since.  No two entities were registered under one name, and the stores list what
was registered in order, with positions that count from 0. -/
theorem stores_match_bindings (created : start.Created) (requests : List Request) :
    let program := start.after requests
    ((∀ call ∈ Request.history requests start, ∀ var entity,
        call.request = .bind var entity → call.before.Has entity) →
      (∀ var entity, program.resolve var = .ok entity → program.Has entity) ∧
      (∀ var index, program.resolveSignature var = .ok index →
        ∃ entry, program.signature index = .ok entry) ∧
      (∀ var index, program.resolveFunction var = .ok index →
        ∃ func, program.function index = .ok func) ∧
      (∀ var index, program.resolveImport var = .ok index →
        ∃ entry, program.imported index = .ok entry) ∧
      (∀ var target, program.resolveLabel var = .ok target →
        ∃ node, program.node target.node = .ok node)) ∧
    (∀ name entity, (name, entity) ∈ registry requests start →
      program.resolve (.named name) = .ok entity) ∧
    (∀ index entry, program.signature index = .ok entry →
      program.resolve (.named entry.name) = .ok (.signature index)) ∧
    (∀ index entry, program.imported index = .ok entry →
      program.resolve (.named entry.name) = .ok (.imported index)) ∧
    (∀ index func, program.function index = .ok func → ∃ added,
      (registered newFunction? requests start)[index]? = some (added, index) ∧
      program.resolve (.named added.name) = .ok (.function index)) ∧
    ((registry requests start).map Prod.fst).Nodup ∧
    program.signatures.toList.zipIdx = registered newSignature? requests start ∧
    List.range program.functions.size =
      (registered newFunction? requests start).map Prod.snd ∧
    program.imports.toList.zipIdx = registered newImport? requests start := by
  intro program
  obtain ⟨signatures, functions, imports⟩ := filed_after created requests
  refine ⟨fun trusted => ?_, fun name entity => resolve_of_mem_registry,
    fun index entry => resolve_of_stored Call.bound_of_added_signature signatures,
    fun index entry => resolve_of_stored Call.bound_of_added_import imports,
    fun index func => resolve_of_function functions,
    nodup_names created requests, signatures, functions, imports⟩
  have backed : program.Backed := after_of_step created.backed fun _ _ called backed =>
    backed_step backed (trusted _ called)
  have has (var : Var) (entity : Entity) (resolved : program.resolve var = .ok entity) :
      program.Has entity := backed.has var entity (resolve_eq_ok_iff.1 resolved)
  exact ⟨has,
    fun var index resolved => has var _ (resolveSignature_eq_ok_iff.1 resolved),
    fun var index resolved => has var _ (resolveFunction_eq_ok_iff.1 resolved),
    fun var index resolved => has var _ (resolveImport_eq_ok_iff.1 resolved),
    fun var target resolved => has var _ (resolveLabel_eq_ok_iff.1 resolved)⟩

/-- A function that is exchanged for one of another name, next to an index bound to it by
hand and a label: the old name and the index still stand for it. -/
theorem stores_match_bindings_of_renamed_function :
    let func : Func := ⟨⟨1⟩, .void, [], [], none⟩
    let requests : List Request :=
      [.intern "pair", .intern "main", .intern "print", .intern "renamed",
        .addSignature ⟨⟨0⟩, .i32, []⟩, .addFunction func,
        .addImport ⟨⟨2⟩, ⟨⟨0⟩, .void, []⟩⟩, .build (.block (.index 7) []), .registerLabels ⟨0⟩,
        .bind (.index 9) (.function 0), .setFunction 0 { func with name := ⟨3⟩ }]
    empty.Created ∧
    (empty.after requests).function 0 = .ok { func with name := ⟨3⟩ } ∧
    (empty.after requests).Has (.function 0) ∧
    (empty.after requests).resolve (.named ⟨1⟩) = .ok (.function 0) ∧
    ((registry requests empty).map Prod.fst).Nodup := by
  intro func requests
  have created : empty.Created := .inl rfl
  obtain ⟨there, found, -, -, -, distinct, -⟩ := stores_match_bindings created requests
  have trusted : ∀ call ∈ Request.history requests empty, ∀ var entity,
      call.request = .bind var entity → call.before.Has entity := by
    iterate 9 refine List.forall_mem_cons.2 ⟨nofun, ?_⟩
    refine List.forall_mem_cons.2 ⟨?_, List.forall_mem_singleton.2 nofun⟩
    rintro var entity ⟨⟩
    exact exists_entry_iff.2 (by decide +kernel)
  obtain ⟨has, -⟩ := there trusted
  refine ⟨created, by decide +kernel, has (.index 9) _ (by decide +kernel), found _ _ ?_, distinct⟩
  decide +kernel

end Program

end TreeIR
