/-
# TreeIR.Proofs.Exports -- exports are a namespace of their own

An export is kept twice: its entry stands in the store, in order of registration, and its name
leads to the position.  `ExportsIndexed` says that the two agree: a name leads to a position
exactly if the export there has that name.  So a name is taken exactly if an export has it, and
no two exports share one (`ExportsIndexed.nodup_names`).

Of all calls only a registration that succeeds touches either part, and it touches both
(`exports_cases`): it appends an entry whose name is new and lets the name lead there.  That
keeps the agreement (`ExportsIndexed.push`).  Nothing of this sees the bindings, where the same
names may stand for other things, and the bindings do not see exports (`bindings_step_addExport`).
-/
import TreeIR.Proofs.Registry

namespace TreeIR

set_option autoImplicit false

open Request (registered)

/-- The export that a request registers if it succeeds. -/
def Request.newExport? : Request → Option Export
  | addExport entry => some entry
  | _ => none

open Request (newExport?)

namespace Program

variable {program : Program}

/-! ## What calls do to exports -/

/-- A call leaves the exports and their names alone, or registers an export under a new name. -/
theorem exports_cases (request : Request) (program : Program) :
    ((Call.make request program).added newExport? = [] ∧
      (request.step program).2.exports = program.exports ∧
      (request.step program).2.exportIndices = program.exportIndices) ∨
    (∃ entry, request = .addExport entry ∧ entry.name ∉ program.exportIndices ∧
      (request.step program).1 = .ok (.index program.exports.size) ∧
      (request.step program).2.exports = program.exports.push entry ∧
      (request.step program).2.exportIndices =
        program.exportIndices.insert entry.name program.exports.size) := by
  have nothing {failure : Failure} (failed : (request.step program).1 = .error failure) :
      (Call.make request program).added newExport? = [] :=
    Call.added_of_error failed
  cases request.outcome program with
  | failed step => exact .inl ⟨nothing (by rw [step]), by rw [step], by rw [step]⟩
  | stuck mints why step => exact .inl ⟨nothing (by rw [step]), by rw [step], by rw [step]⟩
  | succeeded effect step =>
    rw [Call.make, step]
    cases effect with
    | asked question =>
      refine .inl ⟨Call.added_of_none ?_, rfl, rfl⟩
      cases request <;> first
        | rfl
        | exact absurd question Bool.false_ne_true
    | addedExport free => exact .inr ⟨_, rfl, free, rfl, rfl, rfl⟩
    | _ => exact .inl ⟨rfl, rfl, rfl⟩

/-- Registering an export is refused if its name is taken, and succeeds otherwise. -/
theorem step_addExport (entry : Export) (program : Program) :
    (entry.name ∈ program.exportIndices ∧ (Request.addExport entry).step program =
      (.error (.register (.duplicateExport entry.name)), program)) ∨
    (entry.name ∉ program.exportIndices ∧ (Request.addExport entry).step program =
      (.ok (.index program.exports.size),
        { program with
          exports := program.exports.push entry
          exportIndices := program.exportIndices.insert entry.name program.exports.size })) := by
  rcases program.addExport_cases entry with ⟨taken, stops⟩ | ⟨free, goes⟩
  · exact .inl ⟨taken, Request.step_of_error rfl stops⟩
  · exact .inr ⟨free, Request.step_of_ok rfl goes⟩

/-- It never touches the bindings, whether it succeeds or not. -/
theorem bindings_step_addExport (entry : Export) (program : Program) :
    ((Request.addExport entry).step program).2.bindings = program.bindings := by
  rcases step_addExport entry program with ⟨-, step⟩ | ⟨-, step⟩ <;> rw [step]

/-! ## Names and positions -/

/-- A name leads to a position exactly if the export there has that name. -/
def ExportsIndexed (program : Program) : Prop :=
  ∀ (name : Name) (index : Nat), program.exportIndices[name]? = some index ↔
    ∃ entry, program.exports[index]? = some entry ∧ entry.name = name

theorem Created.exportsIndexed (created : program.Created) : program.ExportsIndexed := by
  obtain ⟨chunkSize, rfl⟩ := created.eq_ofArena
  intro name index
  simp [ofArena]

namespace ExportsIndexed

variable {entry : Export}

/-- A name is taken exactly if an export has it. -/
theorem mem_iff (indexed : program.ExportsIndexed) (name : Name) :
    name ∈ program.exportIndices ↔
      ∃ (index : Nat) (entry : Export), program.exports[index]? = some entry ∧
        entry.name = name := by
  simp only [Std.ExtTreeMap.mem_iff_isSome_getElem?, Option.isSome_iff_exists, indexed name]

/-- The positions of a name are one position at most, so names do not repeat. -/
theorem nodup_names (indexed : program.ExportsIndexed) :
    (program.exports.toList.map Export.name).Nodup := by
  rw [List.nodup_iff_getElem?_ne_getElem?]
  intro i j before inside same
  simp only [List.getElem?_map, Array.getElem?_toList, List.length_map, Array.length_toList]
    at inside same
  have first := Array.getElem?_eq_getElem (Nat.lt_trans before inside)
  have second := Array.getElem?_eq_getElem inside
  rw [first, second] at same
  have shared := Option.some.inj same
  have atFirst := (indexed _ i).2 ⟨_, first, shared⟩
  have atSecond := (indexed _ j).2 ⟨_, second, rfl⟩
  have positions := Option.some.inj (atFirst.symm.trans atSecond)
  omega

/-- An entry under a new name goes to the end, and its name leads there. -/
theorem push (indexed : program.ExportsIndexed) (free : entry.name ∉ program.exportIndices)
    (name : Name) (index : Nat) :
    (program.exportIndices.insert entry.name program.exports.size)[name]? = some index ↔
      ∃ stored, (program.exports.push entry)[index]? = some stored ∧ stored.name = name := by
  simp only [Std.ExtTreeMap.getElem?_insert, Std.LawfulEqCmp.compare_eq_iff_eq,
    Array.getElem?_push]
  by_cases new : entry.name = name
  · -- No older export has the new name.
    have unused : ¬ ∃ stored, program.exports[index]? = some stored ∧ stored.name = name := by
      rw [← indexed name index, Std.ExtTreeMap.getElem?_eq_none (new ▸ free)]
      simp
    by_cases last : index = program.exports.size
    · simp [new, last]
    · rw [if_pos new, if_neg last]
      exact iff_of_false (fun same => last (Option.some.inj same).symm) unused
  · -- No older name leads to the end.
    have unled : program.exportIndices[name]? ≠ some program.exports.size := by
      simp [indexed name]
    by_cases last : index = program.exports.size
    · simp [new, last, unled]
    · simp [new, last, indexed name index]

end ExportsIndexed

theorem exportsIndexed_step (indexed : program.ExportsIndexed) (request : Request) :
    (request.step program).2.ExportsIndexed := by
  rcases exports_cases request program with ⟨-, exports, names⟩ | ⟨entry, -, free, -, exports, names⟩
  · intro name index
    rw [exports, names]
    exact indexed name index
  · intro name index
    rw [exports, names]
    exact indexed.push free name index

theorem exportsIndexed_after {start : Program} (created : start.Created)
    (requests : List Request) : (start.after requests).ExportsIndexed :=
  after_of_step created.exportsIndexed fun request _ _ indexed => exportsIndexed_step indexed request

/-- From a created program on, the exports are the record of what was registered. -/
theorem exports_after {start : Program} (created : start.Created) (requests : List Request) :
    (start.after requests).exports.toList.zipIdx = registered newExport? requests start := by
  obtain ⟨chunkSize, rfl⟩ := created.eq_ofArena
  refine after_eq_append (fun program => program.exports.toList.zipIdx) _ ?_ requests _
  intro request program
  rcases exports_cases request program with ⟨nothing, exports, -⟩ |
    ⟨entry, rfl, -, succeeds, exports, -⟩
  · simp [nothing, exports]
  · have added : (Call.make (.addExport entry) program).added newExport? =
        [(entry, program.exports.size)] := by
      simp [Call.added, Call.make, newExport?, succeeds]
    simp [added, exports, List.zipIdx_append]

/-! ## Looking up and registering -/

/-- Looking an export up finds the position at which its name stands. -/
theorem ExportsIndexed.resolveExport_iff (indexed : program.ExportsIndexed) {name : Name}
    {index : Nat} :
    program.resolveExport name = .ok index ↔
      ∃ entry, program.exported index = .ok entry ∧ entry.name = name := by
  rw [resolveExport_eq_ok_iff, indexed name index]
  simp only [exported, entry_eq_ok_iff]

/-- A look-up that finds no export says which name has none. -/
theorem resolveExport_eq_error_iff {name : Name} {error : ResolveError} :
    program.resolveExport name = .error error ↔
      error = .unknownExport name ∧ ∀ index, program.resolveExport name ≠ .ok index := by
  unfold resolveExport
  split <;> simp [eq_comm]

/-- Registering fails exactly if the name is taken among exports; the bindings do not count. -/
theorem addExport_eq_error_iff {entry : Export} {failure : Failure} :
    ((Request.addExport entry).step program).1 = .error failure ↔
      failure = .register (.duplicateExport entry.name) ∧ entry.name ∈ program.exportIndices := by
  rcases step_addExport entry program with ⟨taken, step⟩ | ⟨free, step⟩
  · simp [step, taken, eq_comm]
  · simp [step, free]

/-- Otherwise it hands out the next position. -/
theorem addExport_eq_ok_iff {entry : Export} {answer : Answer} :
    ((Request.addExport entry).step program).1 = .ok answer ↔
      answer = .index program.exports.size ∧ entry.name ∉ program.exportIndices := by
  rcases step_addExport entry program with ⟨taken, step⟩ | ⟨free, step⟩
  · simp [step, taken]
  · simp [step, free, eq_comm]

/-- What a var stands for is a matter of the bindings. -/
theorem resolve_congr {other : Program} (same : other.bindings = program.bindings) (var : Var) :
    other.resolve var = program.resolve var ∧
    other.resolveSignature var = program.resolveSignature var ∧
    other.resolveFunction var = program.resolveFunction var ∧
    other.resolveImport var = program.resolveImport var ∧
    other.resolveLabel var = program.resolveLabel var := by
  have resolves : other.resolve var = program.resolve var := by rw [resolve, resolve, same]
  simp only [resolveSignature, resolveFunction, resolveImport, resolveLabel, resolveAs, resolves,
    and_self]

/-- **Exports have one namespace of their own, with one export to a name.**  After any run from a
created program, looking up a name finds a position exactly if the export there has that name,
and any other name is reported as unknown; so export names are different, and the store lists
what was registered in order, with positions that count from 0.  Registering an export fails,
as a duplicate of its name, exactly if an export has that name already, whatever vars are bound,
and hands out the next position otherwise.  It never changes what a var stands for, and no other
call, nor one that fails, changes what an export name stands for. -/
theorem exports_match_names {start : Program} (created : start.Created) (requests : List Request) :
    let program := start.after requests
    (∀ name index, program.resolveExport name = .ok index ↔
      ∃ entry, program.exported index = .ok entry ∧ entry.name = name) ∧
    (∀ name error, program.resolveExport name = .error error ↔
      error = .unknownExport name ∧
      ∀ index entry, program.exported index = .ok entry → entry.name ≠ name) ∧
    (program.exports.toList.map Export.name).Nodup ∧
    program.exports.toList.zipIdx = registered newExport? requests start ∧
    (∀ entry failure bindings,
      ((Request.addExport entry).step { program with bindings }).1 = .error failure ↔
        failure = .register (.duplicateExport entry.name) ∧
        ∃ index old, program.exported index = .ok old ∧ old.name = entry.name) ∧
    (∀ entry bindings, (∀ index old, program.exported index = .ok old → old.name ≠ entry.name) →
      ((Request.addExport entry).step { program with bindings }).1 =
        .ok (.index program.exports.size)) ∧
    (∀ entry var, let next := ((Request.addExport entry).step program).2
      next.resolve var = program.resolve var ∧
      next.resolveSignature var = program.resolveSignature var ∧
      next.resolveFunction var = program.resolveFunction var ∧
      next.resolveImport var = program.resolveImport var ∧
      next.resolveLabel var = program.resolveLabel var) ∧
    (∀ request : Request,
      (∀ entry answer, request = .addExport entry → (request.step program).1 ≠ .ok answer) →
      ∀ name, (request.step program).2.resolveExport name = program.resolveExport name) := by
  intro program
  have indexed : program.ExportsIndexed := exportsIndexed_after created requests
  have taken (name : Name) : name ∈ program.exportIndices ↔
      ∃ index entry, program.exported index = .ok entry ∧ entry.name = name := by
    simp only [indexed.mem_iff, exported, entry_eq_ok_iff]
  refine ⟨fun name index => indexed.resolveExport_iff, ?_, indexed.nodup_names,
    exports_after created requests, ?_, ?_, ?_, ?_⟩
  · intro name error
    simp only [resolveExport_eq_error_iff, ne_eq, indexed.resolveExport_iff]
    grind
  · intro entry failure bindings
    rw [addExport_eq_error_iff, ← taken]
  · intro entry bindings free
    rw [addExport_eq_ok_iff]
    refine ⟨rfl, fun member => ?_⟩
    obtain ⟨index, old, found, same⟩ := (taken entry.name).1 member
    exact free index old found same
  · intro entry var
    exact resolve_congr (bindings_step_addExport entry program) var
  · intro request fails name
    rcases exports_cases request program with ⟨-, -, names⟩ | ⟨entry, asks, -, succeeds, -⟩
    · rw [resolveExport, resolveExport, names]
    · exact absurd succeeds (fails entry _ asks)

/-- The name of a function is exported, twice, and the second time is refused; a name that only
the bindings know is no export. -/
theorem exports_match_names_of_exported_function :
    let requests : List Request :=
      [.intern "main", .intern "memory", .addFunction ⟨⟨0⟩, .i32, [], [], none⟩,
        .addExport ⟨⟨1⟩, .index 3⟩, .addExport ⟨⟨0⟩, .named ⟨0⟩⟩, .addExport ⟨⟨0⟩, .unset⟩,
        .addSignature ⟨⟨2⟩, .void, []⟩]
    let program := empty.after requests
    empty.Created ∧
    program.resolveExport ⟨0⟩ = .ok 1 ∧ program.resolve (.named ⟨0⟩) = .ok (.function 0) ∧
    program.resolveExport ⟨2⟩ = .error (.unknownExport ⟨2⟩) ∧
    ((Request.addExport ⟨⟨0⟩, .unset⟩).step { program with bindings := ∅ }).1 =
      .error (.register (.duplicateExport ⟨0⟩)) := by
  intro requests program
  have created : empty.Created := .inl rfl
  obtain ⟨found, unknown, -, -, refused, -⟩ := exports_match_names created requests
  have stored : program.exported 1 = .ok ⟨⟨0⟩, .named ⟨0⟩⟩ := by decide +kernel
  have others : ∀ index entry, program.exported index = .ok entry → entry.name ≠ ⟨2⟩ := by
    have two : program.exports = #[⟨⟨1⟩, .index 3⟩, ⟨⟨0⟩, .named ⟨0⟩⟩] := by decide +kernel
    intro index entry there
    rw [exported, entry_eq_ok_iff, two] at there
    match index with
    | 0 => cases there; decide
    | 1 => cases there; decide
  exact ⟨created, (found ⟨0⟩ 1).2 ⟨_, stored, rfl⟩, by decide +kernel,
    (unknown ⟨2⟩ _).2 ⟨rfl, others⟩, (refused _ _ ∅).2 ⟨rfl, 1, _, stored, rfl⟩⟩

end Program

end TreeIR
