/-
# TreeIR.Proofs.Locals -- numbered and named locals are the same locals

A function finds its params and locals in two ways, and they do not know of each other: an index
is a position counted from 1, a name is the position of the first slot that has it
(`position?_index_iff`, `position?_named_iff`).  They agree on a function whose slots have
different names (`Distinct`), and for no other: of two slots with one name the second is found
by its index only.

A function is registered only if its slots have different names (`repeatedSlot?_eq_none_iff`).
From there on only overwriting the function as a whole could change that, so where that has not
happened every function of a program is `Distinct` (`distinctSlots_after`).  Bindings play no
part: what a var is bound to in the program says nothing about the locals of a function.
-/
import TreeIR.Proofs.FunctionStore

namespace TreeIR

set_option autoImplicit false

namespace Func

variable {func : Func} {slot : Slot} {position : Nat} {name : Name}

/-! ## Slots with different names -/

/-- No two slots have one name. -/
def Distinct (func : Func) : Prop := (func.slots.map Slot.name).Nodup

theorem firstRepeated?_eq_none_iff {seen : List Name} {slots : List Slot} :
    firstRepeated? seen slots = none ↔
      (∀ slot ∈ slots, slot.name ∉ seen) ∧ (slots.map Slot.name).Nodup := by
  induction slots generalizing seen with
  | nil => simp [firstRepeated?]
  | cons slot rest ih =>
    rw [firstRepeated?]
    by_cases known : slot.name ∈ seen
    · simp [known]
    · rw [if_neg known, ih, List.forall_mem_cons, List.map_cons, List.nodup_cons]
      simp only [List.mem_cons, not_or, List.mem_map, not_exists, not_and]
      constructor
      · rintro ⟨apart, distinct⟩
        exact ⟨⟨known, fun other member => (apart other member).2⟩,
          fun other member => (apart other member).1, distinct⟩
      · rintro ⟨⟨-, unseen⟩, apart, distinct⟩
        exact ⟨fun other member => ⟨apart other member, unseen other member⟩, distinct⟩

/-- What registration checks. -/
theorem repeatedSlot?_eq_none_iff : func.repeatedSlot? = none ↔ func.Distinct := by
  rw [repeatedSlot?, firstRepeated?_eq_none_iff, Distinct]
  simp

/-! ## Where a var leads -/

theorem position?_index_iff {number : UInt32} :
    func.position? (.index number) = some position ↔ number.toNat = position + 1 := by
  rw [position?]
  by_cases zero : number = 0
  · simp [zero]
  · have positive : number.toNat ≠ 0 := fun same => zero (UInt32.toNat_inj.1 same)
    rw [if_neg zero, Option.some.injEq]
    omega

/-- A name leads to the first slot that has it. -/
theorem position?_named_iff :
    func.position? (.named name) = some position ↔
      (∃ slot, func.slots[position]? = some slot ∧ slot.name = name) ∧
      ∀ earlier other, earlier < position → func.slots[earlier]? = some other →
        other.name ≠ name := by
  rw [position?, List.findIdx?_eq_some_iff_getElem]
  constructor
  · intro ⟨inside, here, before⟩
    refine ⟨⟨_, List.getElem?_eq_getElem inside, by simpa using here⟩, ?_⟩
    intro earlier other lower found
    obtain ⟨_, rfl⟩ := List.getElem?_eq_some_iff.1 found
    simpa using before earlier lower
  · intro ⟨⟨slot, found, here⟩, before⟩
    obtain ⟨inside, rfl⟩ := List.getElem?_eq_some_iff.1 found
    refine ⟨inside, by simpa using here, ?_⟩
    intro earlier lower
    have other := before earlier _ lower (List.getElem?_eq_getElem (lower.trans inside))
    simpa using other

/-- Where names are different, a name leads to the one slot that has it. -/
theorem position?_of_distinct (distinct : func.Distinct)
    (found : func.slots[position]? = some slot) :
    func.position? (.named slot.name) = some position := by
  rw [position?_named_iff]
  refine ⟨⟨slot, found, rfl⟩, ?_⟩
  intro earlier other lower there same
  have inside : position < (func.slots.map Slot.name).length := by
    simpa using (List.getElem?_eq_some_iff.1 found).1
  have apart := List.nodup_iff_getElem?_ne_getElem?.1 distinct earlier position lower inside
  rw [List.getElem?_map, List.getElem?_map, found, there] at apart
  exact apart (congrArg some same)

/-- The slot at a position, as a var finds it. -/
def localAt (func : Func) (position : Nat) (slot : Slot) : Local where
  kind := if position < func.params.length then .param else .declared
  position := position
  name := slot.name
  type := slot.type

/-- What a var finds depends on the position only, as if params and locals were one list. -/
theorem local?_of_position {var : Var} (leads : func.position? var = some position) :
    func.local? var = (func.slots[position]?).map (func.localAt position) := by
  by_cases inside : position < func.params.length
  · rw [slots, List.getElem?_append_left inside, List.getElem?_eq_getElem inside]
    simp [local?, leads, inside, localAt]
  · rw [slots, List.getElem?_append_right (Nat.le_of_not_lt inside)]
    cases found : func.locals[position - func.params.length]? <;>
      simp [local?, leads, inside, found, localAt]

theorem local?_of_no_position {var : Var} (leads : func.position? var = none) :
    func.local? var = none := by
  rw [local?, leads]
  rfl

/-- The numbers from 1 to the number of slots find a slot, and no others do. -/
theorem local?_index_eq_none {number : UInt32}
    (outside : number = 0 ∨ func.slots.length < number.toNat) :
    func.local? (.index number) = none := by
  cases leads : func.position? (.index number) with
  | none => exact local?_of_no_position leads
  | some position =>
    have counted := position?_index_iff.1 leads
    have beyond : func.slots.length ≤ position := by
      rcases outside with rfl | beyond
      · cases counted
      · omega
    rw [local?_of_position leads, List.getElem?_eq_none beyond]
    rfl

theorem local?_named_eq_none (absent : ∀ slot ∈ func.slots, slot.name ≠ name) :
    func.local? (.named name) = none := by
  apply local?_of_no_position
  rw [position?, List.findIdx?_eq_none_iff]
  intro slot member
  simpa using absent slot member

end Func

namespace Program

variable {program start : Program} {requests : List Request} {index : Nat} {func : Func}

/-! ## Registered functions -/

/-- All functions have slots with different names. -/
def DistinctSlots (program : Program) : Prop :=
  ∀ (index : Nat) (func : Func), program.functions[index]? = some func → func.Distinct

theorem Created.distinctSlots (created : program.Created) : program.DistinctSlots := by
  obtain ⟨chunkSize, rfl⟩ := created.eq_ofArena
  intro index func found
  cases found

/-- A call that does not overwrite a function as a whole leaves the names of slots apart. -/
theorem distinctSlots_step {request : Request} (distinct : program.DistinctSlots)
    (unedited : ∀ index func, request = .setFunction index func →
      ∃ failure, (request.step program).1 = .error failure) :
    (request.step program).2.DistinctSlots := by
  intro index func found
  obtain same | ⟨new, -, passed, added⟩ | ⟨changed, old, -, stored, done, edited⟩ :=
    functions_cases request program
  · rw [same] at found
    exact distinct index func found
  · rw [added, Array.getElem?_push] at found
    split at found
    · cases found
      exact Func.repeatedSlot?_eq_none_iff.1 passed
    · exact distinct index func found
  · have bodyOnly : ∀ new, request ≠ .setFunction changed new := by
      intro new same
      obtain ⟨failure, fails⟩ := unedited changed new same
      cases done.symm.trans fails
    obtain ⟨body, given⟩ := Request.exists_body_of_editFunction bodyOnly old
    rw [edited, Array.getElem?_setIfInBounds] at found
    split at found
    · split at found
      · cases found
        rw [given]
        exact distinct changed old stored
      · cases found
    · exact distinct index func found

theorem distinctSlots_after (created : start.Created)
    (unedited : ∀ call ∈ Request.history requests start, ∀ index func,
      call.request = .setFunction index func → ∃ failure, call.outcome = .error failure) :
    (start.after requests).DistinctSlots :=
  after_of_step created.distinctSlots fun _ _ called distinct =>
    distinctSlots_step distinct (unedited _ called)

theorem resolveLocal_eq (found : program.function index = .ok func) (var : Var) :
    program.resolveLocal index var =
      match func.local? var with
      | some slot => .ok slot
      | none => .error (.resolve (.localNotFound var index)) := by
  rw [resolveLocal, found]
  rfl

/-- **Numbered and named locals agree.**  After any run from a created program that overwrote
no function as a whole: in every function the slot at a position is found by its number, counted
from 1, and by its name, with the same result, which shows the position, the name, the type and
whether it is a param.  Every other var is refused: the unset one, 0, numbers behind the last
slot and names that no slot has.  All this is so whatever else the vars are bound to. -/
theorem locals_agree (created : start.Created) (requests : List Request)
    (unedited : ∀ call ∈ Request.history requests start, ∀ index func,
      call.request = .setFunction index func → ∃ failure, call.outcome = .error failure)
    (index : Nat) (func : Func) (registered : (start.after requests).function index = .ok func) :
    let program := start.after requests
    let refused (var : Var) : Prop :=
      program.resolveLocal index var = .error (.resolve (.localNotFound var index))
    (∀ position slot, func.slots[position]? = some slot →
      ∃ found : Local, found.position = position ∧ found.name = slot.name ∧
        found.type = slot.type ∧ (found.kind = .param ↔ position < func.params.length) ∧
        program.resolveLocal index (.named slot.name) = .ok found ∧
        ∀ number : UInt32, number.toNat = position + 1 →
          program.resolveLocal index (.index number) = .ok found) ∧
    refused .unset ∧ refused (.index 0) ∧
    (∀ number : UInt32, func.slots.length < number.toNat → refused (.index number)) ∧
    (∀ name, (∀ slot ∈ func.slots, slot.name ≠ name) → refused (.named name)) ∧
    ∀ bindings var, { program with bindings := bindings }.resolveLocal index var =
      program.resolveLocal index var := by
  intro program refused
  have answer := resolveLocal_eq registered
  have distinct : func.Distinct :=
    distinctSlots_after created unedited index func (function_eq_ok_iff.1 registered)
  have refuses (var : Var) (nothing : func.local? var = none) : refused var := by
    show program.resolveLocal index var = _
    rw [answer, nothing]
  refine ⟨?_, ?_, ?_, ?_, ?_, fun bindings var => rfl⟩
  · intro position slot found
    have finds (var : Var) (leads : func.position? var = some position) :
        program.resolveLocal index var = .ok (func.localAt position slot) := by
      rw [answer, Func.local?_of_position leads, found]
      rfl
    refine ⟨func.localAt position slot, rfl, rfl, rfl, ?_, ?_, ?_⟩
    · rw [Func.localAt]
      split <;> simp_all
    · exact finds _ (Func.position?_of_distinct distinct found)
    · intro number counted
      exact finds _ (Func.position?_index_iff.2 counted)
  · exact refuses _ (Func.local?_of_no_position rfl)
  · exact refuses _ (Func.local?_index_eq_none (.inl rfl))
  · intro number beyond
    exact refuses _ (Func.local?_index_eq_none (.inr beyond))
  · intro name absent
    exact refuses _ (Func.local?_named_eq_none absent)

/-- The names of both slots and two numbers are also bound in the program, to something else; the
function was given a body, and an attempt to overwrite another one failed. -/
theorem locals_agree_of_bound_vars :
    let func : Func := ⟨⟨0⟩, .void, [⟨⟨1⟩, .f64⟩], [⟨⟨2⟩, .i64⟩], none⟩
    let requests : List Request :=
      [.intern "main", .intern "x", .intern "tmp", .addFunction func, .addSignature ⟨⟨1⟩, .void, []⟩,
        .bind (.named ⟨2⟩) (.function 0), .bind (.index 1) (.function 0),
        .bind (.index 3) (.signature 0), .setBody 0 ⟨0⟩, .setFunction 1 func]
    let program := empty.after requests
    program.resolve (.named ⟨1⟩) = .ok (.signature 0) ∧
    (∃ param, param.kind = .param ∧ param.type = .f64 ∧
      program.resolveLocal 0 (.named ⟨1⟩) = .ok param ∧
      program.resolveLocal 0 (.index 1) = .ok param) ∧
    (∃ found, found.kind ≠ .param ∧ found.type = .i64 ∧
      program.resolveLocal 0 (.named ⟨2⟩) = .ok found ∧
      program.resolveLocal 0 (.index 2) = .ok found) ∧
    program.resolveLocal 0 (.index 3) = .error (.resolve (.localNotFound (.index 3) 0)) ∧
    program.resolveLocal 0 (.named ⟨0⟩) = .error (.resolve (.localNotFound (.named ⟨0⟩) 0)) := by
  intro func requests program
  have created : empty.Created := .inl rfl
  have unedited : ∀ call ∈ Request.history requests empty, ∀ index func,
      call.request = .setFunction index func → ∃ failure, call.outcome = .error failure := by
    iterate 9 refine List.forall_mem_cons.2 ⟨nofun, ?_⟩
    exact List.forall_mem_singleton.2 fun _ _ _ => ⟨.fault .foreignEntity, by decide +kernel⟩
  have registered : program.function 0 = .ok { func with body := some ⟨0⟩ } := by decide +kernel
  obtain ⟨finds, -, -, behind, others, -⟩ := locals_agree created requests unedited 0 _ registered
  obtain ⟨param, -, -, paramType, paramKind, named, numbered⟩ := finds 0 _ rfl
  obtain ⟨found, -, -, foundType, foundKind, named', numbered'⟩ := finds 1 _ rfl
  refine ⟨by decide +kernel, ⟨param, paramKind.2 (by decide), paramType, named, numbered 1 rfl⟩,
    ⟨found, ?_, foundType, named', numbered' 2 rfl⟩, behind 3 (by decide), others ⟨0⟩ (by decide)⟩
  intro kind
  have inside := foundKind.1 kind
  exact absurd inside (by decide)

end Program

end TreeIR
