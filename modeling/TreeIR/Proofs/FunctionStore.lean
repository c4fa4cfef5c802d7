/-
# TreeIR.Proofs.FunctionStore -- what calls do to the functions

Signatures, imports and exports stay as they were registered.  A function can be edited in
its place: overwritten as a whole, or given another body.  `functions_cases` is
`Request.outcome` read for the functions: a call leaves them alone, appends one whose slots
have different names, or edits one that is there.

`Request.editFunction` is what an edit makes of a function.  A call makes of the function at a
position what its request makes of it (`function_edited`), so a run leaves there what its
requests have made of it one after the other (`function_edited_after`): the others, those that
only ask, register or fail, make nothing of it.
-/
import TreeIR.Proofs.Registry

namespace TreeIR

set_option autoImplicit false

namespace Request

/-- The position of the function that a request edits, whether one is there or not. -/
def changes? : Request → Option Nat
  | setFunction index _ | setBody index _ => some index
  | _ => none

/-- What a request makes of the function that is at a position. -/
def editFunction (request : Request) (index : Nat) (func : Func) : Func :=
  match request with
  | setFunction changed new => if changed = index then new else func
  | setBody changed body => if changed = index then { func with body := some body } else func
  | _ => func

variable {request : Request} {index : Nat} {func : Func}

theorem editFunction_of_changes?_ne (elsewhere : request.changes? ≠ some index) :
    request.editFunction index func = func := by
  cases request with
  | setFunction changed new => exact if_neg fun here => elsewhere (congrArg some here)
  | setBody changed body => exact if_neg fun here => elsewhere (congrArg some here)
  | _ => rfl

/-- Only overwriting a function changes more of it than its body. -/
theorem exists_body_of_editFunction (kept : ∀ new, request ≠ .setFunction index new)
    (func : Func) : ∃ body, request.editFunction index func = { func with body := body } := by
  cases request with
  | setFunction changed new =>
    have elsewhere : changed ≠ index := by
      rintro rfl
      exact kept new rfl
    exact ⟨func.body, if_neg elsewhere⟩
  | setBody changed given =>
    by_cases here : changed = index
    · exact ⟨some given, if_pos here⟩
    · exact ⟨func.body, if_neg here⟩
  | _ => exact ⟨func.body, rfl⟩

end Request

namespace Program

variable {program : Program} {index : Nat} {func : Func}

theorem function_eq_ok_iff :
    program.function index = .ok func ↔ program.functions[index]? = some func :=
  entry_eq_ok_iff

/-- A call leaves the functions alone, appends one or edits one. -/
theorem functions_cases (request : Request) (program : Program) :
    (request.step program).2.functions = program.functions ∨
    (∃ func, request = .addFunction func ∧ func.repeatedSlot? = none ∧
      (request.step program).2.functions = program.functions.push func) ∨
    (∃ index old, request.changes? = some index ∧ program.functions[index]? = some old ∧
      (request.step program).1 = .ok .done ∧
      (request.step program).2.functions =
        program.functions.setIfInBounds index (request.editFunction index old)) := by
  cases request.outcome program with
  | failed step =>
    rw [step]
    exact .inl rfl
  | stuck mints why step =>
    rw [step]
    exact .inl rfl
  | succeeded effect step =>
    rw [step]
    cases effect with
    | addedFunction free distinct => exact .inr (.inl ⟨_, rfl, distinct, rfl⟩)
    | @changedFunction index old found new =>
      refine .inr (.inr ⟨index, old, rfl, function_eq_ok_iff.1 found, rfl, ?_⟩)
      rw [Request.editFunction, if_pos rfl]
    | @changedBody index old found body =>
      refine .inr (.inr ⟨index, old, rfl, function_eq_ok_iff.1 found, rfl, ?_⟩)
      rw [Request.editFunction, if_pos rfl]
    | _ => exact .inl rfl

/-- A function that is there is there after a call, and the call has made of it what its request
makes of the function at that position. -/
theorem function_edited (found : program.functions[index]? = some func) (request : Request) :
    (request.step program).2.functions[index]? = some (request.editFunction index func) := by
  have inside : index < program.functions.size := (Array.getElem?_eq_some_iff.1 found).1
  by_cases changes : request.changes? = some index
  · cases request with
    | setFunction changed new =>
      cases changes
      obtain ⟨cause, unknown, -⟩ | ⟨old, -, goes⟩ := program.setFunction_cases index new
      · cases unknown.symm.trans (function_eq_ok_iff.2 found)
      · rw [Request.step_of_done rfl goes]
        simp [Request.editFunction, inside]
    | setBody changed body =>
      cases changes
      obtain ⟨cause, unknown, -⟩ | ⟨old, stored, goes⟩ := program.setBody_cases index body
      · cases unknown.symm.trans (function_eq_ok_iff.2 found)
      · cases stored.symm.trans (function_eq_ok_iff.2 found)
        rw [Request.step_of_done rfl goes]
        simp [Request.editFunction, inside]
    | _ => cases changes
  · rw [Request.editFunction_of_changes?_ne changes]
    obtain same | ⟨new, -, -, added⟩ | ⟨changed, old, edits, -, -, edited⟩ :=
      functions_cases request program
    · rw [same, found]
    · rw [added, Array.getElem?_push, if_neg (Nat.ne_of_lt inside), found]
    · have elsewhere : changed ≠ index := by
        rintro rfl
        exact changes edits
      rw [edited, Array.getElem?_setIfInBounds_ne elsewhere, found]

/-- The function at a position is what the requests of the run have made of it. -/
theorem function_edited_after (found : program.functions[index]? = some func)
    (requests : List Request) :
    (program.after requests).functions[index]? =
      some (requests.foldl (fun func request => request.editFunction index func) func) :=
  edited_after (fun program => program.functions[index]?) _ function_edited found requests

/-- Where no request of a run edits, the function stays as it is. -/
theorem function_after_of_elsewhere (found : program.functions[index]? = some func)
    {requests : List Request}
    (elsewhere : ∀ request ∈ requests, request.changes? ≠ some index) :
    (program.after requests).functions[index]? = some func := by
  rw [function_edited_after found]
  congr 1
  refine List.foldlRecOn requests _ (motive := (· = func)) rfl ?_
  rintro kept rfl request member
  exact Request.editFunction_of_changes?_ne (elsewhere request member)

/-- Where no request of a run overwrites, the function stays as it is but for its body. -/
theorem exists_body_after (found : program.functions[index]? = some func)
    {requests : List Request} (kept : ∀ new, .setFunction index new ∉ requests) :
    ∃ body, (program.after requests).functions[index]? = some { func with body := body } := by
  rw [function_edited_after found]
  simp only [Option.some.injEq]
  refine List.foldlRecOn requests _
    (motive := fun edited : Func => ∃ body, edited = { func with body := body }) ⟨func.body, rfl⟩ ?_
  rintro edited ⟨body, rfl⟩ request member
  apply Request.exists_body_of_editFunction
  rintro new rfl
  exact kept new member

end Program

end TreeIR
