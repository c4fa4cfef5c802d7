/-
# TreeIR.Proofs.Run -- runs, what they leave behind and what they record

A run is a list of requests carried out from a created program.  `after` is the program
it leaves; `history` is the record of its calls, each with the program it met and what
came back.  Both follow the recursion of `Request.run`, and both split where the list
splits.  What one call keeps a run keeps (`after_of_step`); what each call makes of
something, or appends to a list, a run does call by call (`edited_after`,
`after_eq_append`).
-/
import TreeIR.Proofs.Effect

namespace TreeIR

set_option autoImplicit false

namespace Program

/-! ## Where a run starts -/

/-- A program as its constructors make it, with the default chunk size or a configured one. -/
def Created (program : Program) : Prop :=
  program = empty ∨ ∃ config, ofConfig config = .ok program

/-- A configuration makes a program if it is valid, and always the same one. -/
theorem ofConfig_eq_ok_iff {config : Config} {program : Program} :
    ofConfig config = .ok program ↔
      config.validate = .ok () ∧ program = ofArena (.ofChunkSize config.chunkSize) := by
  rw [ofConfig]
  cases config.validate <;> simp [Bind.bind, Except.bind, pure, Except.pure, eq_comm]

/-- Apart from its chunk size a created program is always the same. -/
theorem Created.eq_ofArena {program : Program} (created : program.Created) :
    ∃ chunkSize, program = ofArena (.ofChunkSize chunkSize) := by
  rcases created with rfl | ⟨config, made⟩
  · exact ⟨Arena.defaultChunkSize, rfl⟩
  · exact ⟨config.chunkSize, (ofConfig_eq_ok_iff.1 made).2⟩

/-! ## Where it leads -/

/-- The program that a list of requests leaves behind. -/
def after (program : Program) (requests : List Request) : Program :=
  (Request.run requests program).2

@[simp] theorem after_nil (program : Program) : program.after [] = program := rfl

@[simp] theorem after_cons (program : Program) (request : Request) (rest : List Request) :
    program.after (request :: rest) = (request.step program).2.after rest := rfl

theorem after_append (program : Program) (requests later : List Request) :
    program.after (requests ++ later) = (program.after requests).after later := by
  induction requests generalizing program with
  | nil => rfl
  | cons request rest ih => exact ih (request.step program).2

end Program

/-! ## What it records -/

/-- One call of a run. -/
structure Call where
  request : Request
  /-- The program the call met. -/
  before : Program
  outcome : Except Failure Answer

namespace Call

/-- The call that a request makes of a program. -/
def make (request : Request) (program : Program) : Call :=
  ⟨request, program, (request.step program).1⟩

end Call

namespace Request

/-- The calls of a run in order. -/
def history : List Request → Program → List Call
  | [], _ => []
  | request :: rest, program =>
      .make request program :: history rest (request.step program).2

theorem history_append (requests later : List Request) (program : Program) :
    history (requests ++ later) program =
      history requests program ++ history later (program.after requests) := by
  induction requests generalizing program with
  | nil => rfl
  | cons request rest ih =>
    rw [List.cons_append, history, history, List.cons_append, ih, Program.after_cons]

/-- Each call of a run meets what the requests before it have made of the program. -/
theorem mem_history_iff {requests : List Request} {program : Program} {call : Call} :
    call ∈ history requests program ↔ ∃ earlier request later,
      requests = earlier ++ request :: later ∧ call = .make request (program.after earlier) := by
  constructor
  · intro member
    induction requests generalizing program with
    | nil => cases member
    | cons request rest ih =>
      obtain rfl | deeper := List.mem_cons.1 member
      · exact ⟨[], request, rest, rfl, rfl⟩
      · obtain ⟨earlier, made, later, rfl, rfl⟩ := ih deeper
        exact ⟨request :: earlier, made, later, rfl, rfl⟩
  · rintro ⟨earlier, request, later, rfl, rfl⟩
    rw [history_append]
    exact List.mem_append_right _ (.head _)

end Request

/-! ## From one call to a run -/

namespace Program

/-- An invariant that each call of a run keeps holds after the run. -/
theorem after_of_step {motive : Program → Prop} {requests : List Request} {program : Program}
    (start : motive program)
    (step : ∀ request before, Call.make request before ∈ Request.history requests program →
      motive before → motive (request.step before).2) :
    motive (program.after requests) := by
  induction requests generalizing program with
  | nil => exact start
  | cons request rest ih =>
    refine ih (step request program (.head _) start) fun later before called => ?_
    exact step later before (.tail _ called)

/-- What each call makes of a part of the program that is there, a run makes of it call by
call. -/
theorem edited_after {α : Type} (view : Program → Option α) (edit : α → Request → α)
    (step : ∀ {program value}, view program = some value → ∀ request : Request,
      view (request.step program).2 = some (edit value request))
    {program : Program} {value : α} (found : view program = some value)
    (requests : List Request) :
    view (program.after requests) = some (requests.foldl edit value) := by
  induction requests generalizing program value with
  | nil => exact found
  | cons request rest ih => exact ih (step found request)

/-- What each call appends to a list, a run appends in the order of its calls. -/
theorem after_eq_append {α : Type} (view : Program → List α) (adds : Call → List α)
    (step : ∀ request program,
      view (request.step program).2 = view program ++ adds (.make request program))
    (requests : List Request) (program : Program) :
    view (program.after requests) =
      view program ++ (Request.history requests program).flatMap adds := by
  induction requests generalizing program with
  | nil => simp [Request.history]
  | cons request rest ih =>
    rw [after_cons, ih, step, Request.history, List.flatMap_cons, List.append_assoc]

end Program

end TreeIR
