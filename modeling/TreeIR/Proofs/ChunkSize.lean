/-
# TreeIR.Proofs.ChunkSize -- nobody can tell the chunk size

Two programs are alike (`Alike`) if their arenas hold the same nodes and everything else is
the same; how the nodes lie in chunks is left open.  An operation is oblivious
(`Oblivious`) if alike programs cannot be told apart by it: it ends in the same way on
both, with the same value or failure, and leaves them alike.

Obliviousness composes, so each operation has it from its parts, and there are few of
those: what reads or writes anything but the nodes sees the same program twice; reading a
node, counting nodes and walking go through `Arena.get?` and the size, which the list that
is held decides; appending and overwriting are appending and overwriting in that list.
A request is an operation, and a run a sequence of requests (`run_of_alike`).
-/
import TreeIR.Proofs.AppendOnly
import TreeIR.Proofs.NodeStore

namespace TreeIR

set_option autoImplicit false

/-! ## Programs that differ in their chunks -/

/-- The second program is the first with another arena that holds the same nodes.  Both
arenas can open chunks for more. -/
inductive Alike (program : Program) : Program → Prop
  | intro {nodes : Arena Node} {values : List Node} (here : program.nodes.Holds values)
      (there : nodes.Holds values) : Alike program { program with nodes }

namespace Alike

variable {first second : Program}

theorem rest_eq (alike : Alike first second) : { second with nodes := first.nodes } = first := by
  obtain ⟨here, there⟩ := alike
  rfl

theorem get?_eq (alike : Alike first second) (id : NodeId) :
    second.nodes.get? id = first.nodes.get? id := by
  obtain ⟨here, there⟩ := alike
  rw [here.get?_eq, there.get?_eq]

theorem size_eq (alike : Alike first second) : second.nodes.size = first.nodes.size := by
  obtain ⟨here, there⟩ := alike
  rw [here.size_eq, there.size_eq]

theorem entries_eq (alike : Alike first second) :
    second.nodes.entries = first.nodes.entries := by
  obtain ⟨here, there⟩ := alike
  rw [Arena.entries, Arena.entries, here.toList_eq, there.toList_eq]

/-- Both have the same number of handles left, and lack nothing else. -/
theorem checkRoom_eq (alike : Alike first second) :
    second.nodes.checkRoom = first.nodes.checkRoom := by
  obtain ⟨here, there⟩ := alike
  rw [here.reserves.checkRoom_eq, there.reserves.checkRoom_eq, here.size_eq, there.size_eq]

theorem node_eq (alike : Alike first second) (id : NodeId) : second.node id = first.node id := by
  rw [Program.node, Program.node, Arena.get, Arena.get, alike.get?_eq]

theorem walkStack_eq (alike : Alike first second) (limit : Nat) (stack : List NodeId)
    (visits : Array Visit) :
    second.walkStack limit stack visits = first.walkStack limit stack visits := by
  fun_induction first.walkStack limit stack visits with
  | case1 limit visits => rw [Program.walkStack]
  | case2 limit visits id stack unknown => rw [Program.walkStack, alike.get?_eq, unknown]
  | case3 visits id stack node found => rw [Program.walkStack, alike.get?_eq, found]
  | case4 visits id stack node found limit ih =>
    rw [Program.walkStack, alike.get?_eq, found]
    exact ih

end Alike

/-! ## Operations that do not look at the chunks -/

/-- Two calls that end in the same way, in programs that are alike. -/
inductive Agree {α : Type} :
    EStateM.Result Failure Program α → EStateM.Result Failure Program α → Prop
  | ok (value : α) {first second : Program} (alike : Alike first second) :
      Agree (.ok value first) (.ok value second)
  | error (failure : Failure) {first second : Program} (alike : Alike first second) :
      Agree (.error failure first) (.error failure second)

/-- Alike programs cannot be told apart by the operation. -/
def Oblivious {α : Type} (operation : Action α) : Prop :=
  ∀ first second, Alike first second → Agree (operation.run first) (operation.run second)

namespace Oblivious

variable {α β : Type} {operation : Action α}

theorem pure (value : α) : Oblivious (Pure.pure value : Action α) :=
  fun _ _ alike => .ok value alike

theorem throw (failure : Failure) : Oblivious (throw failure : Action α) :=
  fun _ _ alike => .error failure alike

theorem bind {next : α → Action β} (oblivious : Oblivious operation)
    (each : ∀ value, Oblivious (next value)) : Oblivious (operation >>= next) := by
  intro first second alike
  have agree := oblivious first second alike
  rw [EStateM.run_bind, EStateM.run_bind]
  generalize operation.run first = one, operation.run second = other at agree
  cases agree with
  | ok value alike => exact each value _ _ alike
  | error failure alike => exact .error failure alike

theorem map (f : α → β) (oblivious : Oblivious operation) : Oblivious (f <$> operation) := by
  rw [← bind_pure_comp]
  exact oblivious.bind fun value => pure (f value)

/-- Reading the program is harmless where what comes of it is the same for both. -/
theorem read {next : Program → Action α}
    (same : ∀ first second, Alike first second → next second = next first)
    (each : ∀ program, Oblivious (next program)) : Oblivious (get >>= next) := by
  intro first second alike
  change Agree ((next first).run first) ((next second).run second)
  rw [same first second alike]
  exact each first first second alike

/-- What is read is not about the nodes. -/
theorem read_rest {next : Program → Action α}
    (same : ∀ program nodes, next { program with nodes } = next program)
    (each : ∀ program, Oblivious (next program)) : Oblivious (get >>= next) :=
  read (fun _ _ ⟨_, _⟩ => same _ _) each

theorem ask {question : Program → Except Failure α}
    (same : ∀ first second, Alike first second → question second = question first) :
    Oblivious (Action.ask question) := by
  apply read
  · intro first second alike
    rw [same first second alike]
  · intro program
    cases question program with
    | ok answer => exact pure answer
    | error failure => exact throw failure

theorem ask_rest {question : Program → Except Failure α}
    (same : ∀ program nodes, question { program with nodes } = question program) :
    Oblivious (Action.ask question) :=
  ask fun _ _ ⟨_, _⟩ => same _ _

theorem require (checked : Except Fault Unit) : Oblivious (Action.require checked) := by
  cases checked with
  | ok => exact pure ()
  | error cause => exact throw (.fault cause)

theorem write {f : Program → Program}
    (keeps : ∀ first second, Alike first second → Alike (f first) (f second)) :
    Oblivious (modify f) :=
  fun first second alike => .ok () (keeps first second alike)

/-- What is written is not about the nodes. -/
theorem write_rest {f : Program → Program}
    (frame : ∀ program nodes, f { program with nodes } = { f program with nodes }) :
    Oblivious (modify f) := by
  apply write
  rintro first _ @⟨nodes, values, here, there⟩
  have kept := congrArg Program.nodes (frame first first.nodes)
  rw [frame first nodes]
  exact .intro (kept ▸ here) there

-- What follows the write stands in the statement so that the goal says what `f` is before
-- `frame` is looked at.
theorem write_rest_bind {f : Program → Program} {next : Unit → Action α}
    (frame : ∀ program nodes, f { program with nodes } = { f program with nodes })
    (rest : ∀ done, Oblivious (next done)) : Oblivious (modify f >>= next) :=
  (write_rest frame).bind rest

end Oblivious

/-! ## Each operation -/

namespace Program

open Oblivious

theorem oblivious_intern (text : String) : Oblivious (intern text) := by
  refine read_rest (fun _ _ => rfl) fun program => ?_
  split
  · exact write_rest_bind (fun _ _ => rfl) fun _ => pure _
  · exact throw _

theorem oblivious_freshVar : Oblivious freshVar := by
  refine read_rest (fun _ _ => rfl) fun program => ?_
  split
  · exact write_rest_bind (fun _ _ => rfl) fun _ => throw _
  · refine write_rest_bind (fun _ _ => rfl) fun _ => ?_
    split
    · exact throw _
    · exact write_rest_bind (fun _ _ => rfl) fun _ => pure _

theorem oblivious_requireUnbound (var : Var) : Oblivious (requireUnbound var) := by
  refine read_rest (fun _ _ => rfl) fun program => ?_
  split
  · exact throw _
  · exact pure ()

theorem oblivious_bind (var : Var) (entity : Entity) : Oblivious (Program.bind var entity) := by
  unfold Program.bind
  split
  · exact throw _
  · exact (oblivious_requireUnbound var).bind fun _ => write_rest fun _ _ => rfl

theorem oblivious_addSignature (entry : Signature) : Oblivious (addSignature entry) := by
  refine (oblivious_requireUnbound _).bind fun _ => ?_
  refine read_rest (fun _ _ => rfl) fun program => ?_
  refine write_rest_bind (fun _ _ => rfl) fun _ => ?_
  exact (oblivious_bind _ _).bind fun _ => pure _

theorem oblivious_addImport (entry : Import) : Oblivious (addImport entry) := by
  refine (oblivious_requireUnbound _).bind fun _ => ?_
  refine read_rest (fun _ _ => rfl) fun program => ?_
  refine write_rest_bind (fun _ _ => rfl) fun _ => ?_
  exact (oblivious_bind _ _).bind fun _ => pure _

theorem oblivious_addFunction (func : Func) : Oblivious (addFunction func) := by
  refine (oblivious_requireUnbound _).bind fun _ => ?_
  split
  · exact throw _
  · refine read_rest (fun _ _ => rfl) fun program => ?_
    refine write_rest_bind (fun _ _ => rfl) fun _ => ?_
    exact (oblivious_bind _ _).bind fun _ => pure _

theorem oblivious_addExport (entry : Export) : Oblivious (addExport entry) := by
  refine read_rest (fun _ _ => rfl) fun program => ?_
  dsimp only
  split
  · exact throw _
  · exact write_rest_bind (fun _ _ => rfl) fun _ => pure _

theorem oblivious_pushTableEntry (var : Var) : Oblivious (pushTableEntry var) :=
  write_rest fun _ _ => rfl

theorem oblivious_checkLabels (labels : List (Var × LabelRole)) (earlier : List Var) :
    Oblivious (checkLabels earlier labels) := by
  induction labels generalizing earlier with
  | nil => exact pure ()
  | cons declared rest ih =>
    refine (oblivious_requireUnbound _).bind fun _ => ?_
    split
    · exact throw _
    · exact ih _

theorem oblivious_bindLabels (id : NodeId) (labels : List (Var × LabelRole)) :
    Oblivious (bindLabels id labels) := by
  induction labels with
  | nil => exact pure ()
  | cons declared rest ih => exact (oblivious_bind _ _).bind fun _ => ih

theorem oblivious_node (id : NodeId) :
    Oblivious (Action.ask fun program => (program.node id).mapError .fault) :=
  ask fun _ _ alike => by rw [alike.node_eq]

theorem oblivious_registerLabels (id : NodeId) : Oblivious (registerLabels id) := by
  refine (oblivious_node id).bind fun node => ?_
  dsimp only
  split
  · exact throw _
  · exact (oblivious_checkLabels _ _).bind fun _ => oblivious_bindLabels id _

/-- Both arenas are full, or both hand out the number of nodes they hold. -/
theorem oblivious_alloc (node : Node) : Oblivious (alloc node) := by
  intro first second alike
  have same := alike.checkRoom_eq
  obtain ⟨cause, full, stops⟩ | ⟨room, goes⟩ := first.alloc_cases node
  · obtain ⟨_, fullToo, stopsToo⟩ | ⟨room, -⟩ := second.alloc_cases node
    · cases full.symm.trans (same.symm.trans fullToo)
      rw [stops, stopsToo]
      exact .error _ alike
    · cases full.symm.trans (same.symm.trans room)
  · obtain ⟨cause, full, -⟩ | ⟨roomToo, goesToo⟩ := second.alloc_cases node
    · cases room.symm.trans (same.symm.trans full)
    · rw [goes, goesToo, Arena.next, Arena.next, alike.size_eq]
      obtain ⟨here, there⟩ := alike
      exact .ok _ (.intro (here.push room node) (there.push roomToo node))

theorem oblivious_build (node : Node) : Oblivious (build node) := by
  rw [(builds_build node).eq_check]
  exact (require _).bind fun _ => oblivious_alloc node

theorem oblivious_copyNode (id : NodeId) : Oblivious (copyNode id) :=
  (oblivious_node id).bind oblivious_alloc

theorem oblivious_setNode (id : NodeId) (node : Node) : Oblivious (setNode id node) := by
  refine (oblivious_node id).bind fun _ => write ?_
  rintro first _ ⟨here, there⟩
  exact .intro (here.overwrite id node) (there.overwrite id node)

theorem oblivious_putChildren (id : NodeId) (ids : List NodeId) :
    Oblivious (putChildren id ids) :=
  (oblivious_node id).bind fun node => oblivious_setNode id (node.putChildren ids)

theorem oblivious_setFunction (index : Nat) (func : Func) : Oblivious (setFunction index func) :=
  (ask_rest fun _ _ => rfl).bind fun _ => write_rest fun _ _ => rfl

theorem oblivious_setBody (index : Nat) (body : NodeId) : Oblivious (setBody index body) :=
  (ask_rest fun _ _ => rfl).bind fun _ => oblivious_setFunction index _

end Program

namespace Request

open Oblivious Program

theorem oblivious_perform (request : Request) : Oblivious request.perform := by
  cases request with
  | intern text => exact (oblivious_intern text).map _
  | namedVar text => exact ((oblivious_intern text).bind fun _ => pure _).map _
  | freshVar => exact oblivious_freshVar.map _
  | bind var entity => exact (oblivious_bind var entity).bind fun _ => pure _
  | addSignature entry => exact (oblivious_addSignature entry).map _
  | addFunction func => exact (oblivious_addFunction func).map _
  | addImport entry => exact (oblivious_addImport entry).map _
  | addExport entry => exact (oblivious_addExport entry).map _
  | pushTableEntry var => exact (oblivious_pushTableEntry var).bind fun _ => pure _
  | registerLabels id => exact (oblivious_registerLabels id).bind fun _ => pure _
  | setFunction index func => exact (oblivious_setFunction index func).bind fun _ => pure _
  | setBody index body => exact (oblivious_setBody index body).bind fun _ => pure _
  | build value => exact (oblivious_build value).map _
  | alloc value => exact (oblivious_alloc value).map _
  | copyNode id => exact (oblivious_copyNode id).map _
  | nodeCount =>
    refine read (fun first second alike => ?_) fun program => pure _
    rw [Program.nodeCount, Program.nodeCount, alike.size_eq]
  | node id => exact (oblivious_node id).map _
  | setNode id value => exact (oblivious_setNode id value).bind fun _ => pure _
  | putChildren id ids => exact (oblivious_putChildren id ids).bind fun _ => pure _
  | walk root limit =>
    refine read (fun first second alike => ?_) fun program => pure _
    rw [Program.walk, Program.walk, alike.walkStack_eq]
  | _ => exact (ask_rest fun _ _ => rfl).map _

/-! ## Calls and runs -/

theorem step_of_alike {first second : Program} (alike : Alike first second) (request : Request) :
    (request.step first).1 = (request.step second).1 ∧
      Alike (request.step first).2 (request.step second).2 := by
  have agree := oblivious_perform request first second alike
  rw [step, step]
  generalize request.perform.run first = one, request.perform.run second = other at agree
  cases agree with
  | ok answer alike => exact ⟨rfl, alike⟩
  | error failure alike => exact ⟨rfl, alike⟩

theorem run_of_alike {first second : Program} (alike : Alike first second)
    (requests : List Request) :
    (run requests first).1 = (run requests second).1 ∧
      Alike (first.after requests) (second.after requests) := by
  induction requests generalizing first second with
  | nil => exact ⟨rfl, alike⟩
  | cons request rest ih =>
    obtain ⟨outcome, next⟩ := step_of_alike alike request
    obtain ⟨outcomes, last⟩ := ih next
    exact ⟨congrArg₂ List.cons outcome outcomes, last⟩

end Request

/-! ## Two chunk sizes -/

namespace Program

/-- **The chunk size is unobservable.**  From two configurations that are valid, with chunks
that can be reserved, programs are made that no sequence of calls tells apart: call by call
it gives back the same, a failure included, and the programs it leaves differ in how the
nodes lie in chunks and in nothing else.  They have the same nodes at the same handles. -/
theorem chunkSize_unobservable (first second : Config) (firstValid : first.validate = .ok ())
    (secondValid : second.validate = .ok ())
    (firstFits : (Arena.ofChunkSize first.chunkSize : Arena Node).reserved < blockLimit)
    (secondFits : (Arena.ofChunkSize second.chunkSize : Arena Node).reserved < blockLimit)
    (requests : List Request) :
    ∃ one other, ofConfig first = .ok one ∧ ofConfig second = .ok other ∧
      (Request.run requests one).1 = (Request.run requests other).1 ∧
      let left := one.after requests
      let right := other.after requests
      { right with nodes := left.nodes } = left ∧
      right.nodes.entries = left.nodes.entries ∧ right.nodes.size = left.nodes.size ∧
      (∀ id, right.nodes.get? id = left.nodes.get? id) ∧
      (∀ root limit, right.walk root limit = left.walk root limit) := by
  have holds (config : Config) (valid : config.validate = .ok ())
      (fits : (Arena.ofChunkSize config.chunkSize : Arena Node).reserved < blockLimit) :
      (Arena.ofChunkSize config.chunkSize : Arena Node).Holds [] :=
    Arena.holds_ofChunkSize ⟨Config.validate_eq_ok_iff.1 valid, fits⟩
  have alike : Alike (ofArena (.ofChunkSize first.chunkSize))
      (ofArena (.ofChunkSize second.chunkSize)) :=
    .intro (holds first firstValid firstFits) (holds second secondValid secondFits)
  obtain ⟨outcomes, last⟩ := Request.run_of_alike alike requests
  refine ⟨_, _, ?_, ?_, outcomes, last.rest_eq, last.entries_eq, last.size_eq, last.get?_eq, ?_⟩
  · rw [ofConfig, firstValid]
    rfl
  · rw [ofConfig, secondValid]
    rfl
  · intro root limit
    exact last.walkStack_eq limit [root] #[]

/-- One node in a chunk, or two: the calls go the same way, those that fail included, over
three chunks in one program and two in the other. -/
theorem chunkSize_unobservable_of_one_and_two_slots :
    let requests : List Request :=
      [.build .nop, .build (.block .unset [⟨0⟩, ⟨0⟩]), .registerLabels ⟨1⟩,
        .alloc (.loop (.index 2) (.index 2) ⟨1⟩), .putChildren ⟨1⟩ [⟨2⟩], .node ⟨3⟩, .walk ⟨2⟩ 4]
    (Config.mk 48).validate = .ok () ∧ (Config.mk 100).validate = .ok () ∧
    ∃ one other, ofConfig ⟨48⟩ = .ok one ∧ ofConfig ⟨100⟩ = .ok other ∧
      (Request.run requests one).1 = (Request.run requests other).1 ∧
      (one.after requests).nodes.chunkCount = 3 ∧ (other.after requests).nodes.chunkCount = 2 := by
  intro requests
  obtain ⟨one, other, made, madeToo, same, -⟩ :=
    chunkSize_unobservable ⟨48⟩ ⟨100⟩ rfl rfl (by decide +kernel) (by decide +kernel) requests
  refine ⟨rfl, rfl, one, other, made, madeToo, same, ?_, ?_⟩
  · obtain rfl : ofArena (.ofChunkSize 48) = one := Except.ok.inj made
    decide +kernel
  · obtain rfl : ofArena (.ofChunkSize 100) = other := Except.ok.inj madeToo
    decide +kernel

end Program

end TreeIR
