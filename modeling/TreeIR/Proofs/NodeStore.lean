/-
# TreeIR.Proofs.NodeStore -- what calls do to the nodes

Of all that a call can do, three things concern the nodes: it leaves them alone, it appends
one (`Request.adds?`), or it overwrites one that exists (`Request.overwrites?`).
`nodes_cases` is `Request.outcome` read for the nodes, and an invariant of the node store is
a case analysis over it.  For a single node it says what becomes of it (`get?_step`) and where
it comes from (`get?_of_step`).

The first such invariant is that the chunks of the arena are packed: every program that
calls have made of a created one has a sound arena (`sound_after`).  Handles stay valid in
every program, packed or not: a call makes of the node at a handle what `Request.editNode`
says (`get?_edited`), and where no request of a run writes, the run leaves it as it is
(`get?_after_of_elsewhere`).
-/
import TreeIR.Proofs.Chunks
import TreeIR.Proofs.Run

namespace TreeIR

set_option autoImplicit false

namespace Request

/-- The node that a request appends if it succeeds. -/
def adds? (program : Program) : Request → Option Node
  | build value | alloc value => some value
  | copyNode id => program.nodes.get? id
  | _ => none

/-- The node that a request overwrites if it is there, and what it writes. -/
def overwrites? (program : Program) : Request → Option (NodeId × Node)
  | setNode id value => some (id, value)
  | putChildren id ids => (program.nodes.get? id).map fun old => (id, old.putChildren ids)
  | _ => none

/-- The handle that a request writes to, whether a node is there or not. -/
def writes? : Request → Option NodeId
  | setNode id _ | putChildren id _ => some id
  | _ => none

/-- What a request makes of the node that is at a handle. -/
def editNode (request : Request) (id : NodeId) (node : Node) : Node :=
  match request with
  | setNode written value => if written = id then value else node
  | putChildren written ids => if written = id then node.putChildren ids else node
  | _ => node

/-- A request that overwrites no node, or one in its child slots only. -/
def Rewires (request : Request) (program : Program) : Prop :=
  ∀ id old node, request.overwrites? program = some (id, node) →
    program.nodes.get? id = some old → ∃ f, node = old.mapChildren f

theorem writes?_of_overwrites? {request : Request} {program : Program} {id : NodeId} {node : Node}
    (overwrites : request.overwrites? program = some (id, node)) : request.writes? = some id := by
  cases request with
  | setNode written value =>
    cases overwrites
    rfl
  | putChildren written ids =>
    obtain ⟨old, -, same⟩ := Option.map_eq_some_iff.1 overwrites
    cases same
    rfl
  | _ => cases overwrites

theorem editNode_of_writes?_ne {request : Request} {id : NodeId} {node : Node}
    (elsewhere : request.writes? ≠ some id) : request.editNode id node = node := by
  cases request with
  | setNode written value => exact if_neg fun here => elsewhere (congrArg some here)
  | putChildren written ids => exact if_neg fun here => elsewhere (congrArg some here)
  | _ => rfl

theorem rewires_of_none {request : Request} {program : Program}
    (overwrites : request.overwrites? program = none) : request.Rewires program := by
  intro id old node same
  cases overwrites.symm.trans same

theorem rewires_putChildren (id : NodeId) (ids : List NodeId) (program : Program) :
    (putChildren id ids).Rewires program := by
  intro written old node overwrites found
  obtain ⟨stored, there, same⟩ := Option.map_eq_some_iff.1 overwrites
  cases same
  cases found.symm.trans there
  exact ⟨_, rfl⟩

end Request

namespace Program

variable {program : Program} {id : NodeId} {node : Node}

theorem node_eq_ok_iff : program.node id = .ok node ↔ program.nodes.get? id = some node := by
  rw [Program.node, Arena.get]
  cases program.nodes.get? id <;> simp

/-- A call leaves the nodes alone, appends one or overwrites one. -/
theorem nodes_cases (request : Request) (program : Program) :
    (request.step program).2.nodes = program.nodes ∨
    (∃ node, request.adds? program = some node ∧ program.nodes.checkRoom = .ok () ∧
      (request.step program).1 = .ok (.id program.nodes.next) ∧
      (request.step program).2.nodes = program.nodes.push node) ∨
    (∃ id old node, request.overwrites? program = some (id, node) ∧
      program.nodes.get? id = some old ∧
      (request.step program).2.nodes = program.nodes.put id node) := by
  cases request.outcome program with
  | failed step =>
    rw [step]
    exact .inl rfl
  | stuck mints why step =>
    rw [step]
    exact .inl rfl
  | succeeded effect step =>
    rw [step]
    cases effect with
    | built kept room => exact .inr (.inl ⟨_, rfl, room, rfl, rfl⟩)
    | allocated node room => exact .inr (.inl ⟨_, rfl, room, rfl, rfl⟩)
    | copied found room => exact .inr (.inl ⟨_, node_eq_ok_iff.1 found, room, rfl, rfl⟩)
    | changedNode found node =>
      exact .inr (.inr ⟨_, _, _, rfl, node_eq_ok_iff.1 found, rfl⟩)
    | changedChildren found ids =>
      have stored := node_eq_ok_iff.1 found
      refine .inr (.inr ⟨_, _, _, ?_, stored, rfl⟩)
      rw [Request.overwrites?, stored]
      rfl
    | _ => exact .inl rfl

/-- A node stays as it is unless the call overwrites it. -/
theorem get?_step (found : program.nodes.get? id = some node) (request : Request) :
    (request.step program).2.nodes.get? id = some node ∨
    ∃ other, request.overwrites? program = some (id, other) ∧
      (request.step program).2.nodes.get? id = some other := by
  obtain kept | ⟨new, -, -, -, added⟩ | ⟨written, old, new, overwrites, -, overwritten⟩ :=
    nodes_cases request program
  · rw [kept]
    exact .inl found
  · rw [added, Arena.get?_push_of_some found]
    exact .inl rfl
  · rw [overwritten, Arena.get?_put]
    by_cases here : id = written
    · subst here
      rw [if_pos rfl, found]
      exact .inr ⟨new, overwrites, rfl⟩
    · rw [if_neg here]
      exact .inl found

/-- A write to a node that is there succeeds, and what it makes of the node takes its place. -/
theorem step_of_writes (found : program.nodes.get? id = some node) {request : Request}
    (writes : request.writes? = some id) :
    request.step program = (.ok .done,
      { program with nodes := program.nodes.put id (request.editNode id node) }) := by
  have stored : program.node id = .ok node := node_eq_ok_iff.2 found
  cases request with
  | setNode written value =>
    cases writes
    obtain ⟨cause, unknown, -⟩ | ⟨old, -, goes⟩ := program.setNode_cases id value
    · cases unknown.symm.trans stored
    · rw [Request.step_of_done rfl goes, Request.editNode, if_pos rfl]
  | putChildren written ids =>
    cases writes
    obtain ⟨cause, unknown, -⟩ | ⟨old, there, goes⟩ := program.putChildren_cases id ids
    · cases unknown.symm.trans stored
    · cases there.symm.trans stored
      rw [Request.step_of_done rfl goes, Request.editNode, if_pos rfl]
  | _ => cases writes

/-- In any program whatever, a node that is there is there after a call, and the call has made of
it what it makes of the node at that handle. -/
theorem get?_edited (found : program.nodes.get? id = some node) (request : Request) :
    (request.step program).2.nodes.get? id = some (request.editNode id node) := by
  by_cases writes : request.writes? = some id
  · rw [step_of_writes found writes, Arena.get?_put, if_pos rfl, found]
    rfl
  · rw [Request.editNode_of_writes?_ne writes]
    obtain same | ⟨new, -, -, -, added⟩ | ⟨written, old, new, overwrites, -, overwritten⟩ :=
      nodes_cases request program
    · rw [same, found]
    · rw [added, Arena.get?_push_of_some found]
    · have elsewhere : id ≠ written := by
        rintro rfl
        exact writes (Request.writes?_of_overwrites? overwrites)
      rw [overwritten, Arena.get?_put, if_neg elsewhere, found]

/-- The node at a handle is what the requests of the run have made of it. -/
theorem get?_edited_after (found : program.nodes.get? id = some node) (requests : List Request) :
    (program.after requests).nodes.get? id =
      some (requests.foldl (fun node request => request.editNode id node) node) :=
  edited_after (fun program => program.nodes.get? id) _ get?_edited found requests

/-- Where no request of a run writes, the node stays as it is. -/
theorem get?_after_of_elsewhere (found : program.nodes.get? id = some node)
    {requests : List Request}
    (elsewhere : ∀ request ∈ requests, request.writes? ≠ some id) :
    (program.after requests).nodes.get? id = some node := by
  rw [get?_edited_after found]
  congr 1
  refine List.foldlRecOn requests _ (motive := (· = node)) rfl ?_
  rintro kept rfl request member
  exact Request.editNode_of_writes?_ne (elsewhere request member)

/-- A node that is there after a call was there before, was appended or overwrote another. -/
theorem get?_of_step (sound : program.nodes.Sound) {request : Request}
    (found : (request.step program).2.nodes.get? id = some node) :
    program.nodes.get? id = some node ∨
    (request.adds? program = some node ∧ id = program.nodes.next ∧
      (request.step program).1 = .ok (.id id)) ∨
    ∃ old, request.overwrites? program = some (id, node) ∧ program.nodes.get? id = some old := by
  obtain kept | ⟨new, adds, room, succeeds, added⟩ |
    ⟨written, old, new, overwrites, stored, overwritten⟩ := nodes_cases request program
  · rw [kept] at found
    exact .inl found
  · rw [added, Arena.get?_push sound room] at found
    split at found
    · rename_i here
      cases found
      exact .inr (.inl ⟨adds, here, here ▸ succeeds⟩)
    · exact .inl found
  · rw [overwritten, Arena.get?_put] at found
    split at found
    · rename_i here
      rw [stored] at found
      cases found
      exact .inr (.inr ⟨old, here ▸ overwrites, here ▸ stored⟩)
    · exact .inl found

/-- No call changes the chunk size. -/
theorem chunkSize_step (request : Request) (program : Program) :
    (request.step program).2.nodes.chunkSize = program.nodes.chunkSize := by
  rcases nodes_cases request program with
    kept | ⟨node, -, -, -, added⟩ | ⟨id, _, node, -, -, written⟩
  · rw [kept]
  · rw [added, Arena.chunkSize_push]
  · rw [written, Arena.chunkSize_put]

theorem chunkSize_after (program : Program) (requests : List Request) :
    (program.after requests).nodes.chunkSize = program.nodes.chunkSize :=
  after_of_step (motive := fun reached => reached.nodes.chunkSize = program.nodes.chunkSize) rfl
    fun request before _ same => (chunkSize_step request before).trans same

/-- Calls keep the arena sound, failed ones included. -/
theorem sound_step (sound : program.nodes.Sound) (request : Request) :
    (request.step program).2.nodes.Sound := by
  obtain kept | ⟨node, -, room, -, added⟩ | ⟨id, old, node, -, -, overwritten⟩ :=
    nodes_cases request program
  · rw [kept]
    exact sound
  · rw [added]
    exact sound.push room node
  · rw [overwritten]
    exact sound.put id node

theorem Created.sound (created : program.Created) : program.nodes.Sound := by
  obtain ⟨chunkSize, rfl⟩ := created.eq_ofArena
  exact Arena.sound_ofChunkSize chunkSize

/-- A created program has no node. -/
theorem Created.size_eq (created : program.Created) : program.nodes.size = 0 := by
  obtain ⟨chunkSize, rfl⟩ := created.eq_ofArena
  rfl

theorem Created.get?_eq_none (created : program.Created) (id : NodeId) :
    program.nodes.get? id = none := by
  obtain ⟨chunkSize, rfl⟩ := created.eq_ofArena
  simp [ofArena, Arena.get?, Arena.ofChunkSize]

theorem sound_after (sound : program.nodes.Sound) (requests : List Request) :
    (program.after requests).nodes.Sound :=
  after_of_step (motive := fun reached => reached.nodes.Sound) sound
    fun request _ _ sound => sound_step sound request

end Program

end TreeIR
