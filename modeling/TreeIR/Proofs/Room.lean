/-
# TreeIR.Proofs.Room -- a valid configuration has room for every node

Two places look at the chunk size: validation, before a program exists, and every allocation.
They agree.  An arena whose chunks take less than one slot refuses its first value for just that
reason (`Arena.alloc_eq_oversizedSlot_iff`), and validation refuses just these sizes
(`Config.validate_eq_error_iff`).

Where one chunk can be reserved every chunk can: the chunk size never changes, and nothing else
decides (`reserves_after`).  What a program can run out of is handles.  As long as one is left, a
request that appends a node succeeds, unless it builds one that breaks the contract of its kind
(`step_of_adds`), and the node is found at its handle from then on.  A chunk must not be so large
that no memory could be reserved for it; then nothing is ever stored (`Created.checkRoom_of_huge`).
-/
import TreeIR.Config.File
import TreeIR.Proofs.AppendOnly
import TreeIR.Proofs.NodeStore

namespace TreeIR

set_option autoImplicit false

/-! ## Two checks -/

/-- The cause is that a chunk has no room for a value, or that there is none for a chunk. -/
def Fault.isLackOfRoom : Fault → Bool
  | oversizedSlot _ _ | oversizedChunk => true
  | _ => false

namespace Arena

variable {α : Type} [StoredSize α]

/-- The first value is refused for its size exactly if a chunk takes less than its slot. -/
theorem alloc_eq_oversizedSlot_iff {chunkSize : Nat} {value : α} :
    (ofChunkSize chunkSize).alloc value = .error (.oversizedSlot (slotSize α) chunkSize) ↔
      chunkSize < slotSize α := by
  constructor
  · intro refused
    by_contra large
    have fits : slotSize α ≤ chunkSize := Nat.not_lt.1 large
    by_cases reservable : chunkSize / slotSize α * StoredSize.bytes α < blockLimit
    · have room : (ofChunkSize chunkSize : Arena α).checkRoom = .ok () :=
        checkRoom_eq_ok_iff.2 ⟨⟨fits, reservable⟩, by show 0 < positionLimit; decide⟩
      rw [alloc, room] at refused
      cases refused
    · rw [alloc, checkRoom_of_huge fits (Nat.not_lt.1 reservable)] at refused
      cases refused
  · intro small
    rw [alloc, checkRoom_of_small small]
    rfl

end Arena

namespace Config

variable {config : Config}

theorem validate_eq_error_iff {error : ConfigError} :
    config.validate = .error error ↔
      error = .chunkTooSmall config.chunkSize (slotSize Node) ∧
      config.chunkSize < slotSize Node := by
  unfold validate
  split <;> simp_all [eq_comm]

/-- What is read from a text was validated. -/
theorem validate_of_ofText {codec : Toml.Codec} {source : String}
    (read : ofText codec source = .ok config) : config.validate = .ok () := by
  cases understood : (codec.read? source).bind (ofDocument? codec) with
  | none =>
    rw [ofText, understood] at read
    cases read
  | some found =>
    rw [ofText_of_document understood] at read
    cases valid : found.validate with
    | error cause =>
      rw [valid] at read
      cases read
    | ok =>
      rw [valid] at read
      cases read
      exact valid

/-- So was what is read from a file. -/
theorem validate_of_load {codec : Toml.Codec} {contents : Option ByteArray}
    (loaded : load codec contents = .ok config) : config.validate = .ok () := by
  unfold load at loaded
  split at loaded
  · cases loaded
  · split at loaded
    · cases loaded
    · exact validate_of_ofText loaded

end Config

/-! ## Room in a run -/

theorem Fault.ensure_eq_error_iff {condition : Bool} {fault cause : Fault} :
    ensure condition fault = .error cause ↔ condition = false ∧ cause = fault := by
  unfold ensure
  split <;> simp_all [eq_comm]

namespace Node

variable {node : Node} {cause : Fault}

/-- Of two checks in a row the first that fails is the one that counts. -/
theorem checks_eq_error_iff {first rest : Except Fault Unit} :
    (do first; rest) = .error cause ↔
      first = .error cause ∨ first = .ok () ∧ rest = .error cause := by
  cases first <;> simp [Bind.bind, Except.bind]

theorem isLackOfRoom_of_checkAccess {type : ValueType} {bytes align : UInt32}
    (broken : checkAccess type bytes align = .error cause) : cause.isLackOfRoom = false := by
  simp only [checkAccess, checks_eq_error_iff, Fault.ensure_eq_error_iff] at broken
  rcases broken with ⟨-, rfl⟩ | ⟨-, ⟨-, rfl⟩ | ⟨-, -, rfl⟩⟩ <;> rfl

/-- No contract of a node is about room. -/
theorem isLackOfRoom_of_check (broken : node.check = .error cause) :
    cause.isLackOfRoom = false := by
  have ensured {condition : Bool} {fault : Fault} (other : fault.isLackOfRoom = false)
      (refused : Fault.ensure condition fault = .error cause) : cause.isLackOfRoom = false := by
    obtain ⟨-, rfl⟩ := Fault.ensure_eq_error_iff.1 refused
    exact other
  cases node with
  | loop exitLabel continueLabel body => exact ensured rfl broken
  | branch target condition => exact ensured rfl broken
  | unary op type value => exact ensured rfl broken
  | binary op type left right => exact ensured rfl broken
  | compare op type left right => exact ensured rfl broken
  | load type bytes signed offset align ptr =>
    rcases checks_eq_error_iff.1 broken with access | ⟨-, sign⟩
    · exact isLackOfRoom_of_checkAccess access
    · exact ensured rfl sign
  | store type bytes offset align ptr value => exact isLackOfRoom_of_checkAccess broken
  | _ => cases broken

end Node

namespace Program

variable {program : Program}

/-- Chunks can be reserved after a run exactly if they could be before it. -/
theorem reserves_after (program : Program) (requests : List Request) :
    (program.after requests).nodes.Reserves ↔ program.nodes.Reserves :=
  Arena.Reserves.congr (chunkSize_after program requests)

/-- A request that appends a node fails if it builds one that breaks the contract of its kind, or
if there is no room, and else succeeds. -/
theorem step_of_adds {request : Request} {node : Node} (adds : request.adds? program = some node) :
    (∃ cause, request = .build node ∧ node.check = .error cause ∧
      request.step program = (.error (.fault cause), program)) ∨
    (∃ cause, (request = .build node → node.check = .ok ()) ∧
      program.nodes.checkRoom = .error cause ∧
      request.step program = (.error (.fault cause), program)) ∨
    ((request = .build node → node.check = .ok ()) ∧ program.nodes.checkRoom = .ok () ∧
      request.step program =
        (.ok (.id program.nodes.next), { program with nodes := program.nodes.push node })) := by
  cases request with
  | build value =>
    cases adds
    rcases (builds_build node).cases program with
      ⟨cause, broken, stops⟩ | ⟨cause, kept, full, stops⟩ | ⟨kept, room, goes⟩
    · exact .inl ⟨cause, rfl, broken, Request.step_of_error rfl stops⟩
    · exact .inr (.inl ⟨cause, fun _ => kept, full, Request.step_of_error rfl stops⟩)
    · exact .inr (.inr ⟨fun _ => kept, room, Request.step_of_ok rfl goes⟩)
  | alloc value =>
    cases adds
    have other (same : Request.alloc node = .build node) : node.check = .ok () := by cases same
    rcases program.alloc_cases node with ⟨cause, full, stops⟩ | ⟨room, goes⟩
    · exact .inr (.inl ⟨cause, other, full, Request.step_of_error rfl stops⟩)
    · exact .inr (.inr ⟨other, room, Request.step_of_ok rfl goes⟩)
  | copyNode id =>
    have found : program.node id = .ok node := node_eq_ok_iff.2 adds
    have other (same : Request.copyNode id = .build node) : node.check = .ok () := by cases same
    rcases program.alloc_cases node with ⟨cause, full, stops⟩ | ⟨room, goes⟩
    · have stops : (copyNode id).run program = .error (.fault cause) program := by
        simp [copyNode, Action.ask, found, Except.mapError, stops]
      exact .inr (.inl ⟨cause, other, full, Request.step_of_error rfl stops⟩)
    · have goes : (copyNode id).run program =
          .ok program.nodes.next { program with nodes := program.nodes.push node } := by
        simp [copyNode, Action.ask, found, Except.mapError, goes]
      exact .inr (.inr ⟨other, room, Request.step_of_ok rfl goes⟩)
  | _ => cases adds

/-- A node that is appended is found at its handle, with what later requests make of it. -/
theorem node_of_added (sound : program.nodes.Sound) (room : program.nodes.checkRoom = .ok ())
    {request : Request} {node : Node}
    (step : request.step program =
      (.ok (.id program.nodes.next), { program with nodes := program.nodes.push node }))
    (later : List Request) :
    (program.after (request :: later)).node program.nodes.next =
      .ok (later.foldl (fun kept request => request.editNode program.nodes.next kept) node) := by
  rw [after_cons, step, node_eq_ok_iff]
  apply get?_edited_after
  rw [Arena.get?_push sound room, if_pos rfl]

/-! ## Configurations -/

theorem ofConfig_eq (config : Config) :
    ofConfig config = config.validate.map fun _ => ofArena (.ofChunkSize config.chunkSize) := by
  rw [ofConfig]
  cases config.validate <;> rfl

/-- The default chunk size takes a node without being validated. -/
theorem Created.slot_fits {start : Program} (created : start.Created) :
    slotSize Node ≤ start.nodes.chunkSize := by
  rcases created with rfl | ⟨config, made⟩
  · decide
  · obtain ⟨valid, rfl⟩ := ofConfig_eq_ok_iff.1 made
    exact Config.validate_eq_ok_iff.1 valid

/-- A chunk that can be reserved once can be reserved in every state. -/
theorem Created.reserves {start : Program} (created : start.Created)
    (fits : start.nodes.reserved < blockLimit) (requests : List Request) :
    (start.after requests).nodes.Reserves :=
  (reserves_after start requests).2 ⟨created.slot_fits, fits⟩

/-- Without a chunk nothing is stored. -/
theorem size_after_of_roomless {start : Program} (roomless : ¬start.nodes.Reserves)
    (requests : List Request) : (start.after requests).nodes.size = start.nodes.size := by
  refine (after_of_step (motive := fun reached =>
    ¬reached.nodes.Reserves ∧ reached.nodes.size = start.nodes.size) ⟨roomless, rfl⟩ ?_).2
  rintro request before - ⟨roomless, size⟩
  refine ⟨mt (Arena.Reserves.congr (chunkSize_step request before)).1 roomless, ?_⟩
  rcases nodes_cases request before with
    kept | ⟨node, -, room, -, -⟩ | ⟨id, old, node, -, -, overwritten⟩
  · rw [kept, size]
  · exact absurd (Arena.checkRoom_eq_ok_iff.1 room).1 roomless
  · rw [overwritten, Arena.size_put, size]

/-- A chunk that can not be reserved is never reserved. -/
theorem Created.checkRoom_of_huge {start : Program} (created : start.Created)
    (huge : blockLimit ≤ start.nodes.reserved) (requests : List Request) :
    (start.after requests).nodes.checkRoom = .error .oversizedChunk := by
  have roomless : ¬start.nodes.Reserves := fun reserves => Nat.not_lt.2 huge reserves.2
  have chunkSize := chunkSize_after start requests
  have left : (start.after requests).nodes.size < positionLimit := by
    rw [size_after_of_roomless roomless, created.size_eq]
    decide
  have fits : slotSize Node ≤ (start.after requests).nodes.chunkSize :=
    chunkSize ▸ created.slot_fits
  have refused : ¬(start.after requests).nodes.reserved < blockLimit := by
    rw [Arena.reserved, Arena.perChunk, chunkSize]
    exact Nat.not_lt.2 huge
  simp [Arena.checkRoom, Fault.ensure, fits, left, refused, Bind.bind, Except.bind]

/-- **Validation is the limit of the arena.**  A configuration is refused, and then for its chunk
size, exactly if an arena of that chunk size refuses its first node because a chunk has no room
for it.  From a configuration that is accepted, with chunks that can be reserved, and from the
default one, no run ever lacks room in a chunk: a request that appends a node fails only if it
builds one that breaks the contract of its kind or if there are no more handles, and otherwise the
node is found at the handle it got, there and ever after.  What is read from a text or a file is
accepted. -/
theorem validate_iff_room (config : Config) :
    (∀ (node : Node) error, config.validate = .error error ↔
      error = .chunkTooSmall config.chunkSize (slotSize Node) ∧
      (Arena.ofChunkSize config.chunkSize).alloc node =
        .error (.oversizedSlot (slotSize Node) config.chunkSize)) ∧
    ofConfig config = config.validate.map (fun _ => ofArena (.ofChunkSize config.chunkSize)) ∧
    (∀ start, (start = empty ∨ ofConfig config = .ok start ∧
        (Arena.ofChunkSize config.chunkSize : Arena Node).reserved < blockLimit) →
      ∀ earlier request node, let before := start.after earlier
        request.adds? before = some node →
        (∀ failure, (request.step before).1 = .error failure → ∃ cause,
          failure = .fault cause ∧ cause.isLackOfRoom = false ∧
          (request = .build node ∧ node.check = .error cause ∨
            cause = .arenaFull ∧ before.nodeCount = positionLimit)) ∧
        (before.nodeCount < positionLimit → (request = .build node → node.check = .ok ()) →
          (request.step before).1 = .ok (.id before.nodes.next) ∧
          ∀ later, (start.after (earlier ++ request :: later)).node before.nodes.next =
            .ok (later.foldl (fun kept request => request.editNode before.nodes.next kept)
              node))) ∧
    (∀ codec source, Config.ofText codec source = .ok config → config.validate = .ok ()) ∧
    (∀ codec contents, Config.load codec contents = .ok config → config.validate = .ok ()) := by
  refine ⟨?_, ofConfig_eq config, ?_, fun _ _ => Config.validate_of_ofText,
    fun _ _ => Config.validate_of_load⟩
  · intro node error
    rw [Config.validate_eq_error_iff, Arena.alloc_eq_oversizedSlot_iff]
  · intro start made earlier request node before adds
    have created : start.Created := by
      rcases made with rfl | ⟨made, -⟩
      · exact .inl rfl
      · exact .inr ⟨config, made⟩
    have reservable : start.nodes.reserved < blockLimit := by
      rcases made with rfl | ⟨made, fits⟩
      · decide
      · obtain ⟨-, rfl⟩ := ofConfig_eq_ok_iff.1 made
        exact fits
    have reserves : before.nodes.Reserves := created.reserves reservable earlier
    have sound : before.nodes.Sound := sound_after created.sound earlier
    rcases step_of_adds adds with
      ⟨cause, builds, broken, step⟩ | ⟨cause, -, full, step⟩ | ⟨-, room, step⟩
    · refine ⟨?_, fun _ keeps => ?_⟩
      · intro failure failed
        cases (congrArg Prod.fst step).symm.trans failed
        exact ⟨cause, rfl, Node.isLackOfRoom_of_check broken, .inl ⟨builds, broken⟩⟩
      · cases (keeps builds).symm.trans broken
    · rw [reserves.checkRoom_eq, Fault.ensure_eq_error_iff, decide_eq_false_iff_not] at full
      obtain ⟨full, rfl⟩ := full
      refine ⟨?_, fun left => absurd left full⟩
      intro failure failed
      cases (congrArg Prod.fst step).symm.trans failed
      exact ⟨_, rfl, rfl, .inr ⟨rfl, Nat.le_antisymm sound.size_le (Nat.not_lt.1 full)⟩⟩
    · refine ⟨fun failure failed => ?_, fun _ _ => ⟨congrArg Prod.fst step, fun later => ?_⟩⟩
      · cases (congrArg Prod.fst step).symm.trans failed
      · rw [after_append]
        exact node_of_added sound room step later

/-- Two nodes to a chunk: the third opens another and is found there, also when it was rewired.
Chunks of 47 bytes are refused by validation and by the arena. -/
theorem validate_iff_room_of_two_slots :
    let earlier : List Request := [.build .nop, .alloc .nop]
    let block : Node := .block .unset [⟨0⟩, ⟨1⟩]
    let start := ofArena (.ofChunkSize 100)
    ofConfig ⟨100⟩ = .ok start ∧
    (Arena.ofChunkSize 100 : Arena Node).reserved < blockLimit ∧
    ((Request.build block).step (start.after earlier)).1 = .ok (.id ⟨2⟩) ∧
    (start.after (earlier ++ [.build block, .putChildren ⟨2⟩ [⟨1⟩, ⟨0⟩]])).node ⟨2⟩ =
      .ok (.block .unset [⟨1⟩, ⟨0⟩]) ∧
    (Arena.ofChunkSize 47).alloc Node.nop = .error (.oversizedSlot 48 47) := by
  intro earlier block start
  have made : ofConfig ⟨100⟩ = .ok start := rfl
  have fits : (Arena.ofChunkSize 100 : Arena Node).reserved < blockLimit := by decide
  have next : (start.after earlier).nodes.next = ⟨2⟩ := by decide +kernel
  obtain ⟨-, -, roomy, -⟩ := validate_iff_room ⟨100⟩
  obtain ⟨-, built⟩ := roomy start (.inr ⟨made, fits⟩) earlier (.build block) block rfl
  obtain ⟨answers, stays⟩ := built (by decide +kernel) fun _ => rfl
  rw [next] at answers stays
  obtain ⟨limit, -⟩ := validate_iff_room ⟨47⟩
  exact ⟨made, fits, answers, stays [.putChildren ⟨2⟩ [⟨1⟩, ⟨0⟩]], ((limit .nop _).1 rfl).2⟩

end Program

end TreeIR
