/-
# TreeIR.Proofs.Layout -- how the values of an arena lie in its chunks

An arena opens a chunk when the last one holds as many values as it was opened for, and it
compares for equality only.  That is enough: values come one at a time, so the count can not be
skipped over, and a chunk is opened for a value that goes into it at once, so none stays empty.
`Packed` is the invariant; counting the full chunks and the last one gives the sizes and how many
chunks there are (`Sound.laidOut`).  Every call keeps it, whether there is room or not
(`sound_step`), and so does every call that changes the nodes of a program.

A place is a chunk and a slot in it.  Since no chunk takes more than it was opened for, a value
never leaves its place: places are handles (`position_of_valueAt`), and what a call makes of the
value at a handle it makes of it in place (`get?_rewritten`).
-/
import TreeIR.Proofs.AppendOnly
import TreeIR.Proofs.NodeStore

namespace TreeIR

set_option autoImplicit false

namespace Arena

variable {α : Type}

/-! ## Counting -/

/-- The values fill chunks of `capacity` slots, one chunk after the other. -/
structure LaidOut (arena : Arena α) (capacity : Nat) : Prop where
  /-- Every chunk but the last is full. -/
  full : ∀ index chunk, arena.chunks[index]? = some chunk → index + 1 < arena.chunkCount →
    chunk.size = capacity
  holds : ∀ chunk ∈ arena.chunks, 0 < chunk.size
  fits : ∀ chunk ∈ arena.chunks, chunk.size ≤ capacity
  size_eq : arena.size = (arena.chunks.map Array.size).sum
  chunkCount_eq : arena.chunkCount = arena.size ⌈/⌉ capacity

theorem length_toList (arena : Arena α) :
    arena.toList.length = (arena.chunks.map Array.size).sum := by
  rw [toList, List.length_flatMap, ← Array.sum_toList, Array.toList_map]
  rfl

theorem sum_sizes_of_full {capacity : Nat} {full : Array (Array α)}
    (filled : ∀ chunk ∈ full, chunk.size = capacity) :
    (full.map Array.size).sum = full.size * capacity := by
  have sizes : ∀ size ∈ (full.map Array.size).toList, size = capacity := by
    intro size member
    obtain ⟨chunk, here, rfl⟩ := Array.mem_map.1 (Array.mem_toList_iff.1 member)
    exact filled chunk here
  rw [← Array.sum_toList, List.sum_eq_card_nsmul _ _ sizes]
  simp

/-- So many full chunks and one that holds something are one chunk more. -/
theorem ceilDiv_of_last {capacity last : Nat} (count : Nat) (holds : 0 < last)
    (fits : last ≤ capacity) : (count * capacity + last) ⌈/⌉ capacity = count + 1 := by
  rw [Nat.ceilDiv_eq_add_pred_div]
  apply Nat.div_eq_of_lt_le
  · rw [Nat.add_mul]
    omega
  · rw [Nat.add_mul, Nat.add_mul]
    omega

section Stored

variable [StoredSize α] {arena : Arena α}

/-- The chunks of a sound arena are filled in order. -/
theorem Sound.laidOut (sound : arena.Sound) : arena.LaidOut arena.perChunk := by
  have size_eq := sound.size_eq.trans arena.length_toList
  obtain unopened | ⟨full, last, grown, filled, holds, fits⟩ := sound.packed.eq_empty_or_grown
  · rw [unopened] at size_eq
    exact ⟨by simp [unopened], by simp [unopened], by simp [unopened], by simp [unopened, size_eq],
      by simp [chunkCount, unopened, size_eq]⟩
  · have members : ∀ chunk ∈ arena.chunks, chunk.size = arena.perChunk ∨ chunk = last := by
      intro chunk member
      obtain earlier | here := Array.mem_push.1 (grown ▸ member)
      · exact .inl (filled chunk earlier)
      · exact .inr here
    -- The full chunks and the last one, counted together, decide how many chunks there are.
    have total : arena.size = full.size * arena.perChunk + last.size := by
      rw [size_eq, grown, Array.map_push, Array.sum_push, sum_sizes_of_full filled]
    refine ⟨?_, ?_, ?_, size_eq, ?_⟩
    · intro index chunk found inner
      have earlier : index < full.size := by
        rw [chunkCount, grown, Array.size_push] at inner
        omega
      rw [grown, Array.getElem?_push_lt earlier] at found
      exact filled chunk (Array.mem_of_getElem? ((Array.getElem?_eq_getElem earlier).trans found))
    · intro chunk member
      rcases members chunk member with same | rfl
      · omega
      · exact holds
    · intro chunk member
      rcases members chunk member with same | rfl
      · exact Nat.le_of_eq same
      · exact fits
    · rw [total, ceilDiv_of_last full.size holds fits, chunkCount, grown, Array.size_push]

/-! ## Places -/

/-- The value in a slot of a chunk. -/
def valueAt (arena : Arena α) (chunk slot : Nat) : Option α :=
  arena.chunks[chunk]?.bind (·[slot]?)

/-- There is a value only in slots that a chunk was opened with. -/
theorem slot_lt_of_valueAt (sound : arena.Sound) {chunk slot : Nat} {value : α}
    (stored : arena.valueAt chunk slot = some value) : slot < arena.perChunk := by
  obtain ⟨values, opened, here⟩ := Option.bind_eq_some_iff.1 stored
  obtain ⟨inside, -⟩ := Array.getElem?_eq_some_iff.1 here
  exact Nat.lt_of_lt_of_le inside (sound.laidOut.fits values (Array.mem_of_getElem? opened))

/-- A slot of a chunk is a place in the list. -/
theorem valueAt_eq_getElem? (sound : arena.Sound) {slot : Nat} (inside : slot < arena.perChunk)
    (chunk : Nat) : arena.valueAt chunk slot = arena.toList[chunk * arena.perChunk + slot]? := by
  have positive : 0 < arena.perChunk := Nat.lt_of_le_of_lt (Nat.zero_le slot) inside
  have quotient : (chunk * arena.perChunk + slot) / arena.perChunk = chunk := by
    rw [Nat.add_comm, Nat.add_mul_div_right _ _ positive, Nat.div_eq_of_lt inside, Nat.zero_add]
  have remainder : (chunk * arena.perChunk + slot) % arena.perChunk = slot := by
    rw [Nat.add_comm, Nat.add_mul_mod_self_right, Nat.mod_eq_of_lt inside]
  rw [getElem?_toList sound, quotient, remainder, valueAt]

/-- A slot with a value in it is where a handle leads. -/
theorem position_of_valueAt (sound : arena.Sound) {chunk slot : Nat} {value : α}
    (stored : arena.valueAt chunk slot = some value) :
    (Handle.ofPosition (chunk * arena.perChunk + slot)).position =
      chunk * arena.perChunk + slot := by
  rw [valueAt_eq_getElem? sound (slot_lt_of_valueAt sound stored)] at stored
  obtain ⟨inside, -⟩ := List.getElem?_eq_some_iff.1 stored
  have bounded : arena.toList.length ≤ positionLimit := sound.size_eq ▸ sound.size_le
  exact Handle.position_ofPosition
    (Nat.lt_trans (Nat.lt_of_lt_of_le inside bounded) positionLimit_lt_words)

/-! ## Calls -/

/-- What is not there is not rewritten. -/
theorem rewrite_of_missing {handle other : Handle} {value : α} {command : Command α} {f : α → α}
    (writes : command = .change other f ∨ command = .write other f)
    (missing : arena.get? other = none) (found : arena.get? handle = some value) :
    command.rewrite handle value = value := by
  have elsewhere : other ≠ handle := by
    rintro rfl
    cases missing.symm.trans found
  rcases writes with rfl | rfl <;> exact if_neg elsewhere

/-- A call appends a value, overwrites one that is there, or leaves the arena alone. -/
theorem step_cases (command : Command α) (arena : Arena α) :
    (∃ value, command = .alloc value ∧ arena.checkRoom = .ok () ∧
      (command.step arena).2 = arena.push value) ∨
    (∃ handle f old, (command = .change handle f ∨ command = .write handle f) ∧
      arena.get? handle = some old ∧ (command.step arena).2 = arena.put handle (f old)) ∨
    ((command.step arena).2 = arena ∧
      ∀ handle value, arena.get? handle = some value → command.rewrite handle value = value) := by
  cases command with
  | alloc value =>
    cases room : arena.checkRoom with
    | ok => exact .inl ⟨value, rfl, rfl, congrArg Prod.snd (step_alloc_of_room room value)⟩
    | error cause =>
      exact .inr (.inr ⟨congrArg Prod.snd (step_alloc_of_full room value), fun _ _ _ => rfl⟩)
  | change handle f =>
    cases found : arena.get? handle with
    | some old => exact .inr (.inl ⟨handle, f, old, .inl rfl, found, by rw [Command.step, found]⟩)
    | none =>
      exact .inr (.inr ⟨by rw [Command.step, found],
        fun _ _ => rewrite_of_missing (.inl rfl) found⟩)
  | write handle f =>
    cases found : arena.get? handle with
    | some old =>
      exact .inr (.inl ⟨handle, f, old, .inr rfl, found,
        congrArg Prod.snd (step_write_of_some found f)⟩)
    | none =>
      exact .inr (.inr ⟨congrArg Prod.snd (step_write_of_none found f),
        fun _ _ => rewrite_of_missing (.inr rfl) found⟩)
  | read handle =>
    refine .inr (.inr ⟨?_, fun _ _ _ => rfl⟩)
    rw [Command.step]
    split <;> rfl
  | find _ | entries | size => exact .inr (.inr ⟨rfl, fun _ _ _ => rfl⟩)

/-- Whatever a call gives back, it leaves the chunks packed and as large as they were. -/
theorem sound_step (sound : arena.Sound) (command : Command α) :
    (command.step arena).2.Sound ∧ (command.step arena).2.chunkSize = arena.chunkSize := by
  rcases step_cases command arena with
    ⟨value, -, room, added⟩ | ⟨handle, f, old, -, -, written⟩ | ⟨kept, -⟩
  · rw [added]
    exact ⟨sound.push room value, chunkSize_push value⟩
  · rw [written]
    exact ⟨sound.put handle (f old), chunkSize_put handle (f old)⟩
  · rw [kept]
    exact ⟨sound, rfl⟩

/-- A call rewrites the value at a handle where it is. -/
theorem get?_rewritten {handle : Handle} {value : α} (found : arena.get? handle = some value)
    (command : Command α) :
    (command.step arena).2.get? handle = some (command.rewrite handle value) := by
  rcases step_cases command arena with
    ⟨new, rfl, -, added⟩ | ⟨written, f, old, writes, there, overwritten⟩ | ⟨kept, unwritten⟩
  · rw [added]
    exact get?_push_of_some found new
  · have rewrite : command.rewrite handle value = if written = handle then f value else value := by
      rcases writes with rfl | rfl <;> rfl
    rw [overwritten, get?_put, rewrite]
    by_cases here : handle = written
    · subst here
      cases found.symm.trans there
      rw [if_pos rfl, if_pos rfl, found]
      rfl
    · rw [if_neg here, if_neg (Ne.symm here), found]
  · rw [kept, unwritten handle value found, found]

/-! ## Runs -/

theorem sound_run (sound : arena.Sound) (commands : List (Command α)) :
    (Command.run Command.step commands arena).2.Sound ∧
      (Command.run Command.step commands arena).2.chunkSize = arena.chunkSize := by
  induction commands generalizing arena with
  | nil => exact ⟨sound, rfl⟩
  | cons command rest ih =>
    obtain ⟨next, same⟩ := sound_step sound command
    rw [Command.run_cons, ← same]
    exact ih next

theorem get?_run {handle : Handle} {value : α} (found : arena.get? handle = some value)
    (commands : List (Command α)) :
    (Command.run Command.step commands arena).2.get? handle =
      some (commands.foldl (fun value command => command.rewrite handle value) value) := by
  induction commands generalizing arena value with
  | nil => exact found
  | cons command rest ih => exact ih (get?_rewritten found command)

/-- A value stays in its slot of its chunk, where it is rewritten. -/
theorem valueAt_run (sound : arena.Sound) {chunk slot : Nat} {value : α}
    (stored : arena.valueAt chunk slot = some value) (commands : List (Command α)) :
    (Command.run Command.step commands arena).2.valueAt chunk slot =
      some (commands.foldl (fun value command =>
        command.rewrite (.ofPosition (chunk * arena.perChunk + slot)) value) value) := by
  have inside := slot_lt_of_valueAt sound stored
  have position := position_of_valueAt sound stored
  obtain ⟨soundAfter, same⟩ := sound_run sound commands
  have capacity : (Command.run Command.step commands arena).2.perChunk = arena.perChunk := by
    rw [perChunk, same, perChunk]
  have here := get?_eq_getElem? sound (.ofPosition (chunk * arena.perChunk + slot))
  have there := get?_eq_getElem? soundAfter (.ofPosition (chunk * arena.perChunk + slot))
  rw [position] at here there
  rw [valueAt_eq_getElem? sound inside, ← here] at stored
  rw [valueAt_eq_getElem? soundAfter (capacity ▸ inside), capacity, ← there]
  exact get?_run stored commands

end Stored

end Arena

/-! ## Programs -/

namespace Program

/-- The nodes of a program are laid out by the chunk size that it was created with. -/
theorem Created.laidOut {start : Program} (created : start.Created) (requests : List Request) :
    (start.after requests).nodes.LaidOut (start.nodes.chunkSize / slotSize Node) := by
  rw [← chunkSize_after start requests]
  exact (sound_after created.sound requests).laidOut

end Program

namespace Arena

variable {α : Type} [StoredSize α]

/-- **Chunks are filled in order and never beyond what they were opened for.**  For values of
every size, every chunk size that takes a slot and every sequence of calls, whether the calls
succeed or fail: every chunk but the last holds exactly as many values as slots fit into a chunk,
the last holds one at least and no more than that, the sizes of the chunks add up to the size of
the arena, and there are as many chunks as its size divided by the slots of a chunk, rounded up.
So no later call moves a value: it stays in its slot of its chunk, where only writing to it
changes it.  The nodes of a program, with a chunk size that was accepted or the default one, are
laid out in the same way, and their number decides how many chunks there are. -/
theorem chunks_laid_out (chunkSize : Nat) (fits : slotSize α ≤ chunkSize)
    (commands : List (Command α)) :
    let capacity := chunkSize / slotSize α
    let arena := after chunkSize commands
    0 < capacity ∧ arena.LaidOut capacity ∧ (arena.size = 0 → arena.chunkCount = 0) ∧
    (∀ chunk slot value, arena.valueAt chunk slot = some value → ∀ later,
      (after chunkSize (commands ++ later)).valueAt chunk slot =
        some (later.foldl (fun value command =>
          command.rewrite (.ofPosition (chunk * capacity + slot)) value) value)) ∧
    (∀ config start, Program.ofConfig config = .ok start → ∀ requests,
      let program := start.after requests
      program.nodes.LaidOut (config.chunkSize / slotSize Node) ∧
      program.nodes.chunkCount = program.nodeCount ⌈/⌉ (config.chunkSize / slotSize Node)) ∧
    ∀ requests, let program := Program.empty.after requests
      program.nodes.LaidOut (defaultChunkSize / slotSize Node) ∧
      program.nodes.chunkCount = program.nodeCount ⌈/⌉ (defaultChunkSize / slotSize Node) := by
  intro capacity arena
  obtain ⟨sound, same⟩ := sound_run (sound_ofChunkSize chunkSize) commands
  have sound : arena.Sound := sound
  have same : arena.perChunk = capacity := congrArg (· / slotSize α) same
  have laidOut : arena.LaidOut capacity := same ▸ sound.laidOut
  refine ⟨Nat.div_pos fits (slotSize_pos α), laidOut, ?_, ?_, ?_, ?_⟩
  · intro nothing
    rw [laidOut.chunkCount_eq, nothing, zero_ceilDiv]
  · intro chunk slot value stored later
    have stays := valueAt_run sound stored later
    rw [same] at stays
    rwa [after, Command.run_append]
  · intro config start made requests program
    obtain ⟨-, rfl⟩ := Program.ofConfig_eq_ok_iff.1 made
    have laid := Program.Created.laidOut (.inr ⟨config, made⟩) requests
    exact ⟨laid, laid.chunkCount_eq⟩
  · intro requests program
    have laid := Program.Created.laidOut (.inl rfl) requests
    exact ⟨laid, laid.chunkCount_eq⟩

/-- Two words to a chunk of 20 bytes: the second of four is rewritten in the last slot of the
first chunk, where it stays when another chunk is opened. -/
theorem chunks_laid_out_of_words :
    let commands : List (Command UInt64) := [.alloc 5, .alloc 6, .alloc 7]
    let later : List (Command UInt64) := [.change ⟨1⟩ (· + 1), .alloc 8, .alloc 9]
    slotSize UInt64 ≤ 20 ∧
    (after 20 commands).chunks = #[#[5, 6], #[7]] ∧
    (after 20 commands).LaidOut 2 ∧
    (after 20 (commands ++ later)).valueAt 0 1 = some 7 ∧
    (after 20 (commands ++ later)).chunkCount = 5 ⌈/⌉ 2 := by
  intro commands later
  obtain ⟨-, laidOut, -, stays, -⟩ := chunks_laid_out 20 (by decide) commands
  obtain ⟨-, last, -⟩ := chunks_laid_out 20 (by decide) (commands ++ later)
  have stored : (after 20 commands).valueAt 0 1 = some 6 := by decide
  refine ⟨by decide, by decide, laidOut, (stays 0 1 6 stored later).trans (by decide), ?_⟩
  exact last.chunkCount_eq

end Arena

end TreeIR
