/-
# TreeIR.Proofs.AppendOnly -- an arena behaves as a list that grows at its end

`Command` is a call of the interface of an arena.  It is carried out twice: `step` on the
arena, by address arithmetic over chunks, and `onList` on a plain list, which says what the
call means.  Where there is room, an arena that `Holds` a list answers as the list does and
holds what becomes of the list (`step_of_holds`), so whole runs agree (`run_of_holds`).

What handles are worth is then a matter of lists: allocation hands out the positions from
0 on in order (`handedOut_run`), and a position keeps leading to the value last written
there (`getElem?_run`).

The list has room for `positionLimit` values.  Beyond that an arena can lack room in two ways,
which its chunk size decides: not one slot fits into a chunk, or a chunk is larger than any block
of memory.  Either way nothing is ever stored and every other call answers as on the empty list
(`run_of_roomless`).
-/
import TreeIR.Proofs.Chunks

namespace TreeIR

set_option autoImplicit false

namespace Arena

variable {α : Type}

/-! ## Calls -/

/-- A call of the interface of an arena. -/
inductive Command (α : Type)
  | alloc (value : α)
  /-- Reads at a handle that may lead nowhere. -/
  | find (handle : Handle)
  /-- Changes the value at a handle that may lead nowhere. -/
  | change (handle : Handle) (f : α → α)
  /-- Reads at a handle that has to lead somewhere. -/
  | read (handle : Handle)
  /-- Changes the value at a handle that has to lead somewhere. -/
  | write (handle : Handle) (f : α → α)
  | entries
  | size

/-- What a call gives back. -/
inductive Reply (α : Type)
  | handle (handle : Handle)
  | found (value : Option α)
  | value (value : α)
  | done
  | entries (entries : List (Handle × α))
  | size (size : Nat)
  deriving DecidableEq, Repr

namespace Command

/-- Carries out a call on an arena. -/
def step [StoredSize α] : Command α → Arena α → Except Fault (Reply α) × Arena α
  | alloc value, arena =>
      match arena.alloc value with
      | .ok (handle, next) => (.ok (.handle handle), next)
      | .error cause => (.error cause, arena)
  | find handle, arena => (.ok (.found (arena.get? handle)), arena)
  | change handle f, arena =>
      match arena.get? handle with
      | some old => (.ok (.found (some old)), arena.put handle (f old))
      | none => (.ok (.found none), arena)
  | read handle, arena =>
      match arena.get handle with
      | .ok value => (.ok (.value value), arena)
      | .error cause => (.error cause, arena)
  | write handle f, arena =>
      match (do arena.set handle (f (← arena.get handle)) : Except Fault (Arena α)) with
      | .ok next => (.ok .done, next)
      | .error cause => (.error cause, arena)
  | entries, arena => (.ok (.entries arena.entries), arena)
  | size, arena => (.ok (.size arena.size), arena)

/-- Carries out the same call on a list, which takes so many values and no more. -/
def onList : Command α → List α → Except Fault (Reply α) × List α
  | alloc value, values =>
      if values.length < positionLimit then
        (.ok (.handle (.ofPosition values.length)), values ++ [value])
      else (.error .arenaFull, values)
  | find handle, values => (.ok (.found values[handle.position]?), values)
  | change handle f, values =>
      (.ok (.found values[handle.position]?), values.modify handle.position f)
  | read handle, values =>
      match values[handle.position]? with
      | some value => (.ok (.value value), values)
      | none => (.error (.foreignHandle handle), values)
  | write handle f, values =>
      match values[handle.position]? with
      | some _ => (.ok .done, values.modify handle.position f)
      | none => (.error (.foreignHandle handle), values)
  | entries, values =>
      (.ok (.entries (values.mapIdx fun position value => (.ofPosition position, value))), values)
  | size, values => (.ok (.size values.length), values)

/-- What a call gives back where no value can be stored. -/
def withoutRoom (cause : Fault) : Command α → Except Fault (Reply α)
  | alloc _ => .error cause
  | command => (command.onList []).1

/-- What a call makes of the value at a handle. -/
def rewrite (handle : Handle) : Command α → α → α
  | change written f, value | write written f, value =>
      if written = handle then f value else value
  | _, value => value

/-- Carries out calls in order, on whatever they are carried out on. -/
def run {σ ρ : Type} (step : Command α → σ → ρ × σ) : List (Command α) → σ → List ρ × σ
  | [], state => ([], state)
  | command :: rest, state =>
      let (reply, next) := step command state
      let (replies, last) := run step rest next
      (reply :: replies, last)

theorem run_cons {σ ρ : Type} (step : Command α → σ → ρ × σ) (command : Command α)
    (rest : List (Command α)) (state : σ) :
    run step (command :: rest) state =
      ((step command state).1 :: (run step rest (step command state).2).1,
        (run step rest (step command state).2).2) := rfl

theorem run_append {σ ρ : Type} (step : Command α → σ → ρ × σ) (commands later : List (Command α))
    (state : σ) :
    run step (commands ++ later) state =
      ((run step commands state).1 ++ (run step later (run step commands state).2).1,
        (run step later (run step commands state).2).2) := by
  induction commands generalizing state with
  | nil => rfl
  | cons command rest ih => rw [List.cons_append, run_cons, ih, run_cons, List.cons_append]

/-- Every call gives something back. -/
theorem length_run {σ ρ : Type} (step : Command α → σ → ρ × σ) (commands : List (Command α))
    (state : σ) : (run step commands state).1.length = commands.length := by
  induction commands generalizing state with
  | nil => rfl
  | cons command rest ih => rw [run_cons, List.length_cons, ih, List.length_cons]

end Command

/-- The handles that allocation handed out, in order. -/
def handedOut (replies : List (Except Fault (Reply α))) : List Handle :=
  replies.filterMap fun
    | .ok (.handle handle) => some handle
    | _ => none

/-! ## One call -/

section Stored

variable [StoredSize α] {arena : Arena α} {values : List α}

/-- The arena holds the list, handle by position, and can open chunks for more. -/
structure Holds (arena : Arena α) (values : List α) : Prop where
  sound : arena.Sound
  toList_eq : arena.toList = values
  reserves : arena.Reserves

theorem Holds.get?_eq (holds : arena.Holds values) (handle : Handle) :
    arena.get? handle = values[handle.position]? := by
  rw [get?_eq_getElem? holds.sound, holds.toList_eq]

theorem Holds.size_eq (holds : arena.Holds values) : arena.size = values.length := by
  rw [holds.sound.size_eq, holds.toList_eq]

theorem Holds.push (holds : arena.Holds values) (room : arena.checkRoom = .ok ()) (value : α) :
    (arena.push value).Holds (values ++ [value]) where
  sound := holds.sound.push room value
  toList_eq := by rw [toList_push holds.sound room, holds.toList_eq]
  reserves := (reserves_push value).2 holds.reserves

theorem Holds.overwrite (holds : arena.Holds values) (handle : Handle) (value : α) :
    (arena.put handle value).Holds (values.set handle.position value) where
  sound := holds.sound.put handle value
  toList_eq := by rw [toList_put holds.sound, holds.toList_eq]
  reserves := (reserves_put handle value).2 holds.reserves

theorem Holds.put (holds : arena.Holds values) {handle : Handle} {old : α}
    (found : values[handle.position]? = some old) (f : α → α) :
    (arena.put handle (f old)).Holds (values.modify handle.position f) := by
  rw [List.modify_eq_set_getElem?, found]
  exact holds.overwrite handle (f old)

theorem step_alloc_of_room (room : arena.checkRoom = .ok ()) (value : α) :
    (Command.alloc value).step arena = (.ok (.handle arena.next), arena.push value) := by
  have appended : arena.alloc value = .ok (arena.next, arena.push value) := by
    rw [alloc, room]
    rfl
  rw [Command.step, appended]

theorem step_alloc_of_full {cause : Fault} (full : arena.checkRoom = .error cause) (value : α) :
    (Command.alloc value).step arena = (.error cause, arena) := by
  have refused : arena.alloc value = .error cause := by
    rw [alloc, full]
    rfl
  rw [Command.step, refused]

theorem step_write_of_some {handle : Handle} {old : α} (found : arena.get? handle = some old)
    (f : α → α) : (Command.write handle f).step arena = (.ok .done, arena.put handle (f old)) := by
  have written : (do arena.set handle (f (← arena.get handle)) : Except Fault (Arena α)) =
      .ok (arena.put handle (f old)) := by
    simp [get, set, found, Bind.bind, Except.bind]
  rw [Command.step, written]

theorem step_write_of_none {handle : Handle} (missing : arena.get? handle = none) (f : α → α) :
    (Command.write handle f).step arena = (.error (.foreignHandle handle), arena) := by
  have refused : (do arena.set handle (f (← arena.get handle)) : Except Fault (Arena α)) =
      .error (.foreignHandle handle) := by
    simp [get, missing, Bind.bind, Except.bind]
  rw [Command.step, refused]

/-- A call on an arena with room is the call on the list it holds. -/
theorem step_of_holds (holds : arena.Holds values) (command : Command α) :
    (command.step arena).1 = (command.onList values).1 ∧
      (command.step arena).2.Holds (command.onList values).2 := by
  cases command with
  | alloc value =>
    rw [Command.onList]
    by_cases left : values.length < positionLimit
    · have room : arena.checkRoom = .ok () :=
        checkRoom_eq_ok_iff.2 ⟨holds.reserves, holds.size_eq ▸ left⟩
      rw [step_alloc_of_room room, next, holds.size_eq, if_pos left]
      exact ⟨rfl, holds.push room value⟩
    · have full : arena.checkRoom = .error .arenaFull :=
        holds.reserves.checkRoom_of_full (holds.size_eq ▸ Nat.le_of_not_lt left)
      rw [step_alloc_of_full full, if_neg left]
      exact ⟨rfl, holds⟩
  | find handle =>
    rw [Command.step, holds.get?_eq]
    exact ⟨rfl, holds⟩
  | change handle f =>
    rw [Command.step, holds.get?_eq, Command.onList]
    cases found : values[handle.position]? with
    | some old => exact ⟨rfl, holds.put found f⟩
    | none =>
      rw [List.modify_eq_set_getElem?, found]
      exact ⟨rfl, holds⟩
  | read handle =>
    rw [Command.step, get, holds.get?_eq, Command.onList]
    cases found : values[handle.position]? with
    | some value => exact ⟨rfl, holds⟩
    | none => exact ⟨rfl, holds⟩
  | write handle f =>
    have read := holds.get?_eq handle
    rw [Command.onList]
    cases found : values[handle.position]? with
    | some old =>
      rw [step_write_of_some (read.trans found)]
      exact ⟨rfl, holds.put found f⟩
    | none =>
      rw [step_write_of_none (read.trans found)]
      exact ⟨rfl, holds⟩
  | entries =>
    rw [Command.step, Arena.entries, holds.toList_eq]
    exact ⟨rfl, holds⟩
  | size =>
    rw [Command.step, holds.size_eq]
    exact ⟨rfl, holds⟩

/-! ## Runs -/

theorem run_of_holds (holds : arena.Holds values) (commands : List (Command α)) :
    (Command.run Command.step commands arena).1 = (Command.run Command.onList commands values).1 ∧
      (Command.run Command.step commands arena).2.Holds
        (Command.run Command.onList commands values).2 := by
  induction commands generalizing arena values with
  | nil => exact ⟨rfl, holds⟩
  | cons command rest ih =>
    obtain ⟨reply, next⟩ := step_of_holds holds command
    obtain ⟨replies, last⟩ := ih next
    rw [Command.run_cons, Command.run_cons, reply, replies]
    exact ⟨rfl, last⟩

theorem holds_ofChunkSize {chunkSize : Nat}
    (reserves : (ofChunkSize chunkSize : Arena α).Reserves) :
    (ofChunkSize chunkSize : Arena α).Holds [] :=
  ⟨sound_ofChunkSize chunkSize, rfl, reserves⟩

/-- Without room nothing is stored, and what is not there is not found. -/
theorem step_of_roomless {chunkSize : Nat} {cause : Fault}
    (full : (ofChunkSize chunkSize : Arena α).checkRoom = .error cause) (command : Command α) :
    command.step (ofChunkSize chunkSize) = (command.withoutRoom cause, ofChunkSize chunkSize) := by
  have nothing : ∀ handle : Handle, (ofChunkSize chunkSize : Arena α).get? handle = none := by
    intro handle
    rw [get?_eq_getElem? (sound_ofChunkSize chunkSize)]
    rfl
  cases command with
  | alloc value =>
    rw [step_alloc_of_full full]
    rfl
  | find handle =>
    rw [Command.step, nothing]
    rfl
  | change handle f =>
    rw [Command.step, nothing]
    rfl
  | read handle =>
    rw [Command.step, get, nothing]
    rfl
  | write handle f =>
    rw [step_write_of_none (nothing handle)]
    rfl
  | entries => rfl
  | size => rfl

theorem run_of_roomless {chunkSize : Nat} {cause : Fault}
    (full : (ofChunkSize chunkSize : Arena α).checkRoom = .error cause)
    (commands : List (Command α)) :
    Command.run Command.step commands (ofChunkSize chunkSize) =
      (commands.map (Command.withoutRoom cause), ofChunkSize chunkSize) := by
  induction commands with
  | nil => rfl
  | cons command rest ih => rw [Command.run_cons, step_of_roomless full, ih, List.map_cons]

end Stored

/-! ## Handles -/

theorem handedOut_cons (reply : Except Fault (Reply α)) (replies : List (Except Fault (Reply α))) :
    handedOut (reply :: replies) = handedOut [reply] ++ handedOut replies := by
  rw [handedOut, ← List.singleton_append, List.filterMap_append]
  rfl

/-- Only allocation makes the list longer, and it hands out the position it adds. -/
theorem handedOut_onList (command : Command α) {values : List α}
    (bounded : values.length ≤ positionLimit) :
    (command.onList values).2.length ≤ positionLimit ∧
      List.range values.length ++ (handedOut [(command.onList values).1]).map Handle.position =
        List.range (command.onList values).2.length := by
  cases command with
  | alloc value =>
    rw [Command.onList]
    by_cases left : values.length < positionLimit
    · have position : (Handle.ofPosition values.length).position = values.length :=
        Handle.position_ofPosition (Nat.lt_trans left positionLimit_lt_words)
      rw [if_pos left]
      exact ⟨by simpa using left, by simp [handedOut, List.range_succ, position]⟩
    · rw [if_neg left]
      exact ⟨bounded, by simp [handedOut]⟩
  | read handle =>
    rw [Command.onList]
    cases values[handle.position]? <;> exact ⟨bounded, by simp [handedOut]⟩
  | write handle f =>
    rw [Command.onList]
    cases values[handle.position]? with
    | some old => exact ⟨by simpa using bounded, by simp [handedOut]⟩
    | none => exact ⟨bounded, by simp [handedOut]⟩
  | _ => exact ⟨by simpa [Command.onList] using bounded, by simp [Command.onList, handedOut]⟩

/-- Handles are handed out by position, without a gap. -/
theorem handedOut_run (commands : List (Command α)) {values : List α}
    (bounded : values.length ≤ positionLimit) :
    List.range values.length ++
        (handedOut (Command.run Command.onList commands values).1).map Handle.position =
      List.range (Command.run Command.onList commands values).2.length := by
  induction commands generalizing values with
  | nil => simp [Command.run, handedOut]
  | cons command rest ih =>
    obtain ⟨next, positions⟩ := handedOut_onList command bounded
    rw [Command.run_cons, handedOut_cons, List.map_append, ← List.append_assoc, positions, ih next]

/-- One call leaves a stored value where it is, or rewrites it there. -/
theorem getElem?_onList {values : List α} {handle : Handle} {value : α}
    (stored : values[handle.position]? = some value) (command : Command α) :
    (command.onList values).2[handle.position]? = some (command.rewrite handle value) := by
  have modified : ∀ (written : Handle) (f : α → α),
      (values.modify written.position f)[handle.position]? =
        some (if written = handle then f value else value) := by
    intro written f
    rw [List.getElem?_modify, stored]
    simp [Handle.ext_position_iff]
  cases command with
  | alloc added =>
    obtain ⟨inside, -⟩ := List.getElem?_eq_some_iff.1 stored
    rw [Command.onList]
    split
    · rw [List.getElem?_append_left inside]
      exact stored
    · exact stored
  | change written f => exact modified written f
  | write written f =>
    rw [Command.onList]
    cases found : values[written.position]? with
    | some old => exact modified written f
    | none =>
      have other : written ≠ handle := by
        rintro rfl
        rw [stored] at found
        cases found
      rw [Command.rewrite, if_neg other]
      exact stored
  | read read =>
    rw [Command.onList]
    cases values[read.position]? <;> exact stored
  | _ => exact stored

/-- A handle stays valid, with the value last written there. -/
theorem getElem?_run {values : List α} {handle : Handle} {value : α}
    (stored : values[handle.position]? = some value) (commands : List (Command α)) :
    (Command.run Command.onList commands values).2[handle.position]? =
      some (commands.foldl (fun value command => command.rewrite handle value) value) := by
  induction commands generalizing values value with
  | nil => exact stored
  | cons command rest ih => exact ih (getElem?_onList stored command)

/-- From the call that allocates a value on, its handle leads to what was last written; a call
that finds no handle left says so. -/
theorem run_alloc (earlier later : List (Command α)) (value : α) :
    ((Command.run Command.onList earlier []).2.length < positionLimit →
      ∃ handle,
        (Command.run Command.onList (earlier ++ .alloc value :: later) []).1[earlier.length]? =
          some (.ok (.handle handle)) ∧
        (Command.run Command.onList (earlier ++ .alloc value :: later) []).2[handle.position]? =
          some (later.foldl (fun value command => command.rewrite handle value) value)) ∧
    (positionLimit ≤ (Command.run Command.onList earlier []).2.length →
      (Command.run Command.onList (earlier ++ .alloc value :: later) []).1[earlier.length]? =
        some (.error .arenaFull)) := by
  have replied := Command.length_run Command.onList earlier []
  rw [Command.run_append, Command.run_cons]
  dsimp only
  rw [List.getElem?_append_right (Nat.le_of_eq replied), replied, Nat.sub_self]
  generalize (Command.run Command.onList earlier []).2 = values
  refine ⟨?_, ?_⟩
  · intro left
    have position : (Handle.ofPosition values.length).position = values.length :=
      Handle.position_ofPosition (Nat.lt_trans left positionLimit_lt_words)
    have appended : (Command.alloc value).onList values =
        (.ok (.handle (.ofPosition values.length)), values ++ [value]) := if_pos left
    rw [appended]
    exact ⟨_, rfl, getElem?_run (by rw [position]; simp) later⟩
  · intro full
    have refused : (Command.alloc value).onList values = (.error .arenaFull, values) :=
      if_neg (Nat.not_lt.2 full)
    rw [refused]
    rfl

/-! ## Whole arenas -/

section Whole

variable [StoredSize α]

/-- What a run from an arena without values gives back. -/
def replies (chunkSize : Nat) (commands : List (Command α)) : List (Except Fault (Reply α)) :=
  (Command.run Command.step commands (ofChunkSize chunkSize)).1

/-- The arena that a run leaves behind. -/
def after (chunkSize : Nat) (commands : List (Command α)) : Arena α :=
  (Command.run Command.step commands (ofChunkSize chunkSize)).2

theorem checkRoom_of_small {chunkSize : Nat} (small : chunkSize < slotSize α) :
    (ofChunkSize chunkSize : Arena α).checkRoom =
      .error (.oversizedSlot (slotSize α) chunkSize) := by
  have refused : ¬slotSize α ≤ (ofChunkSize chunkSize : Arena α).chunkSize := Nat.not_le.2 small
  simp [checkRoom, Fault.ensure, refused, Bind.bind, Except.bind]
  rfl

theorem checkRoom_of_huge {chunkSize : Nat} (fits : slotSize α ≤ chunkSize)
    (huge : blockLimit ≤ chunkSize / slotSize α * StoredSize.bytes α) :
    (ofChunkSize chunkSize : Arena α).checkRoom = .error .oversizedChunk := by
  have passed : slotSize α ≤ (ofChunkSize chunkSize : Arena α).chunkSize := fits
  have refused : ¬(ofChunkSize chunkSize : Arena α).reserved < blockLimit := Nat.not_lt.2 huge
  have left : (ofChunkSize chunkSize : Arena α).size < positionLimit := by
    show 0 < positionLimit
    decide
  simp [checkRoom, Fault.ensure, passed, left, refused, Bind.bind, Except.bind]

/-- **An arena is an append-only list**, for values of every size, every sequence of calls
and every chunk size that takes a slot and can be reserved, whether or not slots fill a
chunk evenly: it gives the same replies, holds the same values, counts them and finds each
by its position.  Handles are the positions in order of allocation, so they are distinct;
each stays valid and leads to the value last written there.  The list takes `positionLimit`
values; from there on allocation fails and all else goes on.  With a chunk size that takes
no slot, or one that no block of memory can have, allocation always fails and everything
else answers as for the empty list. -/
theorem run_eq_onList (chunkSize : Nat) (commands : List (Command α)) :
    (slotSize α ≤ chunkSize → chunkSize / slotSize α * StoredSize.bytes α < blockLimit →
      replies chunkSize commands = (Command.run Command.onList commands []).1 ∧
      (after chunkSize commands).toList = (Command.run Command.onList commands []).2 ∧
      (after chunkSize commands).size = (Command.run Command.onList commands []).2.length ∧
      (∀ handle : Handle, (after chunkSize commands).get? handle =
        (Command.run Command.onList commands []).2[handle.position]?) ∧
      (handedOut (replies chunkSize commands)).map Handle.position =
        List.range (after chunkSize commands).size ∧
      ∀ earlier value later, commands = earlier ++ .alloc value :: later →
        ((after chunkSize earlier).size < positionLimit →
          ∃ handle, (replies chunkSize commands)[earlier.length]? = some (.ok (.handle handle)) ∧
            (after chunkSize commands).get? handle =
              some (later.foldl (fun value command => command.rewrite handle value) value)) ∧
        (positionLimit ≤ (after chunkSize earlier).size →
          (replies chunkSize commands)[earlier.length]? = some (.error .arenaFull))) ∧
    (chunkSize < slotSize α →
      replies chunkSize commands =
        commands.map (Command.withoutRoom (.oversizedSlot (slotSize α) chunkSize)) ∧
      after chunkSize commands = ofChunkSize chunkSize) ∧
    (slotSize α ≤ chunkSize → blockLimit ≤ chunkSize / slotSize α * StoredSize.bytes α →
      replies chunkSize commands = commands.map (Command.withoutRoom .oversizedChunk) ∧
      after chunkSize commands = ofChunkSize chunkSize) := by
  refine ⟨?_, ?_, ?_⟩
  · intro fits reservable
    have start : (ofChunkSize chunkSize : Arena α).Holds [] :=
      holds_ofChunkSize ⟨fits, reservable⟩
    have held (commands : List (Command α)) :
        (after chunkSize commands).Holds (Command.run Command.onList commands []).2 :=
      (run_of_holds start commands).2
    have same : replies chunkSize commands = (Command.run Command.onList commands []).1 :=
      (run_of_holds start commands).1
    have holds := held commands
    refine ⟨same, holds.toList_eq, holds.size_eq, holds.get?_eq, ?_, ?_⟩
    · have none : ([] : List α).length ≤ positionLimit := Nat.zero_le _
      rw [same, holds.size_eq, ← handedOut_run commands none]
      rfl
    · rintro earlier value later rfl
      obtain ⟨stores, refuses⟩ := run_alloc earlier later value
      rw [same, (held earlier).size_eq]
      refine ⟨?_, refuses⟩
      intro left
      obtain ⟨handle, replied, stored⟩ := stores left
      exact ⟨handle, replied, (holds.get?_eq handle).trans stored⟩
  · intro small
    rw [replies, after, run_of_roomless (checkRoom_of_small small)]
    exact ⟨rfl, rfl⟩
  · intro fits huge
    rw [replies, after, run_of_roomless (checkRoom_of_huge fits huge)]
    exact ⟨rfl, rfl⟩

end Whole

/-- A machine word. -/
instance : StoredSize UInt64 := ⟨8⟩

/-- Two words to a chunk of 20 bytes, none to one of 4, and chunks beyond any memory. -/
theorem run_eq_onList_of_words :
    let commands : List (Command UInt64) :=
      [.alloc 5, .alloc 6, .alloc 7, .change ⟨1⟩ (· + 1), .write ⟨3⟩ (· * 2)]
    (after 20 commands).toList = [5, 7, 7] ∧
    (after 20 commands).get? ⟨1⟩ = some 7 ∧
    (handedOut (replies 20 commands)).map Handle.position = [0, 1, 2] ∧
    replies 4 [.alloc (5 : UInt64), .find ⟨0⟩] =
      [.error (.oversizedSlot 8 4), .ok (.found none)] ∧
    replies 18446744073709551615 [.alloc (5 : UInt64), .read ⟨0⟩] =
      [.error .oversizedChunk, .error (.foreignHandle ⟨0⟩)] := by
  intro commands
  obtain ⟨listed, -, -⟩ := run_eq_onList 20 commands
  obtain ⟨-, values, -, -, handles, stays⟩ := listed (by decide) (by decide)
  obtain ⟨handle, replied, stored⟩ := (stays [.alloc 5] 6
    [.alloc 7, .change ⟨1⟩ (· + 1), .write ⟨3⟩ (· * 2)] rfl).1 (by decide)
  have second : (replies 20 commands)[1]? = some (.ok (.handle ⟨1⟩)) := by decide
  cases second.symm.trans replied
  obtain ⟨-, small, -⟩ := run_eq_onList 4 [.alloc (5 : UInt64), .find ⟨0⟩]
  obtain ⟨-, -, huge⟩ := run_eq_onList 18446744073709551615 [.alloc (5 : UInt64), .read ⟨0⟩]
  exact ⟨values, stored.trans (by decide), handles.trans (by decide), (small (by decide)).1,
    (huge (by decide) (by decide)).1⟩

/-- A chunk may be too large: it takes a slot, and yet the first allocation fails. -/
theorem alloc_fails_of_huge_chunk :
    slotSize UInt64 ≤ 18446744073709551615 ∧
    replies 18446744073709551615 [.alloc (5 : UInt64)] = [.error .oversizedChunk] ∧
    replies 18446744073709551615 [.alloc (5 : UInt64)] ≠
      (Command.run Command.onList [.alloc (5 : UInt64)] []).1 := by
  decide

end Arena

end TreeIR
