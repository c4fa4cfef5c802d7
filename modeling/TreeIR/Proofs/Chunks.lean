/-
# TreeIR.Proofs.Chunks -- the chunks of an arena hold a list

The address of a value is a quotient and a remainder, but allocation looks at the last
chunk only.  What makes the two agree is `Packed`: every chunk before the last is full, so
the quotient counts full chunks, whether or not slots divide the chunk size evenly.  Under
it `get?` reads the list `toList` by position (`get?_eq_getElem?`), `push` appends to it
(`toList_push`) and `put` overwrites one place of it (`toList_put`).  A value is only appended
while a handle is left, so the next handle is the number of values (`Sound.position_next`) and
does not wrap around to an earlier one.

`get?_put` needs no such assumption: two positions never share an address, so a write is
seen at its own position and at no other, in any arena whatever.
-/
import Mathlib
import TreeIR.Arena

namespace TreeIR

set_option autoImplicit false

namespace Arena

variable {α : Type}

/-! ## Addresses -/

/-- The quotient and the remainder together determine the position. -/
theorem address_injective {capacity : Nat} {position other : Nat}
    (chunk : position / capacity = other / capacity)
    (slot : position % capacity = other % capacity) : position = other := by
  rw [← Nat.div_add_mod position capacity, ← Nat.div_add_mod other capacity, chunk, slot]

/-- Chunks that are full up to the last hold their values by quotient and remainder. -/
theorem getElem?_flatMap_of_full {capacity : Nat} (full : List (Array α)) (last : Array α)
    (positive : 0 < capacity) (filled : ∀ chunk ∈ full, chunk.size = capacity)
    (fits : last.size ≤ capacity) (position : Nat) :
    ((full ++ [last]).flatMap Array.toList)[position]? =
      (full ++ [last])[position / capacity]?.bind (·[position % capacity]?) := by
  induction full generalizing position with
  | nil =>
    by_cases inside : position < capacity
    · simp [Nat.div_eq_of_lt inside, Nat.mod_eq_of_lt inside]
    · have beyond : 0 < position / capacity := Nat.div_pos (Nat.le_of_not_lt inside) positive
      have outside : last.size ≤ position := by omega
      have past : [last][position / capacity]? = none := List.getElem?_eq_none beyond
      simp [past, outside]
  | cons chunk full ih =>
    have size : chunk.toList.length = capacity := filled chunk (.head _)
    have filledRest : ∀ chunk ∈ full, chunk.size = capacity :=
      fun chunk member => filled chunk (.tail _ member)
    rw [List.cons_append, List.flatMap_cons]
    by_cases inside : position < capacity
    · rw [List.getElem?_append_left (by omega), Nat.div_eq_of_lt inside, Nat.mod_eq_of_lt inside]
      simp
    · have reached : capacity ≤ position := Nat.le_of_not_lt inside
      rw [List.getElem?_append_right (by omega), size, ih filledRest (position - capacity),
        Nat.div_eq_sub_div positive reached, Nat.mod_eq_sub_mod reached, List.getElem?_cons_succ]

/-- Overwriting an entry that may not be there. -/
theorem getElem?_overwrite (chunk : Array α) (slot : Nat) (value : α) :
    (chunk.setIfInBounds slot value)[slot]? = chunk[slot]?.map fun _ => value := by
  rw [Array.getElem?_setIfInBounds_self]
  by_cases inside : slot < chunk.size
  · rw [if_pos inside, Array.getElem?_eq_getElem inside]
    rfl
  · rw [if_neg inside, Array.getElem?_eq_none (Nat.le_of_not_lt inside)]
    rfl

/-! ## Packed chunks -/

/-- All chunks are full except the last, which holds at least one value. -/
inductive Packed (capacity : Nat) : Array (Array α) → Prop
  | empty : Packed capacity #[]
  | grown {full : Array (Array α)} {last : Array α}
      (filled : ∀ chunk ∈ full, chunk.size = capacity)
      (holds : 0 < last.size) (fits : last.size ≤ capacity) : Packed capacity (full.push last)

theorem Packed.eq_empty_or_grown {capacity : Nat} {chunks : Array (Array α)}
    (packed : Packed capacity chunks) :
    chunks = #[] ∨ ∃ (full : Array (Array α)) (last : Array α), chunks = full.push last ∧
      (∀ chunk ∈ full, chunk.size = capacity) ∧ 0 < last.size ∧ last.size ≤ capacity := by
  cases packed with
  | empty => exact .inl rfl
  | grown filled holds fits => exact .inr ⟨_, _, rfl, filled, holds, fits⟩

/-- Changing the last element of an array. -/
theorem modify_back {β : Type} (initial : Array β) (last : β) (f : β → β) :
    (initial.push last).modify initial.size f = initial.push (f last) := by
  apply Array.ext_getElem?
  intro index
  rw [Array.getElem?_modify, Array.getElem?_push, Array.getElem?_push]
  by_cases here : index = initial.size
  · rw [if_pos here.symm, if_pos here, if_pos here]
    rfl
  · rw [if_neg (Ne.symm here), if_neg here, if_neg here]

/-- Being packed is a matter of the sizes alone. -/
theorem Packed.of_sizes {capacity : Nat} {chunks others : Array (Array α)}
    (packed : Packed capacity chunks) (same : others.map Array.size = chunks.map Array.size) :
    Packed capacity others := by
  obtain rfl | ⟨full, last, rfl, filled, holds, fits⟩ := packed.eq_empty_or_grown
  · rw [Array.map_empty, Array.map_eq_empty_iff] at same
    rw [same]
    exact .empty
  · rw [Array.map_push, Array.map_eq_push_iff] at same
    obtain ⟨others, other, rfl, sizes, size⟩ := same
    refine .grown ?_ (size ▸ holds) (size ▸ fits)
    intro chunk member
    have counted : chunk.size ∈ full.map Array.size :=
      sizes ▸ Array.mem_map_of_mem member
    obtain ⟨old, oldMember, oldSize⟩ := Array.mem_map.1 counted
    rw [← oldSize]
    exact filled old oldMember

section Stored

variable [StoredSize α] {arena : Arena α}

theorem positionLimit_lt_words : positionLimit < UInt32.size := by decide

/-- What every operation keeps: the chunks are packed, the size is counted right, and every
value has a handle. -/
structure Sound (arena : Arena α) : Prop where
  packed : Packed arena.perChunk arena.chunks
  size_eq : arena.size = arena.toList.length
  size_le : arena.size ≤ positionLimit

/-- The next handle is the number of values. -/
theorem Sound.position_next (sound : arena.Sound) : arena.next.position = arena.size :=
  Handle.position_ofPosition (Nat.lt_of_le_of_lt sound.size_le positionLimit_lt_words)

theorem sound_ofChunkSize (chunkSize : Nat) : (ofChunkSize chunkSize : Arena α).Sound :=
  ⟨.empty, rfl, Nat.zero_le _⟩

/-- A chunk takes a slot and can be reserved. -/
def Reserves (arena : Arena α) : Prop :=
  slotSize α ≤ arena.chunkSize ∧ arena.reserved < blockLimit

/-- Nothing but the chunk size decides whether a chunk can be reserved. -/
theorem Reserves.congr {other : Arena α} (same : other.chunkSize = arena.chunkSize) :
    other.Reserves ↔ arena.Reserves := by
  rw [Reserves, Reserves, reserved, reserved, perChunk, perChunk, same]

theorem Reserves.perChunk_pos (reserves : arena.Reserves) : 0 < arena.perChunk :=
  Nat.div_pos reserves.1 (slotSize_pos α)

/-- There is room for a value exactly if a chunk can be reserved and a handle is left. -/
theorem checkRoom_eq_ok_iff :
    arena.checkRoom = .ok () ↔ arena.Reserves ∧ arena.size < positionLimit := by
  by_cases fits : slotSize α ≤ arena.chunkSize <;>
    by_cases reservable : arena.reserved < blockLimit <;>
      by_cases left : arena.size < positionLimit <;>
        simp [checkRoom, Reserves, Fault.ensure, fits, reservable, left, Bind.bind, Except.bind]

/-- Where chunks can be reserved, an arena runs out of nothing but handles. -/
theorem Reserves.checkRoom_eq (reserves : arena.Reserves) :
    arena.checkRoom = Fault.ensure (arena.size < positionLimit) .arenaFull := by
  by_cases left : arena.size < positionLimit
  · rw [checkRoom_eq_ok_iff.2 ⟨reserves, left⟩, Fault.ensure, if_pos (decide_eq_true left)]
  · simp [checkRoom, Fault.ensure, reserves.1, left, Bind.bind, Except.bind]

theorem Reserves.checkRoom_of_full (reserves : arena.Reserves)
    (full : positionLimit ≤ arena.size) : arena.checkRoom = .error .arenaFull := by
  rw [reserves.checkRoom_eq, Fault.ensure, if_neg (mt of_decide_eq_true (Nat.not_lt.2 full))]

/-! ## Reading -/

theorem get?_eq_bind (slots : arena.perChunk ≠ 0) (handle : Handle) :
    arena.get? handle = arena.chunks[handle.position / arena.perChunk]?.bind
      (·[handle.position % arena.perChunk]?) := by
  rw [get?, if_neg slots]
  rfl

/-- A value that is found lies in a chunk that was opened. -/
theorem exists_chunk_of_get? {handle : Handle} {value : α}
    (found : arena.get? handle = some value) :
    arena.perChunk ≠ 0 ∧ ∃ chunk, arena.chunks[handle.position / arena.perChunk]? = some chunk ∧
      chunk[handle.position % arena.perChunk]? = some value := by
  by_cases slotless : arena.perChunk = 0
  · rw [get?, if_pos slotless] at found
    cases found
  · rw [get?_eq_bind slotless] at found
    exact ⟨slotless, Option.bind_eq_some_iff.1 found⟩

/-- Only so many positions have an address at all. -/
theorem position_lt_of_get? {handle : Handle} {value : α} (found : arena.get? handle = some value) :
    handle.position < arena.chunks.size * arena.perChunk := by
  obtain ⟨slots, chunk, opened, -⟩ := exists_chunk_of_get? found
  obtain ⟨inside, -⟩ := Array.getElem?_eq_some_iff.1 opened
  exact (Nat.div_lt_iff_lt_mul (Nat.pos_of_ne_zero slots)).1 inside

/-- Quotient and remainder address the list. -/
theorem getElem?_toList (sound : arena.Sound) (position : Nat) :
    arena.toList[position]? = arena.chunks[position / arena.perChunk]?.bind
      (·[position % arena.perChunk]?) := by
  obtain unopened | ⟨full, last, grown, filled, holds, fits⟩ := sound.packed.eq_empty_or_grown
  · simp [toList, unopened]
  · have positive : 0 < arena.perChunk := Nat.lt_of_lt_of_le holds fits
    have list : arena.chunks.toList = full.toList ++ [last] := by rw [grown, Array.toList_push]
    have read := getElem?_flatMap_of_full full.toList last positive (by simpa using filled) fits
      position
    rw [toList, list, read, ← list, Array.getElem?_toList]

/-- A position below the size leads to the value at that place of the list, any other to
nothing. -/
theorem get?_eq_getElem? (sound : arena.Sound) (handle : Handle) :
    arena.get? handle = arena.toList[handle.position]? := by
  obtain unopened | ⟨full, last, -, -, holds, fits⟩ := sound.packed.eq_empty_or_grown
  · simp [get?, toList, unopened]
  · have slots : arena.perChunk ≠ 0 := Nat.ne_of_gt (Nat.lt_of_lt_of_le holds fits)
    rw [get?_eq_bind slots, getElem?_toList sound]

theorem get?_isSome_iff (sound : arena.Sound) (handle : Handle) :
    (arena.get? handle).isSome ↔ handle.position < arena.size := by
  rw [get?_eq_getElem? sound, sound.size_eq, isSome_getElem?]

@[simp] theorem chunkSize_push (value : α) : (arena.push value).chunkSize = arena.chunkSize := by
  unfold push
  split <;> rfl

@[simp] theorem perChunk_push (value : α) : (arena.push value).perChunk = arena.perChunk := by
  rw [perChunk, chunkSize_push, perChunk]

@[simp] theorem reserves_push (value : α) : (arena.push value).Reserves ↔ arena.Reserves :=
  Reserves.congr (chunkSize_push value)

@[simp] theorem size_push (value : α) : (arena.push value).size = arena.size + 1 := by
  unfold push
  split <;> rfl

/-- Whatever the chunks look like, appending a value moves none that is found. -/
theorem get?_push_of_some {handle : Handle} {old : α} (found : arena.get? handle = some old)
    (value : α) : (arena.push value).get? handle = some old := by
  obtain ⟨slots, chunk, opened, stored⟩ := exists_chunk_of_get? found
  obtain ⟨inside, rfl⟩ := Array.getElem?_eq_some_iff.1 opened
  rw [get?_eq_bind (by rwa [perChunk_push]), perChunk_push]
  by_cases full : arena.lastFull = true
  · rw [push, if_pos full, Array.getElem?_push_lt inside]
    exact stored
  · obtain ⟨filled, -⟩ := Array.getElem?_eq_some_iff.1 stored
    rw [push, if_neg full, Array.getElem?_modify, opened]
    split
    · simpa [Array.getElem?_push, Nat.ne_of_lt filled] using stored
    · exact stored

/-- Allocation looks at the last chunk only: it fills that one or starts the next. -/
theorem push_of_packed (packed : Packed arena.perChunk arena.chunks) (room : 0 < arena.perChunk)
    (value : α) :
    Packed arena.perChunk (arena.push value).chunks ∧
      (arena.push value).toList = arena.toList ++ [value] := by
  obtain unopened | ⟨full, last, grown, filled, holds, fits⟩ := packed.eq_empty_or_grown
  · have pushed : (arena.push value).chunks = #[].push #[value] := by
      simp [push, lastFull, unopened]
    rw [toList, toList, pushed, unopened]
    exact ⟨.grown (by simp) (by simp) room, by simp⟩
  · by_cases complete : last.size = arena.perChunk
    · have pushed : (arena.push value).chunks = (full.push last).push #[value] := by
        simp [push, lastFull, grown, complete]
      rw [toList, toList, pushed, grown]
      refine ⟨.grown ?_ (by simp) room, by simp⟩
      intro chunk member
      obtain earlier | rfl := Array.mem_push.1 member
      · exact filled chunk earlier
      · exact complete
    · have pushed : (arena.push value).chunks = full.push (last.push value) := by
        simp [push, lastFull, grown, complete, modify_back]
      rw [toList, toList, pushed, grown]
      refine ⟨.grown filled (by simp) ?_, by simp⟩
      rw [Array.size_push]
      omega

theorem toList_push (sound : arena.Sound) (room : arena.checkRoom = .ok ()) (value : α) :
    (arena.push value).toList = arena.toList ++ [value] :=
  (push_of_packed sound.packed (checkRoom_eq_ok_iff.1 room).1.perChunk_pos value).2

theorem Sound.push (sound : arena.Sound) (room : arena.checkRoom = .ok ()) (value : α) :
    (arena.push value).Sound where
  packed := by
    rw [perChunk_push]
    exact (push_of_packed sound.packed (checkRoom_eq_ok_iff.1 room).1.perChunk_pos value).1
  size_eq := by
    rw [size_push, toList_push sound room, List.length_append, sound.size_eq]
    rfl
  size_le := by
    rw [size_push]
    exact (checkRoom_eq_ok_iff.1 room).2

/-- The new value is found at the handle it got, and every other one where it was. -/
theorem get?_push (sound : arena.Sound) (room : arena.checkRoom = .ok ()) (value : α)
    (handle : Handle) :
    (arena.push value).get? handle =
      if handle = arena.next then some value else arena.get? handle := by
  have next : arena.next.position = arena.toList.length :=
    sound.position_next.trans sound.size_eq
  rw [get?_eq_getElem? (sound.push room value), get?_eq_getElem? sound, toList_push sound room]
  by_cases here : handle = arena.next
  · rw [if_pos here, here, next]
    simp
  · have elsewhere : handle.position ≠ arena.toList.length :=
      fun same => here (Handle.ext_position (same.trans next.symm))
    rw [if_neg here, List.getElem?_append]
    split
    · rfl
    · rw [List.getElem?_eq_none (by simp; omega), List.getElem?_eq_none (by omega)]

/-! ## Overwriting -/

@[simp] theorem chunkSize_put (handle : Handle) (value : α) :
    (arena.put handle value).chunkSize = arena.chunkSize := by
  unfold put
  split <;> rfl

@[simp] theorem perChunk_put (handle : Handle) (value : α) :
    (arena.put handle value).perChunk = arena.perChunk := by
  rw [perChunk, chunkSize_put, perChunk]

@[simp] theorem reserves_put (handle : Handle) (value : α) :
    (arena.put handle value).Reserves ↔ arena.Reserves :=
  Reserves.congr (chunkSize_put handle value)

@[simp] theorem size_put (handle : Handle) (value : α) :
    (arena.put handle value).size = arena.size := by
  unfold put
  split <;> rfl

theorem chunks_put (slots : arena.perChunk ≠ 0) (handle : Handle) (value : α) :
    (arena.put handle value).chunks =
      arena.chunks.modify (handle.position / arena.perChunk) fun chunk =>
        chunk.setIfInBounds (handle.position % arena.perChunk) value := by
  rw [put, if_neg slots]

/-- A write is seen at its own position and at no other. -/
theorem get?_put (handle other : Handle) (value : α) :
    (arena.put handle value).get? other =
      if other = handle then (arena.get? handle).map fun _ => value else arena.get? other := by
  by_cases slotless : arena.perChunk = 0
  · simp [get?, slotless]
  rw [get?_eq_bind (by rwa [perChunk_put]), get?_eq_bind slotless, get?_eq_bind slotless,
    perChunk_put, chunks_put slotless, Array.getElem?_modify]
  by_cases chunk : handle.position / arena.perChunk = other.position / arena.perChunk
  · rw [if_pos chunk, chunk]
    cases arena.chunks[other.position / arena.perChunk]? with
    | none => simp
    | some found =>
      by_cases here : other = handle
      · subst here
        simpa using getElem?_overwrite found _ value
      · have slot : handle.position % arena.perChunk ≠ other.position % arena.perChunk :=
          fun slot => here (Handle.ext_position (address_injective chunk slot).symm)
        simp [here, slot]
  · have elsewhere : other ≠ handle := fun here => chunk (by rw [here])
    rw [if_neg chunk, if_neg elsewhere]

theorem sizes_put (handle : Handle) (value : α) :
    (arena.put handle value).chunks.map Array.size = arena.chunks.map Array.size := by
  by_cases slotless : arena.perChunk = 0
  · rw [put, if_pos slotless]
  · rw [chunks_put slotless]
    apply Array.ext_getElem?
    intro index
    rw [Array.getElem?_map, Array.getElem?_map, Array.getElem?_modify]
    split
    · simp [Function.comp_def]
    · rfl

theorem length_toList_put (handle : Handle) (value : α) :
    (arena.put handle value).toList.length = arena.toList.length := by
  have sizes : (arena.put handle value).chunks.toList.map Array.size =
      arena.chunks.toList.map Array.size := by
    rw [← Array.toList_map, ← Array.toList_map, sizes_put]
  simp [toList, List.length_flatMap, sizes]

theorem Sound.put (sound : arena.Sound) (handle : Handle) (value : α) :
    (arena.put handle value).Sound where
  packed := by
    rw [perChunk_put]
    exact sound.packed.of_sizes (sizes_put handle value)
  size_eq := by rw [size_put, length_toList_put, sound.size_eq]
  size_le := by rw [size_put]; exact sound.size_le

theorem toList_put (sound : arena.Sound) (handle : Handle) (value : α) :
    (arena.put handle value).toList = arena.toList.set handle.position value := by
  apply List.ext_getElem?
  intro position
  have length : (arena.put handle value).toList.length = arena.toList.length :=
    length_toList_put handle value
  by_cases inside : position < arena.toList.length
  · have word : position < UInt32.size :=
      Nat.lt_trans (Nat.lt_of_lt_of_le inside (sound.size_eq ▸ sound.size_le)) positionLimit_lt_words
    obtain ⟨place, rfl⟩ : ∃ place : Handle, place.position = position :=
      ⟨.ofPosition position, Handle.position_ofPosition word⟩
    rw [← get?_eq_getElem? (sound.put handle value), get?_put, get?_eq_getElem? sound,
      get?_eq_getElem? sound, List.getElem?_set']
    by_cases here : handle = place
    · rw [if_pos here.symm, if_pos (congrArg Handle.position here), here]
      rfl
    · rw [if_neg (Ne.symm here), if_neg fun same => here (Handle.ext_position same)]
  · rw [List.getElem?_eq_none (by omega), List.getElem?_eq_none (by simp; omega)]

end Stored

end Arena

end TreeIR
