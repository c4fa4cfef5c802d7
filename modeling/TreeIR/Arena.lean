/-
# TreeIR.Arena -- append-only storage in chunks

Values go into chunks of `chunkSize` bytes, one slot each, and never move.  A slot is
the value's size rounded up to whole words, at least one.  A chunk takes as many slots
as fit; a new chunk is opened only when the last one is full, so slot `n` is slot
`n % perChunk` of chunk `n / perChunk`.

A chunk size below one slot holds nothing: `alloc` refuses, and no handle leads
anywhere.  The other end is the address space: a chunk is reserved whole when it is
opened, so the values it is for have to fit into one block of memory together.  Only
the values count there and not the rounding of their slots, and values without a size
always fit.  Apart from the chunk size, an arena takes `positionLimit` values at most,
since handles are 32-bit words.
-/
import TreeIR.Fault

namespace TreeIR

set_option autoImplicit false

-- Powers of naturals are the core library's, whatever else is in scope.
attribute [local instance (2000)] instPowNat

/-! ## Slots -/

/-- The size in bytes of a value in storage. -/
class StoredSize (α : Type) where
  bytes : Nat

/-- Slots start at multiples of this many bytes. -/
def slotAlignment : Nat := 8

/-- Bytes taken by one value. -/
def slotSize (α : Type) [StoredSize α] : Nat :=
  max slotAlignment ((StoredSize.bytes α + (slotAlignment - 1)) / slotAlignment * slotAlignment)

theorem slotSize_pos (α : Type) [StoredSize α] : 0 < slotSize α :=
  Nat.lt_of_lt_of_le (by decide) (Nat.le_max_left slotAlignment _)

/-- No block of memory has this many bytes: it is half of a 64-bit address space. -/
def blockLimit : Nat := 2 ^ (63 : Nat)

/-- The largest 32-bit word, which no slot gets as its position. -/
def positionLimit : Nat := 2 ^ (32 : Nat) - 1

/-! ## Arenas -/

structure Arena (α : Type) where
  chunkSize : Nat
  size : Nat
  chunks : Array (Array α)
  deriving DecidableEq, Repr

namespace Arena

variable {α : Type}

/-- Bytes per chunk where nothing else is asked for. -/
def defaultChunkSize : Nat := 10000

def ofChunkSize (chunkSize : Nat) : Arena α := ⟨chunkSize, 0, #[]⟩

def empty : Arena α := ofChunkSize defaultChunkSize

def isEmpty (arena : Arena α) : Bool := arena.size == 0

def chunkCount (arena : Arena α) : Nat := arena.chunks.size

/-- The values in order of allocation. -/
def toList (arena : Arena α) : List α := arena.chunks.toList.flatMap Array.toList

/-- The values with their handles, in order of allocation. -/
def entries (arena : Arena α) : List (Handle × α) :=
  arena.toList.mapIdx fun position value => (.ofPosition position, value)

/-- A summary without the contents. -/
def text (arena : Arena α) : String :=
  s!"Arena \x7b chunk_size: {arena.chunkSize}, len: {arena.size} \x7d"

variable [StoredSize α]

/-- How many slots fit into a chunk. -/
def perChunk (arena : Arena α) : Nat := arena.chunkSize / slotSize α

/-- Bytes that the values of a full chunk take. -/
def reserved (arena : Arena α) : Nat := arena.perChunk * StoredSize.bytes α

/-! ## Growing -/

/-- Whether the next value needs a chunk of its own to start with. -/
def lastFull (arena : Arena α) : Bool :=
  match arena.chunks.back? with
  | some chunk => chunk.size == arena.perChunk
  | none => true

def push (arena : Arena α) (value : α) : Arena α :=
  if arena.lastFull then
    { arena with size := arena.size + 1, chunks := arena.chunks.push #[value] }
  else
    { arena with
      size := arena.size + 1
      chunks := arena.chunks.modify (arena.chunks.size - 1) (·.push value) }

/-- Refuses to go on unless a slot fits into a chunk, there is a handle left, and a
chunk can be reserved, in this order. -/
def checkRoom (arena : Arena α) : Except Fault Unit := do
  Fault.ensure (slotSize α ≤ arena.chunkSize) (.oversizedSlot (slotSize α) arena.chunkSize)
  Fault.ensure (arena.size < positionLimit) .arenaFull
  Fault.ensure (arena.reserved < blockLimit) .oversizedChunk

/-- The handle the next value gets. -/
def next (arena : Arena α) : Handle := .ofPosition arena.size

/-- Appends the value and hands out its position. -/
def alloc (arena : Arena α) (value : α) : Except Fault (Handle × Arena α) := do
  arena.checkRoom
  return (arena.next, arena.push value)

/-! ## Access -/

/-- The value at a handle; `none` if this arena never handed it out. -/
def get? (arena : Arena α) (handle : Handle) : Option α :=
  if arena.perChunk = 0 then none
  else do
    let chunk ← arena.chunks[handle.position / arena.perChunk]?
    chunk[handle.position % arena.perChunk]?

/-- The value at a handle, which has to be one of this arena. -/
def get (arena : Arena α) (handle : Handle) : Except Fault α :=
  match arena.get? handle with
  | some value => .ok value
  | none => .error (.foreignHandle handle)

/-- Overwrites the value at a handle; nothing changes if there is none. -/
def put (arena : Arena α) (handle : Handle) (value : α) : Arena α :=
  if arena.perChunk = 0 then arena
  else
    { arena with
      chunks := arena.chunks.modify (handle.position / arena.perChunk) fun chunk =>
        chunk.setIfInBounds (handle.position % arena.perChunk) value }

/-- Overwrites the value at a handle, which has to be one of this arena. -/
def set (arena : Arena α) (handle : Handle) (value : α) : Except Fault (Arena α) :=
  match arena.get? handle with
  | some _ => .ok (arena.put handle value)
  | none => .error (.foreignHandle handle)

end Arena

end TreeIR
