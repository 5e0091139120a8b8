import Yamux.Core.Allocator
import Yamux.Native.Bio

/-!
# The memory of `bio.c`

A `bio` heads a tail queue of `queue.h`. Each of its elements is a record of its own with a
block of bytes, and the head also points to where the next element is to be linked. Blocks come
from an allocator and hold anything at first. `memcpy` fails when it leaves one of its two
buffers; loops have a number of rounds.
-/

namespace Yamux.Buffer

open Core HeapM

/-- A pointer to a record or a block. -/
abbrev Ptr := Option ℕ

/-- What `stqh_last` points to: `stqh_first` of a head or `stqe_next` of an element. -/
inductive Slot where
  | first (bio : ℕ)
  | next (buffer : ℕ)
  deriving DecidableEq, Repr

/-- `struct bio` with its `STAILQ_HEAD`. -/
structure BioRecord where
  first : Ptr
  last : Slot
  offset : ℕ
  len : ℕ
  deriving DecidableEq, Repr

/-- `struct buffer` with its `STAILQ_ENTRY`. -/
structure BufferRecord where
  next : Ptr
  len : ℕ
  data : Ptr
  deriving DecidableEq, Repr

/-- What one `malloc` gives. -/
inductive Cell where
  | bio (b : BioRecord)
  | buffer (b : BufferRecord)
  | block (bytes : Bytes)
  deriving DecidableEq, Repr

/-- Programs on this memory. The globals count the calls of `malloc`. -/
abbrev BioM := HeapM ℕ Cell

/-- What new memory holds. -/
structure Junk where
  bio : BioRecord
  buffer : BufferRecord
  block : ℕ → Bytes
  length_block (n : ℕ) : (block n).length = n

/-! ## Fields -/

def loadBio (bio : ℕ) : BioM BioRecord := do
  match ← load bio with
  | .bio b => pure b
  | _ => fail .address

def setBio (bio : ℕ) (f : BioRecord → BioRecord) : BioM Unit := do
  let b ← loadBio bio
  store bio (.bio (f b))

def loadBuffer (buffer : Ptr) : BioM BufferRecord := do
  match ← load (← deref buffer) with
  | .buffer b => pure b
  | _ => fail .address

def setBuffer (buffer : Ptr) (f : BufferRecord → BufferRecord) : BioM Unit := do
  let b ← loadBuffer buffer
  store (← deref buffer) (.buffer (f b))

def loadBlock (data : Ptr) : BioM Bytes := do
  match ← load (← deref data) with
  | .block bytes => pure bytes
  | _ => fail .address

/-- Write a pointer through the pointer to it. -/
def setSlot (p : Ptr) : Slot → BioM Unit
  | .first bio => setBio bio fun b => { b with first := p }
  | .next buffer => setBuffer (some buffer) fun b => { b with next := p }

/-- `memcpy` to the start of a block. -/
def copyIn (data : Ptr) (bytes : Bytes) : BioM Unit := do
  let old ← loadBlock data
  if bytes.length ≤ old.length then
    store (← deref data) (.block (bytes ++ old.drop bytes.length))
  else fail .address

/-- `memcpy` of `size` bytes from an offset in a block to a buffer with room for `room` bytes. -/
def copyOut (data : Ptr) (offset size room : ℕ) : BioM Bytes := do
  let bytes ← loadBlock data
  if offset + size ≤ bytes.length ∧ size ≤ room then pure ((bytes.drop offset).take size)
  else fail .address

/-- `free`, which does nothing for a null pointer. -/
def freePtr : Ptr → BioM Unit
  | some a => free a
  | none => pure ()

/-! ## The tail queue -/

/-- `STAILQ_FIRST`. -/
def stailqFirst (bio : ℕ) : BioM Ptr := do return (← loadBio bio).first

/-- `STAILQ_NEXT`. -/
def stailqNext (elm : Ptr) : BioM Ptr := do return (← loadBuffer elm).next

/-- `STAILQ_INIT`. -/
def stailqInit (bio : ℕ) : BioM Unit := do
  setBio bio fun b => { b with first := none }
  setBio bio fun b => { b with last := .first bio }

/-- `STAILQ_INSERT_TAIL`. -/
def stailqInsertTail (bio elm : ℕ) : BioM Unit := do
  setBuffer (some elm) fun b => { b with next := none }
  let b ← loadBio bio
  setSlot (some elm) b.last
  setBio bio fun b => { b with last := .next elm }

/-- `STAILQ_REMOVE_HEAD`. -/
def stailqRemoveHead (bio : ℕ) : BioM Unit := do
  let first ← stailqFirst bio
  let next ← stailqNext first
  setBio bio fun b => { b with first := next }
  if next = none then setBio bio fun b => { b with last := .first bio } else pure ()

/-! ## Buffers -/

section Allocation

variable (A : Allocator Cell) (junk : ℕ → Junk)

/-- `malloc`, with what the new memory holds. -/
def malloc (c : Junk → Cell) : BioM Ptr := do
  let n ← globals
  request A (c (junk n))

/-- `buffer_new`. -/
def bufferNew (data : Bytes) : BioM Ptr := do
  match ← malloc A junk fun j => .buffer j.buffer with
  | none => pure none
  | some buffer => do
    let block ← malloc A junk fun j => .block (j.block data.length)
    setBuffer (some buffer) fun b => { b with data := block }
    if block = none then do
      free buffer
      pure none
    else do
      copyIn block data
      setBuffer (some buffer) fun b => { b with len := data.length }
      pure (some buffer)

/-- `bio_new`. -/
def bioNew : BioM Ptr := do
  match ← malloc A junk fun j => .bio j.bio with
  | none => pure none
  | some bio => do
    stailqInit bio
    setBio bio fun b => { b with offset := 0 }
    setBio bio fun b => { b with len := 0 }
    pure (some bio)

/-- The loop of `bio_write`. -/
def bioWriteLoop (bio : ℕ) (buf : Bytes) : ℕ → ℕ → BioM Int
  | 0, _ => fail .rounds
  | fuel + 1, pos =>
    if pos < buf.length then do
      let size := min 4096 (buf.length - pos)
      match ← bufferNew A junk ((buf.drop pos).take size) with
      | none => pure (-1)
      | some buffer => do
        stailqInsertTail bio buffer
        setBio bio fun b => { b with len := b.len + size }
        bioWriteLoop bio buf fuel (pos + size)
    else pure (toInt32 buf.length)

/-- `bio_write`. A round takes at least one byte. -/
def bioWrite (bio : ℕ) (buf : Bytes) : BioM Int := bioWriteLoop A junk bio buf (buf.length + 1) 0

end Allocation

/-- `buffer_free`. -/
def bufferFree (buffer : Ptr) : BioM Unit := do
  let b ← loadBuffer buffer
  freePtr b.data
  freePtr buffer

/-- Take the first element out and free it. -/
def dropFirst (bio : ℕ) (first : Ptr) : BioM Unit := do
  stailqRemoveHead bio
  bufferFree first

/-- The loop of `bio_reset`. -/
def bioResetLoop (bio : ℕ) : ℕ → BioM Unit
  | 0 => fail .rounds
  | fuel + 1 => do
    let first ← stailqFirst bio
    if first = none then pure ()
    else do
      dropFirst bio first
      bioResetLoop bio fuel

/-- `bio_reset`. Every element has a byte that is still to be read, so there are no more rounds
than such bytes. -/
def bioReset (bio : ℕ) : BioM Unit := do
  let b ← loadBio bio
  bioResetLoop bio (b.len + 1)
  setBio bio fun b => { b with offset := 0 }
  setBio bio fun b => { b with len := 0 }

/-- `bio_free`. -/
def bioFree (bio : ℕ) : BioM Unit := do
  bioReset bio
  free bio

/-- `bio_pending`. -/
def bioPending (bio : ℕ) : BioM Int := do return toInt32 (← loadBio bio).len

/-- How many bytes a round of `bio_read` or `bio_peek` copies. -/
def roundSize (n len offset nread : ℕ) : ℕ :=
  let size := sizeSub n nread
  if sizeSub len offset < size then sizeSub len offset else size

/-- `if (buf) memcpy(..)`. -/
def copyOutIf (copy : Bool) (data : Ptr) (offset size room : ℕ) : BioM Bytes :=
  if copy then copyOut data offset size room else pure []

/-- The end of a round of `bio_read`: move the offset, and drop an element that is used up. -/
def bioReadAdvance (bio : ℕ) (first : Ptr) (buffer : BufferRecord) (size : ℕ) : BioM Unit := do
  setBio bio fun b => { b with offset := b.offset + size }
  let b ← loadBio bio
  if b.offset = buffer.len then do
    dropFirst bio first
    setBio bio fun b => { b with offset := 0 }
  else pure ()

/-- The loop of `bio_read`, with the bytes that were copied and the number that was read. -/
def bioReadLoop (bio : ℕ) (copy : Bool) (n : ℕ) : ℕ → Bytes → ℕ → BioM (Bytes × ℕ)
  | 0, _, _ => fail .rounds
  | fuel + 1, out, nread => do
    let first ← stailqFirst bio
    if first ≠ none ∧ nread < n then do
      let buffer ← loadBuffer first
      let b ← loadBio bio
      let size := roundSize n buffer.len b.offset nread
      let bytes ← copyOutIf copy buffer.data b.offset size (n - nread)
      bioReadAdvance bio first buffer size
      bioReadLoop bio copy n fuel (out ++ bytes) (nread + size)
    else pure (out, nread)

/-- `bio_read`, with a buffer of the caller or without one. A round reads at least one byte. -/
def bioRead (bio : ℕ) (copy : Bool) (n : ℕ) : BioM (Int × Bytes) := do
  let (out, nread) ← bioReadLoop bio copy n (n + 1) [] 0
  setBio bio fun b => { b with len := sizeSub b.len nread }
  pure (toInt32 nread, out)

/-- The loop of `bio_peek`, which is `STAILQ_FOREACH`. -/
def bioPeekLoop (n : ℕ) : ℕ → Ptr → ℕ → Bytes → ℕ → BioM (Bytes × ℕ)
  | 0, _, _, _, _ => fail .rounds
  | fuel + 1, buffer, offset, out, nread =>
    if buffer = none then pure (out, nread)
    else do
      let b ← loadBuffer buffer
      let size := roundSize n b.len offset nread
      let bytes ← copyOut b.data offset size (n - nread)
      let next ← stailqNext buffer
      bioPeekLoop n fuel next 0 (out ++ bytes) (nread + size)

/-- `bio_peek`. Every element has a byte that is still to be read. -/
def bioPeek (bio n : ℕ) : BioM (Int × Bytes) := do
  let b ← loadBio bio
  let first ← stailqFirst bio
  let (out, nread) ← bioPeekLoop n (b.len + 1) first b.offset [] 0
  pure (toInt32 nread, out)

/-- `bio_consume`. -/
def bioConsume (bio n : ℕ) : BioM Int := do
  let (r, _) ← bioRead bio false n
  pure r

end Yamux.Buffer
