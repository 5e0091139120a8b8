import Yamux.Native.Stream
import Yamux.Tree.Index

/-!
# The tree of the streams

`session_insert_stream`, `session_find_stream` and `session_remove_stream` on the records of the
stream tree. The model of `mux.c` has a map from ids in the place of the tree: in every run of
these functions both answer the same and fail in the same call.
-/

namespace Yamux.Tree

open Core HeapM RbTree

instance linearOrderUInt32 : LinearOrder UInt32 where
  le_refl := UInt32.le_refl
  le_trans _ _ _ := UInt32.le_trans
  le_antisymm _ _ := UInt32.le_antisymm
  le_total := UInt32.le_total
  lt_iff_le_not_ge a b := by
    simp only [UInt32.lt_iff_toNat_lt, UInt32.le_iff_toNat_le]
    omega
  toDecidableLE := inferInstance
  toDecidableEq := inferInstance
  toDecidableLT := inferInstance

/-- `stream_compare`. -/
def streamCompare (s1 s2 : UInt32) : Int := if s1 < s2 then -1 else if s1 > s2 then 1 else 0

/-- `session_insert_stream`. -/
def sessionInsertStream (fuel : ℕ) (stream : Ptr) : RbM UInt32 Unit := do
  let res ← rbInsert streamCompare fuel stream
  if res = none then pure () else fail .assertion

/-- `session_remove_stream`. -/
def sessionRemoveStream (fuel : ℕ) (stream : Ptr) : RbM UInt32 Unit := do
  let id ← keyOf stream
  let res ← rbFind streamCompare fuel id
  let found ← keyOf res
  if found = id then do
    let _ ← rbRemove fuel stream
    pure ()
  else pure ()

/-- `session_find_stream`. -/
def sessionFindStream (fuel : ℕ) (id : UInt32) : RbM UInt32 Ptr := rbLookup streamCompare fuel id

/-- The calls of `mux.c` that use the tree: a stream that is made at an address which the allocator
picks, a search, and a stream that is searched and freed. -/
inductive StreamCall where
  | new (pick : Memory (Node UInt32) → ℕ) (id : UInt32) (st : Stream) (before : Entry)
  | find (id : UInt32)
  | free (id : UInt32)

/-- The calls on the records. -/
def StreamCall.code (fuel : ℕ) : StreamCall → RbM UInt32 Bool
  | .new pick id _ before => do
    let a ← malloc pick ⟨id, before⟩
    sessionInsertStream fuel (some a)
    pure true
  | .find id => do
    let stream ← sessionFindStream fuel id
    pure stream.isSome
  | .free id => do
    let stream ← sessionFindStream fuel id
    sessionRemoveStream fuel stream
    let a ← deref stream
    HeapM.free a
    pure stream.isSome

variable {α β : Type} {n fuel : ℕ} {s s' : Session} {h h' : Heap Ptr (Node UInt32)}
  {data : ℕ → Stream} {index : Index UInt32} {id : UInt32} {a : ℕ}

/-- The streams of the session are the records of the tree, where `data` is what the records hold
beside the id and the entry. -/
structure Keeps (index : Index UInt32) (data : ℕ → Stream) (n : ℕ) (s : Session)
    (h : Heap Ptr (Node UInt32)) : Prop where
  inHeap : index.InHeap n h
  streams : ∀ id, s.streams id = (index id).map data

/-- Both agree: with the same answer and the same streams, or with a failure that is not for
want of rounds. -/
inductive Agree (n : ℕ) :
    Outcome α × Session → Except Fault (α × Heap Ptr (Node UInt32)) → Prop where
  | done {index : Index UInt32} {data : ℕ → Stream} {b : α} {s : Session}
      {h : Heap Ptr (Node UInt32)} (hK : Keeps index data n s h) : Agree n (.ret b, s) (.ok (b, h))
  | failed {s : Session} {f : Fault} (hf : f ≠ .rounds) : Agree n (.abort, s) (.error f)

end Yamux.Tree
