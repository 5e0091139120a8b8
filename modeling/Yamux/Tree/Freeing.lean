import Yamux.Tree.Search

/-!
# Freeing a tree on the way

`event_loop_free` frees the records of its tree one after the other with `RB_FOREACH_SAFE`,
without taking them out of the tree. The next record is looked up before a record is freed,
but `RB_NEXT` goes up from a right child without a right child of its own, and what is above it
was freed before.
-/

namespace Yamux.Tree

open Core HeapM RbTree

variable {K : Type}

section Later

variable (κ : ℕ → K)

end Later

variable {κ : ℕ → K} {t l r : RbTree ℕ} {π up : Path ℕ} {c : Color} {a : ℕ} {g p : Ptr}
  {fuel j : ℕ} {F : Region (Node K)} {m : Memory (Node K)}

end Yamux.Tree
