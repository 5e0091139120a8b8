import Yamux.Core.Interference
import Mathlib.Tactic

/-!
# The chunked byte buffer

`bio.c` keeps its content in a list of nodes of at most 4096 bytes, with an
offset into the head node and a separate length. The abstraction of a buffer is
the plain list of bytes that are still to be read; every operation is shown to
act on that list as on a FIFO, which is how the multiplexer uses it.
-/

namespace Yamux

open Core

/-- Byte strings. -/
abbrev Bytes := List UInt8

/-- The calls whose failure `bio.c` and `mux.c` check. -/
inductive Call where
  | alloc
  | sock
  deriving DecidableEq, Repr

/-- Conversion of a `size_t` to a 32-bit `int`. -/
@[irreducible]
def toInt32 (n : Nat) : Int := Int.bmod n (2 ^ 32)

theorem toInt32_eq {n : Nat} (h : n < 2 ^ 31) : toInt32 n = n := by
  unfold toInt32
  rw [Int.bmod_eq_of_le] <;> omega

theorem toInt32_neg {n : Nat} (h : 2 ^ 31 ≤ n) (hlt : n < 2 ^ 32) : toInt32 n < 0 := by
  unfold toInt32
  rw [Int.bmod_def]
  omega

/-- Subtraction of `size_t` values. -/
def sizeSub (a b : Nat) : Nat := if b ≤ a then a - b else a + 2 ^ 64 - b

theorem sizeSub_eq {a b : Nat} (h : b ≤ a) : sizeSub a b = a - b := if_pos h

/-- `struct bio`: the nodes, the offset into the first one, and the length. -/
structure Bio where
  nodes : List Bytes
  offset : Nat
  len : Nat
  deriving DecidableEq, Repr

namespace Bio

/-- `bio_new`. -/
def new : Bio := ⟨[], 0, 0⟩

/-- `bio_reset`. -/
def reset (_ : Bio) : Bio := ⟨[], 0, 0⟩

/-- The capacity of one node. -/
def nodeSize : Nat := 4096

/-- The nodes that the loop of `bio_write` allocates for `rest`, at most `fuel`
of them, and whether it got to the end before an allocation failed. -/
def writeNodes {μ σ : Type} : Nat → Bytes → Prog Call μ σ (Bool × List Bytes)
  | 0, _ => pure (true, [])
  | fuel + 1, rest =>
    if rest = [] then pure (true, [])
    else do
      let ok ← Prog.query .alloc
      if ok then do
        let (done, nodes) ← writeNodes fuel (rest.drop nodeSize)
        pure (done, rest.take nodeSize :: nodes)
      else pure (false, [])

/-- `bio_write`: the pieces queued before a failed allocation stay queued. -/
def write {μ σ : Type} (b : Bio) (buf : Bytes) : Prog Call μ σ (Int × Bio) := do
  let (done, nodes) ← writeNodes buf.length buf
  pure (if done then toInt32 buf.length else -1,
    ⟨b.nodes ++ nodes, b.offset, b.len + nodes.flatten.length⟩)

/-- `bio_pending`. -/
def pending (b : Bio) : Int := toInt32 b.len

/-- The variables of the loops of `bio_read` and `bio_peek`. -/
structure Cursor where
  nodes : List Bytes
  offset : Nat
  out : Bytes
  deriving DecidableEq, Repr

/-- How many bytes of the head node one round copies. -/
def Cursor.size (n : Nat) (node : Bytes) (offset nread : Nat) : Nat :=
  let size := sizeSub n nread
  if sizeSub node.length offset < size then sizeSub node.length offset else size

/-- One round of the loop of `bio_read`, `none` when its condition fails. -/
def readRound (n : Nat) (c : Cursor) : Option Cursor :=
  match c.nodes with
  | [] => none
  | node :: nodes =>
    if c.out.length < n then
      let size := Cursor.size n node c.offset c.out.length
      let out := c.out ++ (node.drop c.offset).take size
      if c.offset + size = node.length then some ⟨nodes, 0, out⟩
      else some ⟨node :: nodes, c.offset + size, out⟩
    else none

/-- The loop of `bio_read`, at most `fuel` rounds. -/
def readLoop (n : Nat) : Nat → Cursor → Cursor
  | 0, c => c
  | fuel + 1, c =>
    match readRound n c with
    | none => c
    | some c' => readLoop n fuel c'

/-- `bio_read`: the returned count, the bytes copied out, and the buffer left.
A round that does not remove a node reaches `n`, hence the number of rounds. -/
def read (b : Bio) (n : Nat) : Int × Bytes × Bio :=
  let c := readLoop n (b.nodes.length + 1) ⟨b.nodes, b.offset, []⟩
  (toInt32 c.out.length, c.out, ⟨c.nodes, c.offset, sizeSub b.len c.out.length⟩)

/-- The loop of `bio_peek`, which runs over all nodes. -/
def peekLoop (n : Nat) : List Bytes → Nat → Bytes → Bytes
  | [], _, out => out
  | node :: nodes, offset, out =>
    peekLoop n nodes 0 (out ++ (node.drop offset).take (Cursor.size n node offset out.length))

/-- `bio_peek`: the returned count and the bytes copied out. -/
def peek (b : Bio) (n : Nat) : Int × Bytes :=
  let out := peekLoop n b.nodes b.offset []
  (toInt32 out.length, out)

/-- `bio_consume`. -/
def consume (b : Bio) (n : Nat) : Int × Bio :=
  let (r, _, b') := b.read n
  (r, b')

/-! ## The bytes of a buffer -/

/-- Non-empty nodes within capacity, and an offset inside the head node. -/
structure NodesOk (nodes : List Bytes) (offset : Nat) : Prop where
  node : ∀ x ∈ nodes, 0 < x.length ∧ x.length ≤ nodeSize
  head : ∀ x ∈ nodes.head?, offset < x.length
  empty : nodes = [] → offset = 0

/-- The bytes still to be read. -/
def bytes (b : Bio) : Bytes := b.nodes.flatten.drop b.offset

/-- The nodes are in order and the length counts the bytes still to be read. -/
structure Wf (b : Bio) : Prop where
  nodes : NodesOk b.nodes b.offset
  len : b.len = b.bytes.length

theorem NodesOk.nil : NodesOk [] 0 := ⟨by simp, by simp, fun _ => rfl⟩

theorem wf_new : Wf new := ⟨NodesOk.nil, rfl⟩

theorem bytes_new : new.bytes = [] := rfl

theorem NodesOk.tail {x : Bytes} {xs : List Bytes} {o : Nat} (h : NodesOk (x :: xs) o) :
    NodesOk xs 0 where
  node y hy := h.node y (List.mem_cons_of_mem x hy)
  head y hy := (h.node y (List.mem_cons_of_mem x (List.mem_of_mem_head? hy))).1
  empty _ := rfl

/-- The bytes behind an offset inside the head node. -/
theorem NodesOk.drop_cons {x : Bytes} {xs : List Bytes} {o : Nat} (h : NodesOk (x :: xs) o) :
    (x :: xs).flatten.drop o = x.drop o ++ xs.flatten := by
  have := h.head x rfl
  rw [List.flatten_cons, List.drop_append_of_le_length (by omega)]

/-- One round copies what is missing or what is left of the node, whichever is less. -/
theorem Cursor.size_eq {n o nread : Nat} {x : Bytes} (ho : o ≤ x.length) (hn : nread ≤ n) :
    Cursor.size n x o nread = min (n - nread) (x.length - o) := by
  simp only [Cursor.size, sizeSub_eq ho, sizeSub_eq hn]
  split <;> omega

/-- The loop of `bio_read` copies the first bytes and leaves the others. -/
theorem readLoop_spec {n fuel : Nat} {c : Cursor} (hf : c.nodes.length < fuel)
    (hc : NodesOk c.nodes c.offset) (hout : c.out.length ≤ n) :
    let r := readLoop n fuel c
    let rest := c.nodes.flatten.drop c.offset
    r.out = c.out ++ rest.take (n - c.out.length) ∧
      r.nodes.flatten.drop r.offset = rest.drop (n - c.out.length) ∧
      NodesOk r.nodes r.offset := by
  induction fuel generalizing c with
  | zero => omega
  | succ fuel ih =>
    obtain ⟨nodes, o, out⟩ := c
    simp only at hf hc hout ⊢
    cases nodes with
    | nil => simp [readLoop, readRound, hc]
    | cons x xs =>
      have ho := hc.head x rfl
      by_cases hn : out.length < n
      · by_cases hx : x.length - o ≤ n - out.length
        · -- the node is used up
          have hs : Cursor.size n x o out.length = x.length - o := by
            rw [Cursor.size_eq ho.le hout]
            omega
          have hlen : (out ++ x.drop o).length = out.length + (x.length - o) := by simp
          have := ih (c := ⟨xs, 0, out ++ x.drop o⟩) (by simp at hf ⊢; omega) hc.tail
            (by simp; omega)
          have htake : (x.drop o).take (x.length - o) = x.drop o :=
            List.take_of_length_le (by simp)
          have he : o + (x.length - o) = x.length := by omega
          simp only [readLoop, readRound, if_pos hn, hs, if_pos he, htake]
          simp only [hlen, List.drop_zero] at this
          rw [hc.drop_cons, this.1, this.2.1]
          refine ⟨?_, ?_, this.2.2⟩
          · rw [List.take_append, List.append_assoc, List.length_drop,
              List.take_of_length_le (l := x.drop o) (by simp; omega)]
            congr 3
            omega
          · have hk : n - out.length =
                (x.drop o).length + (n - (out.length + (x.length - o))) := by
              rw [List.length_drop]
              omega
            rw [hk, List.drop_length_add_append]
        · -- the rest of the request comes out of the head node
          have hs : Cursor.size n x o out.length = n - out.length := by
            rw [Cursor.size_eq ho.le hout]
            omega
          have hne : o + (n - out.length) ≠ x.length := by omega
          have hdone : readLoop n fuel ⟨x :: xs, o + (n - out.length),
              out ++ (x.drop o).take (n - out.length)⟩ = ⟨x :: xs, o + (n - out.length),
              out ++ (x.drop o).take (n - out.length)⟩ := by
            cases fuel with
            | zero => rfl
            | succ fuel =>
              have : ¬ out.length + min (n - out.length) (x.length - o) < n := by omega
              simp [readLoop, readRound, this]
          simp only [readLoop, readRound, if_pos hn, hs, if_neg hne, hdone]
          have hok : NodesOk (x :: xs) (o + (n - out.length)) :=
            ⟨hc.node, by simp; omega, by simp⟩
          refine ⟨?_, ?_, hok⟩
          · rw [hc.drop_cons, List.take_append_of_le_length (by simp; omega)]
          · rw [← List.drop_drop]
      · have hz : n - out.length = 0 := by omega
        simp [readLoop, readRound, hn, hz, hc]

/-- `bio_read` hands out the first `n` bytes and keeps the others. -/
theorem read_spec {b : Bio} (hb : b.Wf) (n : Nat) :
    (b.read n).1 = toInt32 (b.bytes.take n).length ∧ (b.read n).2.1 = b.bytes.take n ∧
      (b.read n).2.2.bytes = b.bytes.drop n ∧ (b.read n).2.2.Wf := by
  obtain ⟨ho, hr, hn⟩ := readLoop_spec (n := n) (c := ⟨b.nodes, b.offset, []⟩)
    (Nat.lt_succ_self _) hb.nodes (Nat.zero_le n)
  simp only [List.length_nil, Nat.sub_zero, List.nil_append] at ho hr hn
  refine ⟨by simp only [read, ho, bytes], by simp only [read, ho, bytes], hr, hn, ?_⟩
  simp only [read, bytes] at hr ⊢
  rw [hr, ho, hb.len, bytes, sizeSub_eq (List.length_take_le' _ _)]
  simp only [List.length_drop, List.length_take]
  omega

/-- The loop of `bio_peek` copies the same bytes, also when it runs on past `n`. -/
theorem peekLoop_spec {n o : Nat} {nodes : List Bytes} {out : Bytes} (hc : NodesOk nodes o)
    (hout : out.length ≤ n) :
    peekLoop n nodes o out = out ++ (nodes.flatten.drop o).take (n - out.length) := by
  induction nodes generalizing o out with
  | nil => simp [peekLoop]
  | cons x xs ih =>
    have ho := hc.head x rfl
    rw [peekLoop, Cursor.size_eq ho.le hout, ih hc.tail (by simp; omega), hc.drop_cons,
      List.append_assoc, List.drop_zero]
    congr 1
    rw [List.take_append, List.length_drop, List.length_append, List.length_take,
      List.length_drop]
    congr 1
    · by_cases h : n - out.length ≤ x.length - o
      · rw [min_eq_left h]
      · rw [min_eq_right (by omega), List.take_of_length_le (by simp),
          List.take_of_length_le (by simp; omega)]
    · congr 1
      omega

/-- `bio_peek` shows what `bio_read` would hand out. -/
theorem peek_spec {b : Bio} (hb : b.Wf) (n : Nat) :
    b.peek n = (toInt32 (b.bytes.take n).length, b.bytes.take n) := by
  have h : ([] : Bytes).length ≤ n := Nat.zero_le n
  simp only [peek, bytes, peekLoop_spec hb.nodes h, List.nil_append, List.length_nil,
    Nat.sub_zero]

/-- `bio_pending` counts the bytes still to be read. -/
theorem pending_spec {b : Bio} (hb : b.Wf) : b.pending = toInt32 b.bytes.length := by
  rw [pending, hb.len]

/-- The nodes that `bio_write` allocates, however many allocations succeed. -/
theorem wp_writeNodes {μ σ : Type} (ok : Call → Bool → Prop) (fuel : Nat) (rest : Bytes)
    (h : rest.length ≤ fuel) (s : σ) :
    (Env.alone ok).wp (writeNodes fuel rest : Prog Call μ σ _) (fun o t => t = s ∧
      ∃ done nodes, o = .ret (done, nodes) ∧ NodesOk nodes 0 ∧ nodes.flatten <+: rest ∧
        (done = true → nodes.flatten = rest) ∧ (done = false → ok .alloc false)) s := by
  induction fuel generalizing rest with
  | zero =>
    have hr : rest = [] := List.length_eq_zero_iff.mp (by omega)
    simp [writeNodes, hr, NodesOk.nil]
  | succ fuel ih =>
    by_cases hr : rest = []
    · simp [writeNodes, hr, NodesOk.nil]
    · have hpos := List.length_pos_of_ne_nil hr
      simp only [writeNodes, hr, if_false, Env.wp_bind, Env.alone_query, Env.post_ret]
      intro b hb
      cases b
      · simpa [hb] using NodesOk.nil
      · simp only [if_true, Env.wp_bind]
        refine Env.wp_mono _ (ih (rest.drop nodeSize) (by simp [nodeSize]; omega)) ?_
        rintro _ _ ⟨rfl, done, nodes, rfl, hn, hp, hd, hf⟩
        simp only [Env.post_ret, Env.alone_pure]
        refine ⟨trivial, done, rest.take nodeSize :: nodes, rfl, ⟨?_, ?_, by simp⟩, ?_, ?_, hf⟩
        · intro x hx
          rcases List.mem_cons.mp hx with rfl | hx
          · simp [nodeSize]; omega
          · exact hn.node x hx
        · simp [nodeSize]
          omega
        · obtain ⟨t, ht⟩ := hp
          exact ⟨t, by rw [List.flatten_cons, List.append_assoc, ht, List.take_append_drop]⟩
        · intro ht
          rw [List.flatten_cons, hd ht, List.take_append_drop]

/-- Without failures the loop gets to the end. -/
theorem exec_writeNodes {μ σ : Type} (buf : Bytes) (s : σ) : ∃ nodes : List Bytes,
    (writeNodes buf.length buf : Prog Call μ σ _).exec s = (.ret (true, nodes), s) ∧
      nodes.flatten = buf := by
  have h := wp_writeNodes (μ := μ) (fun _ b => b = true) buf.length buf (Nat.le_refl _) s
  obtain ⟨ht, done, nodes, ho, -, -, hd, hf⟩ := Env.wp_exec (by simp) h
  cases done
  · simp at hf
  · exact ⟨nodes, Prod.ext ho ht, hd rfl⟩

/-- Queueing nodes appends their bytes. -/
theorem push_spec {b : Bio} (hb : b.Wf) {nodes : List Bytes} (hn : NodesOk nodes 0) :
    (⟨b.nodes ++ nodes, b.offset, b.len + nodes.flatten.length⟩ : Bio).bytes =
      b.bytes ++ nodes.flatten ∧
    (⟨b.nodes ++ nodes, b.offset, b.len + nodes.flatten.length⟩ : Bio).Wf := by
  obtain ⟨bn, o, len⟩ := b
  have ho : o ≤ bn.flatten.length := by
    cases bn with
    | nil => exact (hb.nodes.empty rfl).le
    | cons x xs =>
      have : o < x.length := hb.nodes.head x rfl
      simp only [List.flatten_cons, List.length_append]
      omega
  have hbytes : (⟨bn ++ nodes, o, len + nodes.flatten.length⟩ : Bio).bytes =
      (⟨bn, o, len⟩ : Bio).bytes ++ nodes.flatten := by
    simp only [bytes, List.flatten_append, List.drop_append_of_le_length ho]
  refine ⟨hbytes, ⟨?_, ?_, ?_⟩, ?_⟩
  · intro x hx
    exact (List.mem_append.mp hx).elim (hb.nodes.node x) (hn.node x)
  · cases bn with
    | nil =>
      have := hb.nodes.empty rfl
      simp only at this
      subst this
      exact hn.head
    | cons x xs => exact hb.nodes.head
  · intro he
    exact hb.nodes.empty (List.append_eq_nil_iff.mp he).1
  · rw [hbytes, List.length_append, ← hb.len]

end Bio

end Yamux
