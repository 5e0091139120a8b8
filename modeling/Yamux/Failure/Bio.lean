import Yamux.Native.Fifo
import Yamux.Sequential.Extension

/-!
# A write to a buffer when an allocation fails

`bio_write` allocates one node after the other and gives up at the first failure,
with the nodes before it queued. So a failed write leaves no trace exactly if the
first allocation is the one that fails.
-/

namespace Yamux

open Core Prog

namespace Bio

/-- The number of nodes that hold `n` bytes. -/
def nodeCount (n : Nat) : Nat := (n + nodeSize - 1) / nodeSize

/-- The answers let the allocations of all nodes for `n` bytes succeed. -/
def Served (answers : List Bool) (n : Nat) : Prop :=
  ∀ i < nodeCount n, answers.getD i true = true

instance (answers : List Bool) (n : Nat) : Decidable (Served answers n) :=
  inferInstanceAs (Decidable (∀ i < nodeCount n, answers.getD i true = true))

theorem served_zero (answers : List Bool) : Served answers 0 := by
  intro i hi
  simp [nodeCount, nodeSize] at hi

theorem nodeCount_pos {n : Nat} (h : 0 < n) : nodeCount n = nodeCount (n - nodeSize) + 1 := by
  simp only [nodeCount, nodeSize]
  omega

/-- The first node, and those behind it. -/
theorem served_pos {answers : List Bool} {n : Nat} (h : 0 < n) :
    Served answers n ↔ answers.headD true = true ∧ Served answers.tail (n - nodeSize) := by
  unfold Served
  rw [nodeCount_pos h]
  constructor
  · intro hall
    constructor
    · have := hall 0 (Nat.succ_pos _)
      cases answers with
      | nil => rfl
      | cons a as => exact this
    · intro i hi
      have := hall (i + 1) (Nat.succ_lt_succ hi)
      cases answers with
      | nil => rfl
      | cons a as => exact this
  · rintro ⟨hhead, htail⟩ i hi
    cases i with
    | zero =>
      cases answers with
      | nil => rfl
      | cons a as => exact hhead
    | succ i =>
      have := htail i (Nat.lt_of_succ_lt_succ hi)
      cases answers with
      | nil => rfl
      | cons a as => exact this

/-- What the loop of `bio_write` does with given answers. -/
structure Wrote (rest : Bytes) (answers : List Bool) (done : Bool) (nodes : List Bytes) :
    Prop where
  ok : NodesOk nodes 0
  complete : done = true ↔ Served answers rest.length
  all : done = true → nodes.flatten = rest
  void : nodes = [] ↔ rest = [] ∨ answers.headD true = false

theorem run_writeNodes {μ σ : Type} {fuel : Nat} {rest : Bytes} (h : rest.length ≤ fuel)
    (ans : Answers Call) (s : σ) :
    ∃ done nodes ans', (writeNodes fuel rest : Prog Call μ σ _).run ans s =
        (.ret (done, nodes), ans', s) ∧ Wrote rest (ans .alloc) done nodes ∧
      (done = true → ans' .alloc = (ans .alloc).drop (nodeCount rest.length)) := by
  induction fuel generalizing rest ans with
  | zero =>
    obtain rfl := List.length_eq_zero_iff.mp (Nat.le_zero.mp h)
    exact ⟨true, [], ans, rfl, ⟨.nil, by simp [served_zero], fun _ => rfl, by simp⟩, fun _ => rfl⟩
  | succ fuel ih =>
    by_cases hr : rest = []
    · subst hr
      exact ⟨true, [], ans, by simp [writeNodes],
        ⟨.nil, by simp [served_zero], fun _ => rfl, by simp⟩, fun _ => rfl⟩
    · have hpos := List.length_pos_of_ne_nil hr
      cases ha : (ans .alloc).headD true with
      | false =>
        refine ⟨false, [], ans.next .alloc, ?_, ⟨.nil, ?_, (fun h => by cases h), ?_⟩,
          fun h => by cases h⟩
        · simp only [writeNodes, if_neg hr, run_bind, run_query, runThen_ret, ha,
            Bool.false_eq_true, if_false, run_pure]
        · rw [served_pos hpos, ha]
          simp
        · rw [ha]
          simp
      | true =>
        obtain ⟨done, nodes, ans', hrun, hw, hleft⟩ := @ih (rest.drop nodeSize)
          (by simp [nodeSize]; omega) (ans.next .alloc)
        refine ⟨done, rest.take nodeSize :: nodes, ans', ?_,
          ⟨⟨?_, ?_, (fun h => by cases h)⟩, ?_, ?_, ?_⟩, ?_⟩
        · simp only [writeNodes, if_neg hr, run_bind, run_query, runThen_ret, ha, if_true, hrun,
            run_pure]
        · intro x hx
          rcases List.mem_cons.mp hx with rfl | hx
          · simp [nodeSize]
            omega
          · exact hw.ok.node x hx
        · simp [nodeSize]
          omega
        · rw [served_pos hpos, ha, hw.complete, Answers.next_same, List.length_drop]
          simp
        · intro hd
          rw [List.flatten_cons, hw.all hd, List.take_append_drop]
        · rw [ha]
          simp [hr]
        · intro hd
          rw [hleft hd, Answers.next_same, List.length_drop, nodeCount_pos hpos, List.drop_tail]

/-- Nodes that were queued hold bytes. -/
theorem NodesOk.flatten_eq_nil {nodes : List Bytes} (h : NodesOk nodes 0) :
    nodes.flatten = [] ↔ nodes = [] := by
  constructor
  · intro hnil
    cases nodes with
    | nil => rfl
    | cons x xs =>
      have hx := (h.node x List.mem_cons_self).1
      rw [List.flatten_cons, List.append_eq_nil_iff] at hnil
      rw [hnil.1] at hx
      exact absurd hx (lt_irrefl 0)
  · rintro rfl
    rfl

/-! ## Buffers that calls have led to -/

/-- The buffers that sequences of calls lead to, whichever allocations fail. -/
inductive Reached : Bio → Prop where
  | new : Reached new
  | call {b b' : Bio} {op : BioOp} {ans ans' : Answers Call} {reply : Reply} (h : Reached b)
      (hrun : (op.code b : Prog Call Empty Unit _).run ans () = (.ret (reply, b'), ans', ())) :
      Reached b'

variable {b : Bio}

/-- What a write queues. -/
theorem run_write {μ σ : Type} (b : Bio) (buf : Bytes) (ans : Answers Call) (s : σ) :
    ∃ done nodes ans', (b.write buf : Prog Call μ σ _).run ans s =
        (.ret (if done then toInt32 buf.length else -1,
          ⟨b.nodes ++ nodes, b.offset, b.len + nodes.flatten.length⟩), ans', s) ∧
      Wrote buf (ans .alloc) done nodes := by
  obtain ⟨done, nodes, ans', hrun, hw, -⟩ := run_writeNodes (μ := μ) (Nat.le_refl buf.length) ans s
  exact ⟨done, nodes, ans', by simp only [write, run_bind, hrun, runThen_ret, run_pure], hw⟩

theorem Reached.wf (h : Reached b) : b.Wf := by
  induction h with
  | new => exact wf_new
  | @call b b' op ans ans' reply _ hrun ih =>
    cases op with
    | write data =>
      obtain ⟨done, nodes, ans'', hwrite, hw⟩ := run_write (μ := Empty) b data ans ()
      simp only [BioOp.code, run_bind, hwrite, runThen_ret, run_pure] at hrun
      cases hrun
      exact (push_spec ih hw.ok).2
    | read n =>
      cases hrun
      exact (read_spec ih n).2.2.2
    | peek n =>
      cases hrun
      exact ih
    | consume n =>
      cases hrun
      exact (read_spec ih n).2.2.2
    | pending =>
      cases hrun
      exact ih
    | reset =>
      cases hrun
      exact wf_new

end Bio

/-! ## All or nothing -/

theorem toInt32_eq_neg_one {n : Nat} : toInt32 n = -1 ↔ n % 2 ^ 32 = 2 ^ 32 - 1 := by
  unfold toInt32
  rw [Int.bmod_def]
  omega

/-- A failed write leaves no trace with these answers: its first allocation is the
one that fails, or it does not fail, nor does its count read as a failure. -/
def WriteClean (answers : List Bool) (n : Nat) : Prop :=
  answers.headD true = false ∨ (Bio.Served answers n ∧ n % 2 ^ 32 ≠ 2 ^ 32 - 1)

namespace Bio

variable {b : Bio}

/-- Whether a write leaves a trace is decided by the nodes that it queued. -/
theorem Wrote.clean {buf : Bytes} {answers : List Bool} {done : Bool} {nodes : List Bytes}
    (h : Wrote buf answers done nodes) :
    ((if done then toInt32 buf.length else -1) = -1 → nodes = []) ↔
      WriteClean answers buf.length := by
  unfold WriteClean
  cases done with
  | false =>
    have hns : ¬ Served answers buf.length := mt h.complete.mpr Bool.false_ne_true
    have hne : buf ≠ [] := fun he => hns (he ▸ served_zero answers)
    rw [if_neg Bool.false_ne_true, h.void]
    simp [hns, hne]
  | true =>
    have hs : Served answers buf.length := h.complete.mp rfl
    rw [if_pos rfl, toInt32_eq_neg_one, h.void]
    by_cases hlen : buf.length % 2 ^ 32 = 2 ^ 32 - 1
    · have hne : buf ≠ [] := by
        rintro rfl
        cases hlen
      tauto
    · tauto

end Bio

/-- When `bio_write` is all or nothing: a write that returns -1 leaves the content
and the length as they were exactly if its first allocation is the one that failed,
or no allocation failed and the count does not read as -1; and so it is for the input
of a session. -/
theorem bioWrite_all_or_nothing {b : Bio} (hb : b.Reached) (s : Session) (buf : Bytes)
    (ans : Answers Call) :
    ((∀ r b' ans', (b.write buf : Prog Call Empty Unit _).run ans () = (.ret (r, b'), ans', ()) →
        r = -1 → b'.bytes = b.bytes ∧ b'.pending = b.pending) ↔
      WriteClean (ans .alloc) buf.length) ∧
    ((∀ r t ans', (sessionRecvBufWrite buf).run ans s = (.ret r, ans', t) →
        r = -1 → t.recvBuf = s.recvBuf) ↔
      WriteClean (ans .alloc) buf.length) := by
  constructor
  · obtain ⟨done, nodes, ans', hrun, hw⟩ := Bio.run_write (μ := Empty) b buf ans ()
    obtain ⟨hbytes, hwf⟩ := Bio.push_spec hb.wf hw.ok
    rw [← hw.clean]
    constructor
    · intro h hr
      have := (h _ _ _ hrun hr).1
      rw [hbytes, List.append_right_eq_self] at this
      exact hw.ok.flatten_eq_nil.mp this
    · intro h r b' ans'' he hr
      rw [hrun] at he
      cases he
      rw [h hr]
      simp
  · obtain ⟨done, nodes, ans', hrun, hw, -⟩ := Bio.run_writeNodes (μ := Mutex)
      (Nat.le_refl buf.length) ans s
    have hsession : (sessionRecvBufWrite buf).run ans s =
        (.ret (if done then toInt32 buf.length else -1), ans', s.more nodes.flatten) := by
      simp only [sessionRecvBufWrite, bioWrite, run_bind, hrun, runThen_ret, run_pure, run_modify]
      rfl
    rw [← hw.clean]
    constructor
    · intro h hr
      have := h _ _ _ hsession hr
      rw [Session.more_recvBuf, List.append_right_eq_self] at this
      exact hw.ok.flatten_eq_nil.mp this
    · intro h r t ans'' he hr
      rw [hsession] at he
      cases he
      rw [Session.more_recvBuf, h hr, List.flatten_nil, List.append_nil]

/-- The first allocation succeeds and the second one fails. -/
def secondFails : Answers Call := fun c => if c = .alloc then [true, false] else []

/-- A write of more than one node fails with the first node queued. -/
theorem run_write_secondFails {b : Bio} {buf : Bytes} (h : Bio.nodeSize < buf.length) :
    ∃ ans', (b.write buf : Prog Call Empty Unit _).run secondFails () =
      (.ret (-1, ⟨b.nodes ++ [buf.take Bio.nodeSize], b.offset, b.len + Bio.nodeSize⟩), ans', ()) := by
  obtain ⟨n, hn⟩ : ∃ n, buf.length = n + 2 := ⟨buf.length - 2, by unfold Bio.nodeSize at h; omega⟩
  have hne : buf ≠ [] := List.ne_nil_of_length_pos (by omega)
  have hrest : buf.drop Bio.nodeSize ≠ [] := List.ne_nil_of_length_pos (by
    rw [List.length_drop]
    omega)
  have hfirst : (secondFails .alloc).headD true = true := rfl
  have hsecond : (secondFails.next .alloc .alloc).headD true = false := rfl
  have hlen : (buf.take Bio.nodeSize).length = Bio.nodeSize := by
    rw [List.length_take, min_eq_left h.le]
  refine ⟨(secondFails.next .alloc).next .alloc, ?_⟩
  simp only [Bio.write, hn, Bio.writeNodes, if_neg hne, if_neg hrest, run_bind, run_query,
    runThen_ret, hfirst, hsecond, if_true, Bool.false_eq_true, if_false, run_pure,
    List.flatten_cons, List.flatten_nil, List.append_nil, hlen]

/-- A write of 5000 bytes to a new buffer fails with 4096 of them queued. -/
theorem bioWrite_second_fails : ∃ (b' : Bio) (ans' : Answers Call),
    (Bio.new.write (List.replicate 5000 0) : Prog Call Empty Unit _).run secondFails () =
      (.ret (-1, b'), ans', ()) ∧ b'.pending = 4096 ∧ Bio.new.pending = 0 ∧
    b'.bytes.length = 4096 ∧ Bio.new.bytes = [] := by
  obtain ⟨ans', hrun⟩ := @run_write_secondFails Bio.new (List.replicate 5000 0)
    (by rw [List.length_replicate]; decide)
  refine ⟨_, ans', hrun, toInt32_eq (by decide), toInt32_eq (by decide), ?_, rfl⟩
  simp only [Bio.bytes, Bio.new, List.nil_append, List.flatten_cons, List.flatten_nil,
    List.append_nil, List.drop_zero, List.length_take, List.length_replicate]
  rfl

/-- With the first allocation failing, nothing is queued. -/
theorem bioWrite_first_fails : ∃ b' ans',
    (Bio.new.write [1, 2, 3] : Prog Call Empty Unit _).run (fun _ => [false]) () =
      (.ret (-1, b'), ans', ()) ∧ b'.bytes = Bio.new.bytes ∧ b'.pending = Bio.new.pending := by
  have hrun : (Bio.new.write [1, 2, 3] : Prog Call Empty Unit _).run (fun _ => [false]) () =
      (.ret (-1, Bio.new), Answers.next (fun _ => [false]) .alloc, ()) := rfl
  exact ⟨_, _, hrun, (bioWrite_all_or_nothing .new (sessionInit true 4096) [1, 2, 3]
    fun _ => [false]).1.mpr (.inl rfl) _ _ _ hrun rfl⟩

end Yamux
