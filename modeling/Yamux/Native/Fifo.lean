import Yamux.Native.Bio

/-!
# A buffer is a byte FIFO

The calls on a `bio` as one type, and the same calls on a plain list of bytes.
Along every sequence of calls the two give the same replies, whatever the nodes
and offsets of the buffer are.
-/

namespace Yamux

open Core

/-- The calls on a buffer. -/
inductive BioOp where
  | write (data : Bytes)
  | read (n : Nat)
  | peek (n : Nat)
  | consume (n : Nat)
  | pending
  | reset
  deriving DecidableEq, Repr

/-- What a call returns, and the bytes that it copies out. -/
structure Reply where
  result : Int
  bytes : Bytes
  deriving DecidableEq, Repr

/-- The program of a call: its reply and the buffer that it leaves. -/
def BioOp.code {μ σ : Type} (b : Bio) : BioOp → Prog Call μ σ (Reply × Bio)
  | .write data => do
    let (r, b') ← b.write data
    pure (⟨r, []⟩, b')
  | .read n => pure (⟨(b.read n).1, (b.read n).2.1⟩, (b.read n).2.2)
  | .peek n => pure (⟨(b.peek n).1, (b.peek n).2⟩, b)
  | .consume n => pure (⟨(b.consume n).1, []⟩, (b.consume n).2)
  | .pending => pure (⟨b.pending, []⟩, b)
  | .reset => pure (⟨0, []⟩, b.reset)

/-- The same call on a list of bytes. -/
def BioOp.onList (q : Bytes) : BioOp → Reply × Bytes
  | .write data => (⟨data.length, []⟩, q ++ data)
  | .read n => (⟨(q.take n).length, q.take n⟩, q.drop n)
  | .peek n => (⟨(q.take n).length, q.take n⟩, q)
  | .consume n => (⟨(q.take n).length, []⟩, q.drop n)
  | .pending => (⟨q.length, []⟩, q)
  | .reset => (⟨0, []⟩, [])

/-- The replies to a sequence of calls on a list, and what it leaves. -/
def listRun : Bytes → List BioOp → List Reply × Bytes
  | q, [] => ([], q)
  | q, op :: ops =>
    let (reply, q') := op.onList q
    let (replies, q'') := listRun q' ops
    (reply :: replies, q'')

/-- The content stays below `2 ^ 31` bytes. -/
def Fits : Bytes → List BioOp → Prop
  | q, [] => q.length < 2 ^ 31
  | q, op :: ops => q.length < 2 ^ 31 ∧ Fits (op.onList q).2 ops

namespace Bio

/-- The replies to a sequence of calls on a buffer whose allocations succeed, and
the buffer that it leaves. -/
def run : Bio → List BioOp → List Reply × Bio
  | b, [] => ([], b)
  | b, op :: ops =>
    match (op.code b : Prog Call Empty Unit (Reply × Bio)).exec () with
    | (.ret (reply, b'), _) =>
      let (replies, b'') := run b' ops
      (reply :: replies, b'')
    | _ => ([], b)

variable {b : Bio}

/-- A write without failures appends all the bytes. -/
theorem exec_write {μ σ : Type} (hb : b.Wf) (data : Bytes) (s : σ) :
    ∃ b' : Bio, (b.write data : Prog Call μ σ _).exec s = (.ret (toInt32 data.length, b'), s) ∧
      b'.bytes = b.bytes ++ data ∧ b'.Wf := by
  have hwp := wp_writeNodes (μ := μ) (fun _ ok => ok = true) data.length data (Nat.le_refl _) s
  obtain ⟨ht, done, nodes, ho, hok, -, hdone, hfail⟩ := Env.wp_exec (by simp) hwp
  cases done with
  | false => exact absurd (hfail rfl) (by decide)
  | true =>
    obtain ⟨hbytes, hwf⟩ := push_spec hb hok
    have hexec : (writeNodes data.length data : Prog Call μ σ _).exec s = (.ret (true, nodes), s) :=
      Prod.ext ho ht
    refine ⟨⟨b.nodes ++ nodes, b.offset, b.len + nodes.flatten.length⟩, ?_, ?_, hwf⟩
    · simp only [write, Prog.exec_bind, hexec, Prog.andThen_ret, if_true, Prog.exec_pure]
    · rw [hbytes, hdone rfl]

/-- Every call acts on the buffer as on the list of its bytes. -/
theorem exec_code {op : BioOp} (hb : b.Wf) (hlen : b.bytes.length < 2 ^ 31)
    (hlen' : (op.onList b.bytes).2.length < 2 ^ 31) :
    ∃ b' : Bio, (op.code b : Prog Call Empty Unit _).exec () =
        (.ret ((op.onList b.bytes).1, b'), ()) ∧
      b'.bytes = (op.onList b.bytes).2 ∧ b'.Wf := by
  have htake (n : Nat) : toInt32 (b.bytes.take n).length = (b.bytes.take n).length :=
    toInt32_eq (by rw [List.length_take]; omega)
  cases op with
  | write data =>
    obtain ⟨b', hexec, hbytes, hwf⟩ := exec_write (μ := Empty) hb data ()
    have hdata : toInt32 data.length = data.length := by
      rw [BioOp.onList, List.length_append] at hlen'
      exact toInt32_eq (by omega)
    refine ⟨b', ?_, hbytes, hwf⟩
    rw [BioOp.code, Prog.exec_bind, hexec, hdata]
    rfl
  | read n =>
    obtain ⟨hr, hout, hrest, hwf⟩ := read_spec hb n
    refine ⟨(b.read n).2.2, ?_, hrest, hwf⟩
    rw [BioOp.code, Prog.exec_pure, hr, hout, htake]
    rfl
  | peek n =>
    refine ⟨b, ?_, rfl, hb⟩
    rw [BioOp.code, Prog.exec_pure, peek_spec hb, htake]
    rfl
  | consume n =>
    obtain ⟨hr, -, hrest, hwf⟩ := read_spec hb n
    refine ⟨(b.consume n).2, ?_, hrest, hwf⟩
    have hconsume : (b.consume n).1 = (b.read n).1 := rfl
    rw [BioOp.code, Prog.exec_pure, hconsume, hr, htake]
    rfl
  | pending =>
    refine ⟨b, ?_, rfl, hb⟩
    rw [BioOp.code, Prog.exec_pure, pending_spec hb, toInt32_eq hlen]
    rfl
  | reset => exact ⟨b.reset, rfl, rfl, wf_new⟩

/-- A sequence of calls gives the same replies as on the list of the bytes. -/
theorem run_eq_listRun {ops : List BioOp} (hb : b.Wf) (hfits : Fits b.bytes ops) :
    (b.run ops).1 = (listRun b.bytes ops).1 ∧
      (b.run ops).2.bytes = (listRun b.bytes ops).2 ∧ (b.run ops).2.Wf := by
  induction ops generalizing b with
  | nil => exact ⟨rfl, rfl, hb⟩
  | cons op ops ih =>
    obtain ⟨hlen, hrest⟩ := hfits
    have hlen' : (op.onList b.bytes).2.length < 2 ^ 31 := by
      cases ops with
      | nil => exact hrest
      | cons => exact hrest.1
    obtain ⟨b', hexec, hbytes, hwf⟩ := exec_code hb hlen hlen'
    rw [← hbytes] at hrest
    obtain ⟨hreplies, hend, hwf'⟩ := ih hwf hrest
    rw [hbytes] at hreplies hend
    rw [run, hexec, listRun]
    exact ⟨congrArg _ hreplies, hend, hwf'⟩

/-- Writes append their bytes. -/
theorem listRun_writes (q : Bytes) (pieces : List Bytes) (ops : List BioOp) :
    (listRun q (pieces.map .write ++ ops)).2 = (listRun (q ++ pieces.flatten) ops).2 := by
  induction pieces generalizing q with
  | nil => rw [List.map_nil, List.nil_append, List.flatten_nil, List.append_nil]
  | cons piece pieces ih =>
    rw [List.map_cons, List.cons_append, List.flatten_cons, ← List.append_assoc]
    exact ih (q ++ piece)

theorem listRun_append (q : Bytes) (ops ops' : List BioOp) :
    (listRun q (ops ++ ops')).2 = (listRun (listRun q ops).2 ops').2 := by
  induction ops generalizing q with
  | nil => rfl
  | cons op ops ih => exact ih (op.onList q).2

theorem length_lt_of_fits {q : Bytes} {ops : List BioOp} (h : Fits q ops) :
    (listRun q ops).2.length < 2 ^ 31 := by
  induction ops generalizing q with
  | nil => exact h
  | cons op ops ih => exact ih h.2

/-- The buffer is a byte FIFO: from a new buffer, every call of every sequence
replies as on a list of bytes and leaves what the list would hold. And what a peek
showed is what a consume of at most that much removes, whatever is written between. -/
theorem fifo (ops : List BioOp) (hfits : Fits [] ops) :
    (new.run ops).1 = (listRun [] ops).1 ∧ (new.run ops).2.bytes = (listRun [] ops).2 ∧
    ∀ (n m : Nat) (pieces : List Bytes), (m : Int) ≤ ((new.run ops).2.peek n).1 →
      Fits [] (ops ++ .peek n :: (pieces.map .write ++ [.consume m])) →
      ∃ rest, (new.run ops).2.bytes = ((new.run ops).2.peek n).2.take m ++ rest ∧
        (((new.run ops).2.peek n).2.take m).length = m ∧
        (new.run (ops ++ .peek n :: (pieces.map .write ++ [.consume m]))).2.bytes =
          rest ++ pieces.flatten := by
  obtain ⟨hreplies, hend, hwf⟩ := run_eq_listRun wf_new hfits
  rw [bytes_new] at hreplies hend
  refine ⟨hreplies, hend, fun n m pieces hm hfits' => ?_⟩
  obtain ⟨-, hend', -⟩ := run_eq_listRun wf_new hfits'
  have hlen := length_lt_of_fits hfits
  rw [bytes_new, listRun_append, ← hend] at hend'
  rw [← hend] at hlen
  generalize (new.run ops).2 = b at hwf hlen hm hend'
  -- what was peeked is the front of the content
  rw [peek_spec hwf] at hm ⊢
  simp only at hm ⊢
  rw [toInt32_eq (by rw [List.length_take]; omega), List.length_take] at hm
  have hmn : m ≤ n := by omega
  have hmb : m ≤ b.bytes.length := by omega
  refine ⟨b.bytes.drop m, ?_, ?_, ?_⟩
  · rw [List.take_take, min_eq_left hmn, List.take_append_drop]
  · rw [List.take_take, min_eq_left hmn, List.length_take, min_eq_left hmb]
  · rw [hend']
    change (listRun b.bytes (pieces.map .write ++ [.consume m])).2 = _
    rw [listRun_writes]
    change (b.bytes ++ pieces.flatten).drop m = _
    rw [List.drop_append_of_le_length hmb]

/-- Three bytes are peeked at, two more written, and two consumed. -/
theorem fifo_partial : ∃ rest, (new.run [.write [1, 2, 3, 4]]).2.bytes = [1, 2] ++ rest ∧
    (new.run [.write [1, 2, 3, 4], .peek 3, .write [5], .write [6], .consume 2]).2.bytes =
      rest ++ [5, 6] := by
  have hfits : Fits [] [.write [1, 2, 3, 4], .peek 3, .write [5], .write [6], .consume 2] := by
    simp [Fits, BioOp.onList]
  obtain ⟨rest, hfront, -, hend⟩ := (fifo [.write [1, 2, 3, 4]] (by simp [Fits, BioOp.onList])).2.2
    3 2 [[5], [6]] (by decide +kernel) hfits
  refine ⟨rest, ?_, hend⟩
  rw [hfront]
  congr 1

end Bio

end Yamux
