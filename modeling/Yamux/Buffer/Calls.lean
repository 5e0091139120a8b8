import Yamux.Buffer.Layout
import Yamux.Failure.Bio

/-!
# The functions of `bio.c` in memory

Each function does to a queue in memory what it does to the list of the nodes. The bytes of an
element are the bytes of a node; where they are does not matter.
-/

namespace Yamux.Buffer

open Core HeapM

/-- The nodes of a queue. -/
def Chain.toBio (c : Chain) : Bio := ⟨c.pieces.map Piece.bytes, c.offset, c.len⟩

/-- There are no more elements than bytes that are still to be read. -/
theorem Chain.length_le {c : Chain} (h : c.toBio.Wf) : c.pieces.length ≤ c.len := by
  have hlen : c.len = c.toBio.bytes.length := h.len
  have hnodes (nodes : List Bytes) (o : ℕ) (h : Bio.NodesOk nodes o) :
      nodes.length ≤ (nodes.flatten.drop o).length := by
    induction nodes generalizing o with
    | nil => exact Nat.zero_le _
    | cons x xs ih =>
      have htail := ih 0 h.tail
      have hhead := h.head x rfl
      rw [h.drop_cons, List.length_append, List.length_drop, List.length_cons]
      rw [List.drop_zero] at htail
      omega
  have := hnodes _ _ h.nodes
  rw [hlen]
  simpa [Chain.toBio, Bio.bytes] using this

section Calls

variable {g : ℕ} {bio : ℕ} {c : Chain}

/-! ## Emptying -/

theorem does_bioResetLoop {fuel : ℕ} (hf : c.pieces.length < fuel) :
    Does (bioResetLoop bio fuel) g (c.lay bio) () g
      (({ c with pieces := [] } : Chain).lay bio) := by
  induction fuel generalizing c with
  | zero => omega
  | succ fuel ih =>
    apply does_stailqFirst.bind
    cases hc : c.pieces with
    | nil =>
      rw [← hc, if_pos (by rw [hc]; rfl)]
      exact .pure _ _ _
    | cons x xs =>
      rw [hc, List.length_cons] at hf
      exact (does_dropFirst hc).bind (ih (Nat.lt_of_succ_lt_succ hf))

/-- `bio_reset` leaves a new queue. -/
theorem does_bioReset (h : c.toBio.Wf) :
    Does (bioReset bio) g (c.lay bio) () g ((⟨[], 0, 0⟩ : Chain).lay bio) := by
  have hloop : Does (bioResetLoop bio (c.len + 1)) g (c.lay bio) () g
      (({ c with pieces := [] } : Chain).lay bio) :=
    does_bioResetLoop (Nat.lt_succ_of_le (Chain.length_le h))
  have hload : Does (loadBio bio) g (c.lay bio) (c.record bio) g (c.lay bio) :=
    does_loadBio.frame _
  have hoffset : Does (setBio bio fun b => { b with offset := 0 }) g
      (({ c with pieces := [] } : Chain).lay bio) () g ((⟨[], 0, c.len⟩ : Chain).lay bio) :=
    does_setChain _ rfl rfl
  apply hload.bind
  apply hloop.bind
  exact hoffset.bind (does_setChain _ rfl rfl)

/-- `bio_free` gives everything back. -/
theorem does_bioFree (h : c.toBio.Wf) : Does (bioFree bio) g (c.lay bio) () g 1 := by
  apply (does_bioReset h).bind
  rw [Chain.lay, layPieces, mul_one]
  exact Does.free bio _ g

theorem does_bioPending : Does (bioPending bio) g (c.lay bio) c.toBio.pending g (c.lay bio) := by
  have hload : Does (loadBio bio) g (c.lay bio) (c.record bio) g (c.lay bio) :=
    does_loadBio.frame _
  exact hload.bind (.pure _ _ _)

/-! ## Reading -/

theorem roundSize_eq (n offset nread : ℕ) (node : Bytes) :
    roundSize n node.length offset nread = Bio.Cursor.size n node offset nread := rfl

/-- The record of the first element. -/
theorem does_loadFirst {x : Piece} {xs : List Piece} (hc : c.pieces = x :: xs) :
    Does (loadBuffer (some x.addr)) g (c.lay bio) (x.record (firstOf xs none)) g (c.lay bio) := by
  rw [Chain.lay, hc, layPieces, Piece.lay]
  apply does_loadBuffer.within (F := .cell bio (.bio (c.record bio)) *
    (.cell x.data (.block x.bytes) * layPieces xs none))
  · ac_rfl
  · ac_rfl

/-- The copy of a round stays inside the block and inside the buffer of the caller. -/
theorem does_copyOutIf {x : Piece} {xs : List Piece} (hc : c.pieces = x :: xs) (copy : Bool)
    {n nread : ℕ} (ho : c.offset ≤ x.bytes.length) (hn : nread ≤ n) :
    Does (copyOutIf copy (some x.data) c.offset (Bio.Cursor.size n x.bytes c.offset nread)
        (n - nread)) g (c.lay bio)
      (if copy then (x.bytes.drop c.offset).take (Bio.Cursor.size n x.bytes c.offset nread) else [])
      g (c.lay bio) := by
  rw [Bio.Cursor.size_eq ho hn, Chain.lay, hc, layPieces, Piece.lay]
  cases copy with
  | false => exact .pure _ _ _
  | true =>
    have hcopy : Does (copyOut (some x.data) c.offset (min (n - nread) (x.bytes.length - c.offset))
        (n - nread)) g (.cell x.data (.block x.bytes))
        ((x.bytes.drop c.offset).take (min (n - nread) (x.bytes.length - c.offset))) g
        (.cell x.data (.block x.bytes)) := does_copyOut (by omega) (by omega)
    apply hcopy.within (F := .cell bio (.bio (c.record bio)) *
      (.cell x.addr (.buffer (x.record (firstOf xs none))) * layPieces xs none))
    · ac_rfl
    · ac_rfl

/-- The queue after a round that read so many bytes of the first element. -/
def Chain.advance (c : Chain) (size : ℕ) : Chain :=
  match c.pieces with
  | [] => c
  | x :: xs =>
    if c.offset + size = x.bytes.length then ⟨xs, 0, c.len⟩
    else ⟨x :: xs, c.offset + size, c.len⟩

theorem does_bioReadAdvance {x : Piece} {xs : List Piece} (hc : c.pieces = x :: xs) (p : Ptr)
    (size : ℕ) : Does (bioReadAdvance bio (some x.addr) (x.record p) size) g (c.lay bio) () g
      ((c.advance size).lay bio) := by
  have hoffset : Does (setBio bio fun b => { b with offset := b.offset + size }) g (c.lay bio) () g
      (({ c with offset := c.offset + size } : Chain).lay bio) := does_setChain _ rfl rfl
  have hload : Does (loadBio bio) g (({ c with offset := c.offset + size } : Chain).lay bio)
      (Chain.record { c with offset := c.offset + size } bio) g
      (({ c with offset := c.offset + size } : Chain).lay bio) := does_loadBio.frame _
  apply hoffset.bind
  apply hload.bind
  simp only [Chain.advance, hc, Chain.record, Piece.record]
  split
  · have hdrop : Does (dropFirst bio (some x.addr)) g
        ((⟨x :: xs, c.offset + size, c.len⟩ : Chain).lay bio) () g
        ((⟨xs, c.offset + size, c.len⟩ : Chain).lay bio) := does_dropFirst rfl
    exact hdrop.bind (does_setChain _ rfl rfl)
  · exact .pure _ _ _

/-- The variables of the loop of `bio_read`. -/
def Chain.cursor (c : Chain) (out : Bytes) : Bio.Cursor := ⟨c.pieces.map Piece.bytes, c.offset, out⟩

theorem readRound_cursor {x : Piece} {xs : List Piece} (hc : c.pieces = x :: xs) {n : ℕ}
    {out : Bytes} (hn : out.length < n) : Bio.readRound n (c.cursor out) =
      some ((c.advance (Bio.Cursor.size n x.bytes c.offset out.length)).cursor
        (out ++ (x.bytes.drop c.offset).take (Bio.Cursor.size n x.bytes c.offset out.length))) := by
  simp only [Bio.readRound, Chain.cursor, Chain.advance, hc, List.map_cons, if_pos hn]
  split <;> rfl

theorem readRound_done {n : ℕ} {out : Bytes} (h : c.pieces = [] ∨ n ≤ out.length) :
    Bio.readRound n (c.cursor out) = none := by
  rw [Bio.readRound, Chain.cursor]
  cases hc : c.pieces with
  | nil => rfl
  | cons x xs =>
    rw [hc] at h
    simp only [List.map_cons]
    exact if_neg (h.resolve_left (List.cons_ne_nil x xs)).not_gt

theorem readLoop_done {n : ℕ} {out : Bytes} (h : c.pieces = [] ∨ n ≤ out.length) (rounds : ℕ) :
    Bio.readLoop n rounds (c.cursor out) = c.cursor out := by
  cases rounds with
  | zero => rfl
  | succ rounds => rw [Bio.readLoop, readRound_done h]

/-- A round leaves the nodes in order. -/
theorem nodesOk_advance {x : Piece} {xs : List Piece} (hx : c.pieces = x :: xs)
    (hc : Bio.NodesOk (c.pieces.map Piece.bytes) c.offset) {size : ℕ}
    (hsize : c.offset + size ≤ x.bytes.length) :
    Bio.NodesOk ((c.advance size).pieces.map Piece.bytes) (c.advance size).offset := by
  rw [hx, List.map_cons] at hc
  simp only [Chain.advance, hx]
  split
  · exact hc.tail
  · rename_i hne
    refine ⟨hc.node, ?_, fun h => by cases h⟩
    intro y hy
    obtain rfl : x.bytes = y := Option.some.inj hy
    exact lt_of_le_of_ne hsize hne

/-- A round and the rest of the loop of `bio_read`. -/
theorem does_bioReadLoop_succ {x : Piece} {xs : List Piece} (hx : c.pieces = x :: xs) {copy : Bool}
    {n fuel nread : ℕ} {out : Bytes} {r : Bytes × ℕ} {Q : Region Cell}
    (ho : c.offset ≤ x.bytes.length) (hn : nread < n)
    (hloop : Does (bioReadLoop bio copy n fuel
      (out ++ if copy then (x.bytes.drop c.offset).take (Bio.Cursor.size n x.bytes c.offset nread)
        else []) (nread + Bio.Cursor.size n x.bytes c.offset nread)) g
      ((c.advance (Bio.Cursor.size n x.bytes c.offset nread)).lay bio) r g Q) :
    Does (bioReadLoop bio copy n (fuel + 1) out nread) g (c.lay bio) r g Q := by
  have hgo : firstOf c.pieces none ≠ none ∧ nread < n := by
    rw [hx]
    exact ⟨Option.some_ne_none _, hn⟩
  have hload : Does (loadBio bio) g (c.lay bio) (c.record bio) g (c.lay bio) := does_loadBio.frame _
  apply does_stailqFirst.bind
  rw [if_pos hgo, hx, firstOf]
  apply (does_loadFirst hx).bind
  apply hload.bind
  apply (does_copyOutIf hx copy ho hn.le).bind
  exact (does_bioReadAdvance hx _ _).bind hloop

/-- The loop of `bio_read` ends with the queue and the bytes that it ends with on the nodes. -/
theorem does_bioReadLoop (bio : ℕ) (copy : Bool) {n fuel rounds : ℕ} {out : Bytes}
    (hc : Bio.NodesOk (c.pieces.map Piece.bytes) c.offset) (hout : out.length ≤ n)
    (hf : n - out.length < fuel) (hr : n ≤ out.length ∨ c.pieces.length < rounds) :
    ∃ c' : Chain, c'.cursor (Bio.readLoop n rounds (c.cursor out)).out =
        Bio.readLoop n rounds (c.cursor out) ∧ c'.len = c.len ∧ ∀ g,
      Does (bioReadLoop bio copy n fuel (if copy then out else []) out.length) g (c.lay bio)
        (if copy then (Bio.readLoop n rounds (c.cursor out)).out else [],
          (Bio.readLoop n rounds (c.cursor out)).out.length) g (c'.lay bio) := by
  induction fuel generalizing c out rounds with
  | zero => omega
  | succ fuel ih =>
    by_cases hdone : c.pieces = [] ∨ n ≤ out.length
    · rw [readLoop_done hdone]
      refine ⟨c, rfl, rfl, fun g => ?_⟩
      apply does_stailqFirst.bind
      have hstop : ¬ (firstOf c.pieces none ≠ none ∧ out.length < n) := by
        rw [Ne, firstOf_eq_none]
        exact fun h => hdone.elim h.1 h.2.not_ge
      rw [if_neg hstop]
      exact .pure _ _ _
    · obtain ⟨hne, hlt⟩ := not_or.mp hdone
      rw [not_le] at hlt
      obtain ⟨x, xs, hx⟩ := List.exists_cons_of_ne_nil hne
      obtain ⟨rounds, rfl⟩ : ∃ r, rounds = r + 1 := ⟨rounds - 1, by omega⟩
      have hhead : c.offset < x.bytes.length := hc.head _ (by rw [hx]; rfl)
      have hsize := Bio.Cursor.size_eq hhead.le hout
      have hstep := readRound_cursor hx hlt
      generalize hsz : Bio.Cursor.size n x.bytes c.offset out.length = size at hsize hstep
      -- the queue and the bytes after one round
      have hlength : (out ++ (x.bytes.drop c.offset).take size).length = out.length + size := by
        rw [List.length_append, List.length_take, List.length_drop]
        omega
      have hleft : n ≤ out.length + size ∨ (c.advance size).pieces.length < rounds := by
        simp only [Chain.advance, hx]
        rw [hx, List.length_cons] at hr
        split
        · exact .inr (Nat.lt_of_succ_lt_succ (hr.resolve_left hlt.not_ge))
        · exact .inl (by omega)
      have hok : Bio.NodesOk ((c.advance size).pieces.map Piece.bytes) (c.advance size).offset :=
        nodesOk_advance hx hc (by omega)
      obtain ⟨c', hcursor, hlen, hloop⟩ := ih hok (by omega) (by omega) (hlength ▸ hleft)
      rw [Bio.readLoop, hstep]
      refine ⟨c', hcursor, hlen.trans ?_, fun g => ?_⟩
      · simp only [Chain.advance, hx]
        split <;> rfl
      · apply does_bioReadLoop_succ hx hhead.le hlt
        rw [hsz, ← hlength]
        convert hloop g using 2
        cases copy <;> rfl

/-- `bio_read` and `bio_consume` leave the queue that they leave of the nodes. -/
theorem does_bioRead (bio : ℕ) (copy : Bool) (n : ℕ) (h : c.toBio.Wf) :
    ∃ c' : Chain, c'.toBio = (c.toBio.read n).2.2 ∧ ∀ g, Does (bioRead bio copy n) g (c.lay bio)
      ((c.toBio.read n).1, if copy then (c.toBio.read n).2.1 else []) g (c'.lay bio) := by
  obtain ⟨c', hcursor, hlen, hloop⟩ := @does_bioReadLoop c bio copy n (n + 1)
    (c.pieces.length + 1) [] h.nodes (Nat.zero_le n) (Nat.lt_succ_self n) (.inr (Nat.lt_succ_self _))
  have hread : c.toBio.read n =
      (toInt32 (Bio.readLoop n (c.pieces.length + 1) (c.cursor [])).out.length,
      (Bio.readLoop n (c.pieces.length + 1) (c.cursor [])).out,
      ⟨(Bio.readLoop n (c.pieces.length + 1) (c.cursor [])).nodes,
        (Bio.readLoop n (c.pieces.length + 1) (c.cursor [])).offset,
        sizeSub c.len (Bio.readLoop n (c.pieces.length + 1) (c.cursor [])).out.length⟩) := by
    rw [Bio.read, Chain.toBio, List.length_map]
    rfl
  rw [hread]
  generalize Bio.readLoop n (c.pieces.length + 1) (c.cursor []) = r at hcursor hloop
  refine ⟨{ c' with len := sizeSub c.len r.out.length }, ?_, fun g => ?_⟩
  · rw [← hcursor]
    rfl
  · have hsetLen : Does (setBio bio fun b => { b with len := sizeSub b.len r.out.length }) g
        (c'.lay bio) () g (({ c' with len := sizeSub c.len r.out.length } : Chain).lay bio) := by
      refine does_setChain _ rfl ?_
      simp only [Chain.record, hlen]
    rw [ite_self] at hloop
    exact (hloop g).bind (hsetLen.bind (.pure _ _ _))

/-- `bio_consume`. -/
theorem does_bioConsume (bio n : ℕ) (h : c.toBio.Wf) :
    ∃ c' : Chain, c'.toBio = (c.toBio.consume n).2 ∧ ∀ g,
      Does (bioConsume bio n) g (c.lay bio) (c.toBio.consume n).1 g (c'.lay bio) := by
  obtain ⟨c', hc', hread⟩ := does_bioRead bio false n h
  exact ⟨c', hc', fun g => (hread g).bind (.pure _ _ _)⟩

/-- The loop of `bio_peek` copies what it copies from the nodes. -/
theorem does_bioPeekLoop {n fuel o : ℕ} {xs : List Piece} {out : Bytes}
    (hok : Bio.NodesOk (xs.map Piece.bytes) o) (hout : out.length ≤ n) (hf : xs.length < fuel) :
    Does (bioPeekLoop n fuel (firstOf xs none) o out out.length) g (layPieces xs none)
      (Bio.peekLoop n (xs.map Piece.bytes) o out, (Bio.peekLoop n (xs.map Piece.bytes) o out).length)
      g (layPieces xs none) := by
  induction xs generalizing fuel o out with
  | nil =>
    obtain ⟨fuel, rfl⟩ : ∃ f, fuel = f + 1 := ⟨fuel - 1, by rw [List.length_nil] at hf; omega⟩
    exact .pure _ _ _
  | cons x xs ih =>
    obtain ⟨fuel, rfl⟩ : ∃ f, fuel = f + 1 := ⟨fuel - 1, by omega⟩
    have ho : o < x.bytes.length := hok.head _ rfl
    have hsize := Bio.Cursor.size_eq ho.le hout
    generalize hsz : Bio.Cursor.size n x.bytes o out.length = size at hsize
    have hlength : (out ++ (x.bytes.drop o).take size).length = out.length + size := by
      rw [List.length_append, List.length_take, List.length_drop]
      omega
    have hrest := @ih fuel 0 (out ++ (x.bytes.drop o).take size) hok.tail
      (by omega) (Nat.lt_of_succ_lt_succ hf)
    have hload : Does (loadBuffer (some x.addr)) g (x.lay (firstOf xs none))
        (x.record (firstOf xs none)) g (x.lay (firstOf xs none)) := does_loadBuffer.frame _
    have hcopy : Does (copyOut (some x.data) o size (n - out.length)) g (x.lay (firstOf xs none))
        ((x.bytes.drop o).take size) g (x.lay (firstOf xs none)) :=
      (does_copyOut (by omega) (by omega)).within (mul_comm _ _) (mul_comm _ _)
    rw [layPieces, firstOf, List.map_cons, Bio.peekLoop, hsz, bioPeekLoop, if_neg (by simp)]
    apply hload.step rfl
    rw [Piece.record, roundSize_eq, hsz]
    apply hcopy.step rfl
    apply (does_stailqNext _).step rfl
    rw [hlength] at hrest
    exact hrest.within (mul_comm _ _) (mul_comm _ _)

/-- `bio_peek`. -/
theorem does_bioPeek (n : ℕ) (h : c.toBio.Wf) :
    Does (bioPeek bio n) g (c.lay bio) (c.toBio.peek n) g (c.lay bio) := by
  have hload : Does (loadBio bio) g (c.lay bio) (c.record bio) g (c.lay bio) := does_loadBio.frame _
  have hloop := @does_bioPeekLoop g n (c.len + 1) c.offset c.pieces [] h.nodes (Nat.zero_le n)
    (Nat.lt_succ_of_le (Chain.length_le h))
  apply hload.bind
  apply does_stailqFirst.bind
  apply Does.bind (hloop.within (mul_comm _ _) (mul_comm _ _))
  exact .pure _ _ _

/-! ## Allocation and writing -/

variable (A : Allocator Cell) (junk : ℕ → Junk)

theorem yields_malloc (f : Junk → Cell) : Yields (malloc A junk f) 1 fun r Q =>
    r = none ∧ Q = 1 ∨ ∃ a j, r = some a ∧ Q = .cell a (f j) := by
  apply Yields.globals
  intro n
  apply (Yields.request A _).mono
  rintro r Q (⟨hr, hQ⟩ | ⟨a, hr, hQ⟩)
  · exact .inl ⟨hr, hQ⟩
  · exact .inr ⟨a, junk n, hr, hQ⟩

/-- `bio_new` gives an empty queue, or null and nothing. -/
theorem yields_bioNew : Yields (bioNew A junk) 1 fun r Q =>
    r = none ∧ Q = 1 ∨ ∃ bio, r = some bio ∧ Q = (⟨[], 0, 0⟩ : Chain).lay bio := by
  apply (yields_malloc A junk _).bind
  rintro r Q (⟨rfl, rfl⟩ | ⟨bio, j, rfl, rfl⟩)
  · exact .pure (.inl ⟨rfl, rfl⟩)
  · apply (Does.yields (Q := .cell bio (.bio ⟨none, .first bio, 0, 0⟩)) (a := some bio) ?_).mono
    · rintro _ _ ⟨rfl, rfl⟩
      exact .inr ⟨bio, rfl, (mul_one _).symm⟩
    · intro g
      have hinit : Does (stailqInit bio) g (.cell bio (.bio j.bio)) () g
          (.cell bio (.bio { j.bio with first := none, last := .first bio })) :=
        (does_setBio _).bind (does_setBio _)
      exact hinit.bind ((does_setBio _).bind ((does_setBio _).bind (.pure _ _ _)))

/-- `buffer_new` gives an element with the bytes, or null and nothing. -/
theorem yields_bufferNew (data : Bytes) : Yields (bufferNew A junk data) 1 fun r Q =>
    r = none ∧ Q = 1 ∨ ∃ x : Piece, x.bytes = data ∧ r = some x.addr ∧ ∃ p, Q = x.lay p := by
  apply (yields_malloc A junk _).bind
  rintro r Q (⟨rfl, rfl⟩ | ⟨buffer, j, rfl, rfl⟩)
  · exact .pure (.inl ⟨rfl, rfl⟩)
  · apply (yields_malloc A junk _).step (one_mul _).symm
    rintro r Q (⟨rfl, rfl⟩ | ⟨block, j', rfl, rfl⟩)
    · rw [one_mul]
      apply Yields.does (fun g => does_setBuffer _) (mul_one _).symm
      rw [if_pos rfl, mul_one]
      apply Yields.does (fun g => Does.free buffer _ g) (mul_one _).symm
      exact .pure (.inl ⟨rfl, one_mul _⟩)
    · apply Yields.does (fun g => does_setBuffer _) (mul_comm _ _)
      rw [if_neg (Option.some_ne_none _)]
      apply Yields.does (fun g => does_copyIn (j'.length_block _)) (mul_comm _ _)
      apply Yields.does (fun g => does_setBuffer _) (mul_comm _ _)
      exact .pure (.inr ⟨⟨buffer, block, data⟩, rfl, rfl, j.buffer.next, rfl⟩)

/-- Elements at the end of a queue. -/
def Chain.push (c : Chain) (xs : List Piece) : Chain :=
  ⟨c.pieces ++ xs, c.offset, c.len + (xs.map Piece.bytes).flatten.length⟩

theorem Chain.push_nil : c.push [] = c := by
  simp [Chain.push]

theorem Chain.push_push (xs ys : List Piece) : (c.push xs).push ys = c.push (xs ++ ys) := by
  simp [Chain.push, Nat.add_assoc]

/-- What a loop that was to queue `rest` came to: with some answers to its requests the list of the
nodes gets the same bytes. -/
def Queues (bio : ℕ) (c : Chain) (fuel : ℕ) (rest : Bytes) (n : ℕ) (r : Int) (Q : Region Cell) :
    Prop :=
  ∃ done xs ans ans', (Bio.writeNodes fuel rest : Prog Call Empty Unit _).run ans () =
      (.ret (done, xs.map Piece.bytes), ans', ()) ∧
    r = (if done then toInt32 n else -1) ∧ Q = (c.push xs).lay bio

theorem Queues.nil (fuel n : ℕ) : Queues bio c fuel [] n (toInt32 n) (c.lay bio) := by
  refine ⟨true, [], Prog.noFail, Prog.noFail, ?_, (if_pos rfl).symm, by rw [Chain.push_nil]⟩
  cases fuel with
  | zero => rfl
  | succ fuel => rw [Bio.writeNodes, if_pos rfl, Prog.run_pure, List.map_nil]

/-- A refused request ends the loop. -/
theorem Queues.refused {fuel : ℕ} {rest : Bytes} (hrest : rest ≠ []) (n : ℕ) :
    Queues bio c (fuel + 1) rest n (-1) (c.lay bio) := by
  refine ⟨false, [], fun _ => [false], Prog.Answers.next (fun _ => [false]) .alloc, ?_,
    (if_neg Bool.false_ne_true).symm, by rw [Chain.push_nil]⟩
  rw [Bio.writeNodes, if_neg hrest, Prog.run_bind, Prog.run_query]
  rfl

/-- One more element in front of what the rest of the loop queues. -/
theorem Queues.cons {fuel : ℕ} {rest : Bytes} (hrest : rest ≠ []) {n : ℕ} {x : Piece}
    (hx : x.bytes = rest.take Bio.nodeSize) {r : Int} {Q : Region Cell}
    (h : Queues bio (c.push [x]) fuel (rest.drop Bio.nodeSize) n r Q) :
    Queues bio c (fuel + 1) rest n r Q := by
  obtain ⟨done, xs, ans, ans', hrun, hr, hQ⟩ := h
  rw [Chain.push_push] at hQ
  refine ⟨done, [x] ++ xs, Function.update ans .alloc (true :: ans .alloc), ans', ?_, hr, hQ⟩
  have hnext :
      Prog.Answers.next (Function.update ans .alloc (true :: ans .alloc)) .alloc = ans := by
    simp [Prog.Answers.next]
  rw [Bio.writeNodes, if_neg hrest, Prog.run_bind, Prog.run_query, Prog.runThen_ret, hnext,
    Function.update_self, List.headD_cons, if_pos rfl, Prog.run_bind, hrun, List.singleton_append,
    List.map_cons, hx]
  rfl

/-- The bytes of a round are a node, and the rest is what is behind it. -/
theorem piece_eq (buf : Bytes) (pos : ℕ) :
    (buf.drop pos).take (min 4096 (buf.drop pos).length) = (buf.drop pos).take Bio.nodeSize ∧
      buf.drop (pos + min 4096 (buf.drop pos).length) = (buf.drop pos).drop Bio.nodeSize ∧
      ((buf.drop pos).take Bio.nodeSize).length = min 4096 (buf.drop pos).length := by
  rw [← List.drop_drop, Bio.nodeSize]
  generalize buf.drop pos = rest
  refine ⟨?_, ?_, List.length_take⟩
  · rw [List.take_eq_take_iff, min_assoc, min_self]
  · rw [List.drop_eq_drop_iff, min_assoc, min_self]

/-- The loop of `bio_write` queues what it queues of the nodes. -/
theorem yields_bioWriteLoop {buf : Bytes} (fuel pos : ℕ) (hf : buf.length ≤ pos + fuel) :
    Yields (bioWriteLoop A junk bio buf (fuel + 1) pos) (c.lay bio)
      (Queues bio c fuel (buf.drop pos) buf.length) := by
  induction fuel generalizing c pos with
  | zero =>
    rw [bioWriteLoop, if_neg (by omega), List.drop_eq_nil_of_le (by omega)]
    exact .pure (.nil _ _)
  | succ fuel ih =>
    by_cases hpos : pos < buf.length
    · have hrest : buf.drop pos ≠ [] := by
        rw [Ne, List.drop_eq_nil_iff, not_le]
        exact hpos
      have hlen : (buf.drop pos).length = buf.length - pos := List.length_drop
      rw [bioWriteLoop, if_pos hpos, ← hlen]
      obtain ⟨htake, hdrop, hsize⟩ := piece_eq buf pos
      generalize hmin : min 4096 (buf.drop pos).length = size at htake hdrop hsize
      dsimp only
      rw [htake]
      apply (yields_bufferNew A junk _).step (one_mul _).symm
      rintro r Q (⟨rfl, rfl⟩ | ⟨x, hx, rfl, p, rfl⟩)
      · rw [one_mul]
        exact .pure (.refused hrest _)
      · have hset (g : ℕ) : Does (setBio bio fun b => { b with len := b.len + size }) g
            (({ c with pieces := c.pieces ++ [x] } : Chain).lay bio) () g ((c.push [x]).lay bio) := by
          refine does_setChain _ rfl ?_
          simp [Chain.record, Chain.push, hx, hsize]
        apply Yields.does (fun g => does_stailqInsertTail p) ((mul_comm _ _).trans (mul_one _).symm)
        rw [mul_one]
        apply Yields.does hset (mul_one _).symm
        rw [mul_one]
        apply (ih _ (by omega)).mono
        intro r Q hQ
        exact .cons hrest hx (hdrop ▸ hQ)
    · rw [bioWriteLoop, if_neg hpos, List.drop_eq_nil_of_le (not_lt.mp hpos)]
      exact .pure (.nil _ _)

/-- `bio_write` does what it does to the nodes with some answers to its requests. -/
theorem yields_bioWrite (buf : Bytes) : Yields (bioWrite A junk bio buf) (c.lay bio) fun r Q =>
    ∃ (c' : Chain) (ans ans' : Prog.Answers Call), (c.toBio.write buf : Prog Call Empty Unit _).run ans () =
      (.ret (r, c'.toBio), ans', ()) ∧ Q = c'.lay bio := by
  apply (yields_bioWriteLoop A junk buf.length 0 (by omega)).mono
  rintro _ _ ⟨done, xs, ans, ans', hrun, rfl, rfl⟩
  refine ⟨c.push xs, ans, ans', ?_, rfl⟩
  rw [List.drop_zero] at hrun
  rw [Bio.write, Prog.run_bind, hrun]
  simp [Chain.toBio, Chain.push]

end Calls

end Yamux.Buffer
