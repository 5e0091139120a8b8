import Yamux.Failure.Bio

/-!
# The loops of a buffer stay in bounds

`bio_read` and `bio_peek` take differences of `size_t` values and copy from a node to the
buffer of the caller. In every buffer that calls lead to, no difference wraps, every copy
stays inside its node and inside the bytes asked for, and each round of `bio_read` moves on.
-/

namespace Yamux

open Core

namespace Bio

/-! ## Rounds -/

/-- The cursors at which the loop of `bio_read` tests its condition. -/
inductive ReadRounds (n : Nat) (c : Cursor) : Cursor → Prop where
  | start : ReadRounds n c c
  | next {d e : Cursor} (h : ReadRounds n c d) (hround : readRound n d = some e) :
      ReadRounds n c e

/-- The cursors at which the loop of `bio_peek` takes the next node, also those behind the
bytes asked for. -/
inductive PeekRounds (n : Nat) (c : Cursor) : Cursor → Prop where
  | start : PeekRounds n c c
  | next {node : Bytes} {nodes : List Bytes} {offset : Nat} {out : Bytes}
      (h : PeekRounds n c ⟨node :: nodes, offset, out⟩) :
      PeekRounds n c ⟨nodes, 0,
        out ++ (node.drop offset).take (Cursor.size n node offset out.length)⟩

/-- What makes a round safe that has copied `nread` of `n` bytes and goes on in a node: the
two differences of `size_t` values do not wrap, and the copy reads bytes of the node and
writes bytes that were asked for. -/
structure InBounds (n : Nat) (node : Bytes) (offset nread : Nat) : Prop where
  rest : offset ≤ node.length
  missing : nread ≤ n
  source : offset + Cursor.size n node offset nread ≤ node.length
  target : nread + Cursor.size n node offset nread ≤ n

/-- A cursor inside its head node which has not copied too much. -/
structure Cursor.Ok (n : Nat) (c : Cursor) : Prop where
  nodes : NodesOk c.nodes c.offset
  out : c.out.length ≤ n

section Rounds

variable {n : Nat} {c d : Cursor} {node : Bytes} {nodes : List Bytes}

theorem Cursor.Ok.inBounds (h : c.Ok n) (hc : c.nodes = node :: nodes) :
    InBounds n node c.offset c.out.length := by
  have hoff : c.offset < node.length := h.nodes.head node (by rw [hc]; rfl)
  have hsize := Cursor.size_eq hoff.le h.out
  refine ⟨hoff.le, h.out, ?_, ?_⟩
  · rw [hsize]
    omega
  · have hout := h.out
    rw [hsize]
    omega

/-- A copy is as long as planned. -/
theorem InBounds.length_take {offset nread : Nat} (h : InBounds n node offset nread) :
    ((node.drop offset).take (Cursor.size n node offset nread)).length =
      Cursor.size n node offset nread := by
  have hsource := h.source
  rw [List.length_take, List.length_drop]
  omega

/-- While bytes are missing a round copies some. -/
theorem Cursor.Ok.size_pos (h : c.Ok n) (hc : c.nodes = node :: nodes) (hn : c.out.length < n) :
    0 < Cursor.size n node c.offset c.out.length := by
  have hoff : c.offset < node.length := h.nodes.head node (by rw [hc]; rfl)
  rw [Cursor.size_eq hoff.le h.out]
  omega

/-- The two ways in which a round of `bio_read` goes on. -/
theorem readRound_cases (h : readRound n c = some d) : ∃ node nodes, c.nodes = node :: nodes ∧
    c.out.length < n ∧
    d.out = c.out ++ (node.drop c.offset).take (Cursor.size n node c.offset c.out.length) ∧
    ((c.offset + Cursor.size n node c.offset c.out.length = node.length ∧
        d.nodes = nodes ∧ d.offset = 0) ∨
      (c.offset + Cursor.size n node c.offset c.out.length ≠ node.length ∧
        d.nodes = c.nodes ∧ d.offset = c.offset + Cursor.size n node c.offset c.out.length)) := by
  obtain ⟨xs, o, out⟩ := c
  cases xs with
  | nil => cases h
  | cons node nodes =>
    refine ⟨node, nodes, rfl, ?_⟩
    simp only [readRound] at h
    split at h
    · rename_i hlt
      split at h
      · rename_i hend
        cases h
        exact ⟨hlt, rfl, .inl ⟨hend, rfl, rfl⟩⟩
      · rename_i hend
        cases h
        exact ⟨hlt, rfl, .inr ⟨hend, rfl, rfl⟩⟩
    · cases h

/-- A round keeps the cursor in order and copies at least one byte. -/
theorem Cursor.Ok.read (h : c.Ok n) (hround : readRound n c = some d) :
    d.Ok n ∧ c.out.length < d.out.length := by
  obtain ⟨node, nodes, hc, hlt, hout, hnext⟩ := readRound_cases hround
  have hin := h.inBounds hc
  have hpos := h.size_pos hc hlt
  have hlen : d.out.length = c.out.length + Cursor.size n node c.offset c.out.length := by
    rw [hout, List.length_append, hin.length_take]
  refine ⟨⟨?_, by rw [hlen]; exact hin.target⟩, by omega⟩
  have hnodes := h.nodes
  rcases hnext with ⟨-, hd, hoff⟩ | ⟨hne, hd, hoff⟩
  · rw [hd, hoff]
    rw [hc] at hnodes
    exact hnodes.tail
  · have hsource := hin.source
    rw [hd, hoff]
    refine ⟨hnodes.node, fun x hx => ?_, fun hnil => ?_⟩
    · rw [hc] at hx
      obtain rfl := Option.some.inj hx
      omega
    · rw [hc] at hnil
      cases hnil

theorem ReadRounds.ok (h : ReadRounds n c d) (hc : c.Ok n) : d.Ok n := by
  induction h with
  | start => exact hc
  | next _ hround ih => exact (ih.read hround).1

theorem PeekRounds.ok (h : PeekRounds n c d) (hc : c.Ok n) : d.Ok n := by
  induction h with
  | start => exact hc
  | @next node nodes offset out _ ih =>
    have hin := ih.inBounds rfl
    refine ⟨ih.nodes.tail, ?_⟩
    rw [List.length_append, hin.length_take]
    exact hin.target

/-! ## The rounds are those of the loops -/

/-- With a round for each node and one more, the loop of `bio_read` gets to its end. -/
theorem readLoop_ends {fuel : Nat} (hf : c.nodes.length < fuel) (hc : c.Ok n) :
    ReadRounds n c (readLoop n fuel c) ∧ readRound n (readLoop n fuel c) = none := by
  have main (fuel : Nat) : ∀ d, ReadRounds n c d → d.nodes.length < fuel →
      ReadRounds n c (readLoop n fuel d) ∧ readRound n (readLoop n fuel d) = none := by
    induction fuel with
    | zero => exact fun d _ hd => absurd hd (Nat.not_lt_zero _)
    | succ fuel ih =>
      intro d hd hlen
      rw [readLoop]
      cases hround : readRound n d with
      | none => exact ⟨hd, hround⟩
      | some e =>
        have he : ReadRounds n c e := hd.next hround
        obtain ⟨node, nodes, hcons, hlt, hout, hnext⟩ := readRound_cases hround
        rcases hnext with ⟨-, hnodes, -⟩ | ⟨hne, hnodes, hoff⟩
        · refine ih e he ?_
          rw [hcons] at hlen
          rw [hnodes]
          exact Nat.lt_of_succ_lt_succ hlen
        · -- a round that leaves the node has copied the last of the `n` bytes
          have hdone : readRound n e = none := by
            have hin := (hd.ok hc).inBounds hcons
            have hsize := Cursor.size_eq hin.rest hin.missing
            have hfull : ¬ e.out.length < n := by
              have hsource := hin.source
              rw [hout, List.length_append, hin.length_take, hsize]
              rw [hsize] at hne hsource
              omega
            cases hagain : readRound n e with
            | none => rfl
            | some e' =>
              obtain ⟨_, _, _, hlt', _⟩ := readRound_cases hagain
              exact absurd hlt' hfull
          have hstop : readLoop n fuel e = e := by
            cases fuel with
            | zero => rfl
            | succ fuel => rw [readLoop, hdone]
          dsimp only
          rw [hstop]
          exact ⟨he, hdone⟩
  exact main fuel c .start hf

/-- What the loop of `bio_peek` copies is what it copies from any of its rounds on. -/
theorem PeekRounds.peekLoop_eq (h : PeekRounds n c d) :
    peekLoop n c.nodes c.offset c.out = peekLoop n d.nodes d.offset d.out := by
  induction h with
  | start => rfl
  | next _ ih => exact ih

end Rounds

/-! ## Buffers that calls have led to -/

/-- The representation of a buffer: nodes that are neither empty nor over their capacity, an
offset inside the head node, and a length that counts the bytes of the nodes behind it. -/
structure RepOk (b : Bio) : Prop where
  node : ∀ x ∈ b.nodes, 1 ≤ x.length ∧ x.length ≤ 4096
  empty : b.nodes = [] → b.offset = 0
  head : ∀ x xs, b.nodes = x :: xs → b.offset < x.length
  covered : b.offset ≤ (b.nodes.map List.length).sum
  len : b.len = (b.nodes.map List.length).sum - b.offset

/-- A request for `n` bytes is safe: in bounds in every round of `bio_read` and `bio_peek`,
with progress in those of `bio_read`, whose loop ends, and no more bytes read than there are. -/
structure SafeFor (b : Bio) (n : Nat) : Prop where
  read : ∀ c node nodes, ReadRounds n ⟨b.nodes, b.offset, []⟩ c → c.nodes = node :: nodes →
    c.out.length < n → InBounds n node c.offset c.out.length
  progress : ∀ c d, ReadRounds n ⟨b.nodes, b.offset, []⟩ c → readRound n c = some d →
    c.out.length < d.out.length ∧ d.out.length ≤ n
  ends : ∃ c, ReadRounds n ⟨b.nodes, b.offset, []⟩ c ∧ readRound n c = none ∧
    (b.read n).2.1 = c.out
  debit : (b.read n).2.1.length ≤ b.len
  peek : ∀ c node nodes, PeekRounds n ⟨b.nodes, b.offset, []⟩ c → c.nodes = node :: nodes →
    InBounds n node c.offset c.out.length
  peeked : ∀ c, PeekRounds n ⟨b.nodes, b.offset, []⟩ c →
    (b.peek n).2 = peekLoop n c.nodes c.offset c.out

variable {b : Bio}

theorem Wf.repOk (h : b.Wf) : b.RepOk := by
  have hlen : b.nodes.flatten.length = (b.nodes.map List.length).sum := List.length_flatten
  refine ⟨h.nodes.node, h.nodes.empty, fun x xs hx => h.nodes.head x (by rw [hx]; rfl), ?_, ?_⟩
  · cases hb : b.nodes with
    | nil => rw [h.nodes.empty hb]; exact Nat.zero_le _
    | cons x xs =>
      have hoff := h.nodes.head x (by rw [hb]; rfl)
      rw [List.map_cons, List.sum_cons]
      omega
  · rw [h.len, bytes, List.length_drop, hlen]

theorem Wf.safeFor (h : b.Wf) (n : Nat) : b.SafeFor n := by
  have hstart : (⟨b.nodes, b.offset, []⟩ : Cursor).Ok n := ⟨h.nodes, Nat.zero_le n⟩
  refine ⟨fun c node nodes hc hcons _ => (hc.ok hstart).inBounds hcons, fun c d hc hround => ?_,
    ?_, ?_, fun c node nodes hc hcons => (hc.ok hstart).inBounds hcons,
    fun c hc => hc.peekLoop_eq⟩
  · obtain ⟨hd, hlt⟩ := (hc.ok hstart).read hround
    exact ⟨hlt, hd.out⟩
  · obtain ⟨hrounds, hnone⟩ := readLoop_ends (Nat.lt_succ_self _) hstart
    exact ⟨_, hrounds, hnone, rfl⟩
  · rw [(read_spec h n).2.1, h.len]
    exact List.length_take_le' _ _

/-- Every buffer that calls lead to is represented as it should be, and every request to it
is safe. -/
theorem represented_safe (h : b.Reached) : b.RepOk ∧ ∀ n, b.SafeFor n :=
  ⟨h.wf.repOk, h.wf.safeFor⟩

/-- Three bytes written and one of them read. -/
theorem represented_safe_partial : (⟨[[1, 2, 3]], 1, 2⟩ : Bio).RepOk ∧
    ∀ n, (⟨[[1, 2, 3]], 1, 2⟩ : Bio).SafeFor n := by
  have hwrite : (BioOp.code new (.write [1, 2, 3]) : Prog Call Empty Unit _).exec () =
      (.ret (⟨3, []⟩, ⟨[[1, 2, 3]], 0, 3⟩), ()) := by decide +kernel
  have hread : (BioOp.code ⟨[[1, 2, 3]], 0, 3⟩ (.read 1) : Prog Call Empty Unit _).exec () =
      (.ret (⟨1, [1]⟩, ⟨[[1, 2, 3]], 1, 2⟩), ()) := by decide +kernel
  have hfed : Reached ⟨[[1, 2, 3]], 0, 3⟩ := by
    apply Reached.new.call
    rw [Prog.run_noFail, hwrite]
  apply represented_safe
  apply hfed.call
  rw [Prog.run_noFail, hread]

end Bio

end Yamux
