import Yamux.Failure.Bio
import Yamux.Sequential.Window

/-!
# Writes and window updates when an allocation fails

`stream_write` and `send_window_update` change the stream before they know that
the frame can be queued, and a write queues its header before its payload. A
failure leaves no trace only where nothing had been changed by then.
-/

namespace Yamux

open Core Prog

variable {s : Session} {id : UInt32} {st : Stream}

/-! ## Queueing with given answers -/

/-- Queueing bytes, which fails if an allocation does or if the count reads as -1. -/
theorem run_sessionSendBufWrite (data : Bytes) (ans : Answers Call) (s : Session) :
    ∃ done nodes ans', (sessionSendBufWrite data).run ans s =
        (.ret (if (if done then toInt32 data.length else -1) = -1 then -1 else 0), ans',
          s.queue nodes.flatten) ∧
      Bio.Wrote data (ans .alloc) done nodes ∧
      (done = true → ans' .alloc = (ans .alloc).drop (Bio.nodeCount data.length)) := by
  obtain ⟨done, nodes, ans', hrun, hw, hleft⟩ := Bio.run_writeNodes (μ := Mutex)
    (Nat.le_refl data.length) ans s
  refine ⟨done, nodes, ans', ?_, hw, hleft⟩
  simp only [sessionSendBufWrite, bioWrite, run_bind, hrun, runThen_ret, run_pure, run_modify]
  rfl

/-- A header takes one node. -/
theorem run_sendHeader (type : UInt8) (flags : UInt16) (id len : UInt32) (ans : Answers Call)
    (s : Session) :
    ∃ ans', (sessionSendBufWrite (hdrEncode type flags id len)).run ans s =
        (if (ans .alloc).headD true
          then (.ret 0, ans', s.queue (hdrEncode type flags id len)) else (.ret (-1), ans', s)) ∧
      ((ans .alloc).headD true = true → ans' .alloc = (ans .alloc).tail) := by
  obtain ⟨done, nodes, ans', hrun, hw, hleft⟩ :=
    run_sessionSendBufWrite (hdrEncode type flags id len) ans s
  have hpos : 0 < (hdrEncode type flags id len).length := by
    rw [length_hdrEncode]
    decide
  have hcount : Bio.nodeCount (hdrEncode type flags id len).length = 1 := by
    rw [length_hdrEncode]
    rfl
  have hone : toInt32 (hdrEncode type flags id len).length ≠ -1 := by
    rw [length_hdrEncode, toInt32_eq (by decide)]
    decide
  have hdone := hw.complete
  have hsub : (hdrEncode type flags id len).length - Bio.nodeSize = 0 := by
    rw [length_hdrEncode]
    rfl
  rw [Bio.served_pos hpos, hsub, and_iff_left (Bio.served_zero _)] at hdone
  refine ⟨ans', ?_, fun h => ?_⟩
  · cases done with
    | true =>
      rw [hrun, if_pos rfl, if_neg hone, if_pos (hdone.mp rfl), hw.all rfl]
    | false =>
      have hfail := Bool.eq_false_iff.mpr (mt hdone.mpr Bool.false_ne_true)
      have hnil : nodes = [] := hw.void.mpr (.inr hfail)
      rw [hrun, if_neg Bool.false_ne_true, if_pos rfl, hfail, if_neg Bool.false_ne_true, hnil]
      simp
  · rw [hleft (hdone.mpr h), hcount, List.drop_one]

/-! ## Writing -/

/-- States in which a write does nothing. -/
def StreamState.WriteClosed (state : StreamState) : Prop :=
  state = .localClose ∨ state = .closed ∨ state = .reset

/-- States with a handshake flag to send. -/
def StreamState.Unannounced (state : StreamState) : Prop :=
  state = .init ∨ state = .synReceived

theorem sendFlags_state_eq (st : Stream) :
    st.sendFlags.2.state = st.state ↔ ¬ st.state.Unannounced := by
  unfold Stream.sendFlags StreamState.Unannounced
  cases h : st.state <;> simp [h]

/-- What a failed write promises: nothing was queued, and neither the state nor the
window of the stream has changed. -/
def NoTrace (s t : Session) (id : UInt32) (st : Stream) : Prop :=
  t.sendBuf = s.sendBuf ∧ ∃ st', t.streams id = some st' ∧ st'.state = st.state ∧
    st'.sendWindow = st.sendWindow

theorem NoTrace.refl (h : s.streams id = some st) : NoTrace s s id st :=
  ⟨rfl, st, h, rfl, rfl⟩

/-- The last part of a write returns the number of bytes whatever happens. -/
theorem run_streamWriteDebit (h : s.streams id = some st) (max : UInt32) (ans : Answers Call) :
    ((streamWriteDebit id max).run ans s).1 = .ret (toInt32 max.toNat) := by
  have hwaiting (ans : Answers Call) {s : Session} {st : Stream} (h : s.streams id = some st) :
      ∃ r ans' t, (streamWriteableWaiting id).run ans s = (.ret r, ans', t) := by
    simp only [streamWriteableWaiting, run_bind, run_query, runThen_ret]
    rw [run_onStream _ h]
    exact ⟨_, _, _, rfl⟩
  have hleave (ans : Answers Call) (s : Session) :
      ∃ r ans' t, (sessionGoAwayForReason GO_AWAY_INTERNAL_ERR).run ans s = (.ret r, ans', t) := by
    obtain ⟨ans', hrun, -⟩ := run_sendHeader TYPE_GO_AWAY 0 0 GO_AWAY_INTERNAL_ERR ans
      { s with localGoAway := true }
    simp only [sessionGoAwayForReason, run_bind, run_modify, runThen_ret, hrun]
    split <;> exact ⟨_, _, _, rfl⟩
  unfold streamWriteDebit
  rw [run_bind, run_onStream ans h, runThen_ret]
  by_cases hz : st.sendWindow - max = 0
  · obtain ⟨r, ans', t, hrun⟩ := hwaiting ans (s.setStream_same id
      { st with sendWindow := st.sendWindow - max })
    simp only [if_pos hz, run_bind, hrun, runThen_ret]
    by_cases hr : r ≠ 0
    · obtain ⟨r', ans'', t', hrun'⟩ := hleave ans' t
      simp only [if_pos hr, run_bind, hrun', runThen_ret, run_pure]
    · simp only [if_neg hr, run_pure]
  · simp only [if_neg hz, run_bind, run_pure, runThen_ret, ne_eq, not_true_eq_false, if_false]

/-- The answers for which the frame of a write of `max` bytes is queued as a whole. -/
def FrameServed (answers : List Bool) (max : UInt32) : Prop :=
  answers.headD true = true ∧ Bio.Served answers.tail max.toNat ∧ max.toNat ≠ 2 ^ 32 - 1

/-- The queueing part of a write returns -1 without a trace, or does not return -1. -/
theorem run_streamWriteFrame (h : s.streams id = some st) (data : Bytes) (ans : Answers Call) :
    (∀ r ans' t, (streamWriteFrame id data st.sendWindow).run ans s = (.ret r, ans', t) →
        r = -1 → NoTrace s t id st) ↔
      ((ans .alloc).headD true = false ∧ ¬ st.state.Unannounced) ∨
        FrameServed (ans .alloc) (writeMax st.sendWindow data.length) := by
  generalize hmax : writeMax st.sendWindow data.length = max
  have hle : max.toNat ≤ data.length := hmax ▸ writeMax_le _ _
  have hlt := max.toNat_lt
  obtain ⟨ans₁, hheader, htail⟩ := run_sendHeader TYPE_DATA st.sendFlags.1 id max ans
    (s.setStream id st.sendFlags.2)
  have hstart : (streamWriteFrame id data st.sendWindow).run ans s = runThen (fun r =>
      if r = -1 then pure (-1) else do
        let r ← sessionSendBufWrite (data.take max.toNat)
        if r = -1 then pure (-1) else streamWriteDebit id max)
      (if (ans .alloc).headD true
        then (.ret 0, ans₁, (s.setStream id st.sendFlags.2).queue
          (hdrEncode TYPE_DATA st.sendFlags.1 id max))
        else (.ret (-1), ans₁, s.setStream id st.sendFlags.2)) := by
    simp only [streamWriteFrame, streamSendFlags, run_bind, run_onStream ans h, runThen_ret, hmax,
      hheader]
  cases ha : (ans .alloc).headD true with
  | false =>
    rw [ha, if_neg Bool.false_ne_true, runThen_ret, if_pos rfl, run_pure] at hstart
    have hnot : ¬ FrameServed (ans .alloc) max := fun hs => by
      rw [hs.1] at ha
      cases ha
    rw [or_iff_left hnot, ← sendFlags_state_eq]
    constructor
    · intro hall
      obtain ⟨-, st', hst', hstate, -⟩ := hall _ _ _ hstart rfl
      rw [Session.setStream_same] at hst'
      obtain rfl := Option.some.inj hst'
      exact ⟨rfl, hstate⟩
    · rintro ⟨-, hstate⟩ r ans' t he hr
      rw [hstart] at he
      cases he
      exact ⟨rfl, _, s.setStream_same id _, hstate, st.sendFlags_sendWindow⟩
  | true =>
    have hz : ¬ (0 : Int) = -1 := by decide
    obtain ⟨done, nodes, ans₂, hpay, hw, -⟩ := run_sessionSendBufWrite (data.take max.toNat) ans₁
      ((s.setStream id st.sendFlags.2).queue (hdrEncode TYPE_DATA st.sendFlags.1 id max))
    have hlen : (data.take max.toNat).length = max.toNat := by
      rw [List.length_take, min_eq_left hle]
    have hdone := hw.complete
    rw [htail ha, hlen] at hdone
    rw [ha, if_pos rfl, runThen_ret, if_neg hz, run_bind, hpay, hlen] at hstart
    have hfs : FrameServed (ans .alloc) max ↔ done = true ∧ max.toNat ≠ 2 ^ 32 - 1 := by
      rw [FrameServed, ha, hdone]
      exact ⟨fun h => h.2, fun h => ⟨rfl, h⟩⟩
    have hneg : (if done then toInt32 max.toNat else -1) = -1 ↔
        ¬ (done = true ∧ max.toNat ≠ 2 ^ 32 - 1) := by
      cases done with
      | false => simp
      | true =>
        rw [if_pos rfl, toInt32_eq_neg_one, Nat.mod_eq_of_lt hlt]
        tauto
    have hleft : ¬ (true = false ∧ ¬ st.state.Unannounced) := fun h => Bool.false_ne_true h.1.symm
    rw [or_iff_right hleft, hfs]
    by_cases hall : done = true ∧ max.toNat ≠ 2 ^ 32 - 1
    · refine iff_of_true (fun r ans' t he hr => ?_) hall
      have hstream : (((s.setStream id st.sendFlags.2).queue
          (hdrEncode TYPE_DATA st.sendFlags.1 id max)).queue nodes.flatten).streams id =
          some st.sendFlags.2 := s.setStream_same id _
      rw [if_neg (mt hneg.mp (not_not_intro hall)), runThen_ret, if_neg hz] at hstart
      have hret := run_streamWriteDebit hstream max ans₂
      rw [← hstart, he] at hret
      obtain rfl := Outcome.ret.inj hret
      rw [toInt32_eq_neg_one, Nat.mod_eq_of_lt hlt] at hr
      exact absurd hr hall.2
    · refine iff_of_false (fun htrace => ?_) hall
      rw [if_pos (hneg.mpr hall), runThen_ret, if_pos rfl, run_pure] at hstart
      have hbuf := (htrace _ _ _ hstart rfl).1
      have := congrArg List.length hbuf
      simp only [Session.queue_sendBuf, Session.setStream_sendBuf, List.length_append,
        length_hdrEncode] at this
      unfold hdrSize at this
      omega

/-- When a failed write leaves no trace: exactly if the stream is closed for writing
or has no window, or the header is what could not be queued and the stream had no
handshake flag to send, or the frame was queued as a whole. -/
theorem streamWrite_no_trace (h : s.streams id = some st) (data : Bytes) (ans : Answers Call) :
    (∀ r ans' t, (streamWrite id data).run ans s = (.ret r, ans', t) → r = -1 →
        NoTrace s t id st) ↔
      st.state.WriteClosed ∨ st.sendWindow = 0 ∨
        ((ans .alloc).headD true = false ∧ ¬ st.state.Unannounced) ∨
        FrameServed (ans .alloc) (writeMax st.sendWindow data.length) := by
  by_cases hc : st.state.WriteClosed
  · refine iff_of_true (fun r ans' t he hr => ?_) (.inl hc)
    have hrun : (streamWrite id data).run ans s = (.ret 0, ans, s) := by
      rcases hc with hc | hc | hc <;>
        simp only [streamWrite, run_bind, run_readStream ans h, runThen_ret, hc, run_pure]
    rw [hrun] at he
    cases he
    cases hr
  · rw [or_iff_right hc]
    have hopen : (streamWrite id data).run ans s = (do
        let window ← readStream [.send id] id Stream.sendWindow
        if window = 0 then do
          if ← readStream [] id Stream.nonblock then pure (-1)
          else do
            let selected ← query .sock
            if selected then do
              await fun s => (s.streams id).any Stream.writeable
              again
            else pure (-1)
        else streamWriteFrame id data window : Op Int).run ans s := by
      unfold StreamState.WriteClosed at hc
      rw [streamWrite, run_bind, run_readStream ans h, runThen_ret]
      cases hst : st.state <;> first
        | rfl
        | simp [hst] at hc
    rw [hopen, run_bind, run_readStream ans h, runThen_ret]
    by_cases hw : st.sendWindow = 0
    · refine iff_of_true (fun r ans' t he hr => ?_) (.inl hw)
      rw [if_pos hw, run_bind, run_readStream ans h, runThen_ret] at he
      cases hb : st.nonblock with
      | true =>
        rw [hb, if_pos rfl] at he
        cases he
        exact .refl h
      | false =>
        rw [hb, if_neg Bool.false_ne_true, run_bind, run_query, runThen_ret] at he
        cases ha : (ans .sock).headD true with
        | false =>
          rw [ha, if_neg Bool.false_ne_true] at he
          cases he
          exact .refl h
        | true =>
          rw [ha, if_pos rfl] at he
          exact absurd he run_await_again
    · rw [or_iff_right hw, if_neg hw]
      exact run_streamWriteFrame h data ans

/-- A client that has opened its first stream. -/
def opened : Session := ((sessionOpen 1).exec (sessionInit true 4096)).2

/-- The header of a write of three bytes is queued and their payload is not. -/
theorem streamWrite_second_fails :
    ((streamWrite 1 [97, 98, 99]).run secondFails opened).1 = .ret (-1) ∧
      ((streamWrite 1 [97, 98, 99]).run secondFails opened).2.2.sendBuf =
        opened.sendBuf ++ hdrEncode TYPE_DATA 0 1 3 ∧
      hdrEncode TYPE_DATA 0 1 3 ≠ [] := by
  decide +kernel

/-- With the header failing on an announced stream, nothing is queued. -/
theorem streamWrite_first_fails : ∃ st, opened.streams 1 = some st ∧
    ((streamWrite 1 [97, 98, 99]).run (fun _ => [false]) opened).1 = .ret (-1) ∧
    NoTrace opened ((streamWrite 1 [97, 98, 99]).run (fun _ => [false]) opened).2.2 1 st := by
  have hstate : (opened.streams 1).map Stream.state = some .synSent := by decide +kernel
  obtain ⟨st, h, hst⟩ := Option.map_eq_some_iff.mp hstate
  have hret : ((streamWrite 1 [97, 98, 99]).run (fun _ => [false]) opened).1 = .ret (-1) := by
    decide +kernel
  have hclosed : ¬ st.state.Unannounced := by
    rw [hst]
    rintro (h | h) <;> cases h
  exact ⟨st, h, hret, (streamWrite_no_trace h [97, 98, 99] fun _ => [false]).mpr
    (.inr (.inr (.inl ⟨rfl, hclosed⟩))) (-1) _ _ (Prod.ext hret rfl) rfl⟩

/-! ## Window updates -/

/-- An update is due: half of the capacity has been freed, or a handshake flag has
to be sent. -/
def Stream.Due (st : Stream) : Prop :=
  MAX_STREAM_WINDOW_SIZE / 2 ≤ st.delta ∨ st.state.Unannounced

theorem Stream.delta_sendFlags (st : Stream) : st.sendFlags.2.delta = st.delta := by
  rw [Stream.delta, st.sendFlags_recvBuf, st.sendFlags_recvWindow, Stream.delta]

theorem Stream.sendFlags_eq_zero (st : Stream) :
    st.sendFlags.1 = 0 ↔ ¬ st.state.Unannounced := by
  unfold Stream.sendFlags StreamState.Unannounced
  cases h : st.state <;> simp [FLAG_SYN, FLAG_ACK]

theorem Stream.update_of_due (h : st.Due) : ∃ window, window = st.recvWindow + st.delta ∧
    st.update = (some st.delta, { st.sendFlags.2 with recvWindow := window }) := by
  refine ⟨_, rfl, ?_⟩
  unfold Stream.update Stream.grant
  rw [st.delta_sendFlags, st.sendFlags_recvWindow, if_neg]
  rintro ⟨hlt, hz⟩
  rcases h with h | h
  · exact absurd hlt (UInt32.not_lt.mpr h)
  · exact st.sendFlags_eq_zero.mp hz h

theorem Stream.update_of_not_due (h : ¬ st.Due) : st.update = (none, st) := by
  obtain ⟨hlt, hun⟩ := not_or.mp h
  have hself : st.sendFlags.2 = st := by
    unfold StreamState.Unannounced at hun
    unfold Stream.sendFlags
    cases hst : st.state <;> first
      | rfl
      | simp [hst] at hun
  unfold Stream.update Stream.grant
  rw [hself, if_pos ⟨UInt32.not_le.mp hlt, st.sendFlags_eq_zero.mpr hun⟩]

/-- An update that is due changes the stream, and then its frame is queued or not. -/
theorem run_sendWindowUpdate (h : s.streams id = some st) (ans : Answers Call) :
    ∃ ans', (sendWindowUpdate id).run ans s =
      if (st.update.1).isSome ∧ (ans .alloc).headD true = false
        then (.ret (-1), ans', s.setStream id st.update.2)
        else (.ret 0, ans', s.updateWindow id st) := by
  cases hu : st.update with
  | mk delta st' =>
    have hgrant : (onStream [.recv id] id (Stream.grant st.sendFlags.1)).run ans
        (s.setStream id st.sendFlags.2) = (.ret delta, ans, s.setStream id st') := by
      rw [Stream.update] at hu
      rw [run_onStream ans (s.setStream_same id _), Session.setStream_setStream, hu]
    have hstart : streamSendFlags id = onStream [.state id] id Stream.sendFlags := rfl
    unfold sendWindowUpdate Session.updateWindow
    rw [run_bind, hstart, run_onStream ans h, runThen_ret, run_bind, hgrant, runThen_ret, hu]
    cases delta with
    | none =>
      refine ⟨ans, ?_⟩
      simp only [run_pure, Option.isSome_none, Bool.false_eq_true, false_and, if_false, announce,
        Session.queue_nil]
    | some delta =>
      obtain ⟨ans', hrun, -⟩ := run_sendHeader TYPE_WINDOW_UPDATE st.sendFlags.1 id delta ans
        (s.setStream id st')
      refine ⟨ans', ?_⟩
      simp only [run_bind, hrun, Option.isSome_some, true_and, announce]
      cases ha : (ans .alloc).headD true with
      | true => simp
      | false => simp

end Yamux
