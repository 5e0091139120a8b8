import Yamux.Failure.Stream
import Yamux.Network.Application
import Yamux.Receive.Isolation

/-!
# The amounts of a write

A write of `k` bytes queues one frame, takes `k` off the send window and returns
`k`, as long as `k` fits an `int`. Beyond that the result turns negative, and for
the largest `k` the frame stays in the queue while the window keeps its value. The
window itself is exact as long as no update makes it wrap.
-/

namespace Yamux

open Core Prog Session

variable {s t : Session} {id : UInt32} {st : Stream}

/-! ## Writes of any size -/

/-- The queueing part of a write. The largest count reads as failure. -/
theorem exec_streamWriteFrame_any (h : s.streams id = some st) (data : Bytes) :
    (streamWriteFrame id data st.sendWindow).exec s =
      if (writeMax st.sendWindow data.length).toNat = 2 ^ 32 - 1 then
        (.ret (-1), (s.setStream id st.sendFlags.2).queue (st.writeFrame id data))
      else
        (.ret (toInt32 (writeMax st.sendWindow data.length).toNat),
          (s.setStream id (st.afterWrite data.length)).queue (st.writeFrame id data)) := by
  generalize hmax : writeMax st.sendWindow data.length = max
  have hle : max.toNat ≤ data.length := hmax ▸ writeMax_le _ _
  have hlt := max.toNat_lt
  have hlen : (data.take max.toNat).length = max.toNat := by
    rw [List.length_take, min_eq_left hle]
  have hfail : toInt32 (data.take max.toNat).length = -1 ↔ max.toNat = 2 ^ 32 - 1 := by
    rw [hlen, toInt32_eq_neg_one, Nat.mod_eq_of_lt hlt]
  have hz : ¬ (0 : Int) = -1 := by decide
  have hqueued : ((s.setStream id st.sendFlags.2).queue
      (hdrEncode TYPE_DATA st.sendFlags.1 id max)).queue (data.take max.toNat) =
      (s.setStream id st.sendFlags.2).queue (st.writeFrame id data) := by
    simp only [Session.queue, Stream.writeFrame, hmax, setStream_sendBuf, List.append_assoc]
  have hstream : ((s.setStream id st.sendFlags.2).queue (st.writeFrame id data)).streams id =
      some st.sendFlags.2 := s.setStream_same id _
  unfold streamWriteFrame
  rw [exec_bind, exec_streamSendFlags h, andThen_ret, hmax, exec_bind, exec_sendHeader,
    andThen_ret, if_neg hz, exec_bind, exec_sessionSendBufWrite, andThen_ret, hqueued]
  by_cases hbig : max.toNat = 2 ^ 32 - 1
  · rw [if_pos (hfail.mpr hbig), if_pos rfl, exec_pure, if_pos hbig]
  · rw [if_neg (mt hfail.mp hbig), if_neg hz, if_neg hbig, exec_streamWriteDebit hstream,
      Stream.sendFlags_sendWindow, Stream.sendFlags_writeable]
    simp [Stream.afterWrite, Session.queue, Session.setStream, hmax]

/-- A write on a stream that may be written to and has window left. -/
theorem exec_streamWrite_any (h : s.streams id = some st) (data : Bytes)
    (hopen : ¬ st.state.WriteClosed) (hw : st.sendWindow ≠ 0) :
    (streamWrite id data).exec s = (streamWriteFrame id data st.sendWindow).exec s := by
  unfold StreamState.WriteClosed at hopen
  cases hst : st.state <;> simp_all [streamWrite, exec_readStream h]

/-! ## What a write reports -/

/-- A write reports what it sent: it queues one DATA frame with the first `k` bytes,
where `k` is the smaller one of the window and the length of the data, takes `k` off
the window and returns `k`; and it returns a negative value only if nothing was
queued. -/
def Reports (s : Session) (id : UInt32) (st : Stream) (data : Bytes) : Prop :=
  (∃ (t : Session) (st' : Stream) (f : Frame), (streamWrite id data).exec s =
      (.ret ((min st.sendWindow.toNat data.length : Nat) : Int), t) ∧
    f.type = TYPE_DATA ∧ f.id = id ∧ f.length.toNat = min st.sendWindow.toNat data.length ∧
    f.payload = data.take (min st.sendWindow.toNat data.length) ∧
    t.sendBuf = s.sendBuf ++ f.bytes ∧ t.streams id = some st' ∧
    st'.sendWindow.toNat + min st.sendWindow.toNat data.length = st.sendWindow.toNat) ∧
  ∀ r t, (streamWrite id data).exec s = (.ret r, t) → r < 0 → t.sendBuf = s.sendBuf

section Reports

variable (h : s.streams id = some st) (hopen : ¬ st.state.WriteClosed) (hw : st.sendWindow ≠ 0)
  (data : Bytes)

include h hopen hw

theorem exec_streamWrite_amount : (streamWrite id data).exec s =
    if min st.sendWindow.toNat data.length = 2 ^ 32 - 1 then
      (.ret (-1), (s.setStream id st.sendFlags.2).queue (st.writeFrame id data))
    else (.ret (toInt32 (min st.sendWindow.toNat data.length)),
      (s.setStream id (st.afterWrite data.length)).queue (st.writeFrame id data)) := by
  rw [exec_streamWrite_any h data hopen hw, exec_streamWriteFrame_any h, writeMax_eq]

/-- A count that does not fit an `int` is not what the write returns. -/
theorem not_reports_of_le (hbig : 2 ^ 31 ≤ min st.sendWindow.toNat data.length) :
    ¬ Reports s id st data := by
  rintro ⟨⟨t, st', f, hrun, -⟩, -⟩
  have hwindow := st.sendWindow.toNat_lt
  rw [exec_streamWrite_amount h hopen hw] at hrun
  split at hrun
  · have := Outcome.ret.inj (Prod.mk.inj hrun).1
    omega
  · have := Outcome.ret.inj (Prod.mk.inj hrun).1
    have hneg := toInt32_neg hbig (by omega)
    omega

theorem reports_of_lt (hfit : min st.sendWindow.toNat data.length < 2 ^ 31) :
    Reports s id st data := by
  have hexec := exec_streamWrite_amount h hopen hw data
  rw [if_neg (by omega), toInt32_eq hfit] at hexec
  obtain ⟨f, hf, hid, htype, -, -, hpay⟩ := Net.writeFrame_eq st id data
  rw [writeMax_eq] at hpay
  constructor
  · refine ⟨_, st.afterWrite data.length, f, hexec, htype, hid, ?_, hpay, ?_,
      s.setStream_same id _, ?_⟩
    · rw [← Frame.length_payload htype, hpay, List.length_take]
      omega
    · rw [queue_sendBuf, setStream_sendBuf, ← hf, Frame.encode_cons, Frame.encode_nil,
        List.append_nil, Frame.bytes]
    · have hle : writeMax st.sendWindow data.length ≤ st.sendWindow := by
        rw [UInt32.le_iff_toNat_le, writeMax_eq]
        exact min_le_left _ _
      rw [(Net.afterWrite_spec st data.length).2.2.2, UInt32.toNat_sub_of_le _ _ hle, writeMax_eq]
      omega
  · intro r t hrun hneg
    rw [hexec] at hrun
    have := Outcome.ret.inj (Prod.mk.inj hrun).1
    omega

end Reports

/-- What a write reports is right exactly if the count fits an `int`. -/
theorem streamWrite_reports (h : s.streams id = some st) (hopen : ¬ st.state.WriteClosed)
    (hw : st.sendWindow ≠ 0) (data : Bytes) :
    Reports s id st data ↔ min st.sendWindow.toNat data.length < 2 ^ 31 := by
  constructor
  · intro hr
    by_contra hbig
    exact not_reports_of_le h hopen hw data (Nat.le_of_not_lt hbig) hr
  · exact reports_of_lt h hopen hw data

/-- The first stream of a client. -/
theorem opened_stream : ∃ st, opened.streams 1 = some st ∧ st.state = .synSent ∧
    st.sendWindow = 262144 := by
  have hstream : (opened.streams 1).map (fun st => (st.state, st.sendWindow)) =
      some (.synSent, 262144) := by decide +kernel
  obtain ⟨st, h, hst⟩ := Option.map_eq_some_iff.mp hstream
  exact ⟨st, h, (Prod.mk.inj hst).1, (Prod.mk.inj hst).2⟩

/-- Three bytes on a new stream. -/
theorem streamWrite_reports_three : ∃ st, opened.streams 1 = some st ∧
    Reports opened 1 st [97, 98, 99] := by
  obtain ⟨st, h, hstate, hw⟩ := opened_stream
  refine ⟨st, h, (streamWrite_reports h ?_ ?_ [97, 98, 99]).mpr ?_⟩
  · rw [hstate]
    rintro (hc | hc | hc) <;> cases hc
  · rw [hw]
    decide
  · exact (min_le_right _ _).trans_lt (by decide)

/-- The client once the peer has raised the window of the stream to `2 ^ 31`. -/
def granted : Session :=
  (sessionProcess.exec (opened.more (hdrEncode TYPE_WINDOW_UPDATE FLAG_ACK 1 0x7FFC0000))).2

/-- A write of `2 ^ 31` bytes does not report them. -/
theorem streamWrite_negative : ∃ st, granted.streams 1 = some st ∧ st.state = .established ∧
    st.sendWindow = 0x80000000 ∧ ¬ Reports granted 1 st (List.replicate (2 ^ 31) 0) := by
  have hstream : (granted.streams 1).map (fun st => (st.state, st.sendWindow)) =
      some (.established, 0x80000000) := by decide +kernel
  obtain ⟨st, h, hst⟩ := Option.map_eq_some_iff.mp hstream
  obtain ⟨hstate, hw⟩ := Prod.mk.inj hst
  refine ⟨st, h, hstate, hw, not_reports_of_le h ?_ ?_ _ ?_⟩
  · rw [hstate]
    rintro (hc | hc | hc) <;> cases hc
  · rw [hw]
    decide
  · rw [hw, List.length_replicate]
    exact le_min le_rfl le_rfl

end Yamux
