import Yamux.Sequential.Stream

/-!
# The receive path run alone

What the handlers of incoming frames do to the session when they run by
themselves and their allocations and socket calls succeed. The payload loop with
its slices is summed up as one move of bytes to the stream.
-/

namespace Yamux

open Core Prog

namespace Session

/-! ## Incoming streams -/

/-- The effect of refusing a stream while going away. -/
def refuse (s : Session) (id : UInt32) : Session :=
  s.queue (hdrEncode TYPE_WINDOW_UPDATE FLAG_RST id 0)

/-- The effect of accepting a SYN. -/
def enroll (s : Session) (id : UInt32) : Session :=
  { s.setStream id (Stream.fresh .synReceived s.rcvbuf) with accepts := s.accepts ++ [id] }

/-- The effect of the SYN flag of the saved header: the result of
`incoming_stream`, which is 0 where the flag is not set. -/
def syn (s : Session) : Int × Session :=
  let id := hdrStreamId s.hdr
  if hasFlag (hdrFlags s.hdr) FLAG_SYN then
    if s.localGoAway then (0, s.refuse id)
    else if (s.streams id).isSome then (-1, s.leave GO_AWAY_PROTO_ERR)
    else (0, s.enroll id)
  else (0, s)

end Session

variable {s : Session} {id : UInt32} {st : Stream}

theorem exec_incomingStream (hf : s.newFrame = true)
    (hs : hasFlag (hdrFlags s.hdr) FLAG_SYN = true) :
    incomingStream.exec s = (.ret s.syn.1, s.syn.2) := by
  have hz : ¬ ((0 : Int) ≠ 0) := by decide
  cases hl : s.localGoAway
  · cases hst : s.streams (hdrStreamId s.hdr) with
    | none =>
      simp [incomingStream, sessionFindStream, Session.syn, hf, hl, hs, hst, exec_streamNew hst,
        notifyAccept, Session.enroll, Session.setStream]
    | some st =>
      simp [incomingStream, sessionFindStream, Session.syn, hf, hl, hs, hst]
  · simp only [incomingStream, Session.syn, exec_bind, exec_read, andThen_ret, hf, exec_check,
      hl, if_true, exec_sendHeader, if_neg hz, exec_pure, hs, Session.refuse]

/-- The SYN part of the DATA and WINDOW_UPDATE handlers. -/
theorem exec_syn (hf : s.newFrame = true) :
    (if hasFlag (hdrFlags s.hdr) FLAG_SYN then incomingStream else pure 0 : Op Int).exec s =
      (.ret s.syn.1, s.syn.2) := by
  by_cases hs : hasFlag (hdrFlags s.hdr) FLAG_SYN = true
  · rw [if_pos hs, exec_incomingStream hf hs]
  · rw [if_neg hs, exec_pure, Session.syn]
    simp [hs]

/-! ## Payloads -/

namespace Session

/-- A live stream after a move of `n` bytes of the input. -/
def received (s : Session) (st : Stream) (n : Nat) : Stream :=
  { st with
    recvBuf := st.recvBuf ++ s.recvBuf.take n
    recvWindow := st.recvWindow - UInt32.ofNat n
    readable := if n = 0 then st.readable else true }

/-- Move `n` bytes of the input to a live stream. -/
def deliver (s : Session) (id : UInt32) (st : Stream) (n : Nat) : Session :=
  { s.setStream id (s.received st n) with
    recvBuf := s.recvBuf.drop n
    frameRemain := s.frameRemain - UInt32.ofNat n }

/-- Drop `n` bytes of the input, which may hold fewer, and shorten the frame by `n`. -/
def skip (s : Session) (n : Nat) : Session :=
  { s with recvBuf := s.recvBuf.drop n, frameRemain := s.frameRemain - UInt32.ofNat n }

/-- The end of `session_handle_data`: a frame with nothing left is done. -/
def closeFrame (s : Session) : Session :=
  { s with newFrame := if s.frameRemain = 0 then true else s.newFrame }

theorem deliver_zero (h : s.streams id = some st) : s.deliver id st 0 = s := by
  have hr : s.received st 0 = st := by simp [received]
  rw [deliver, hr, setStream_eq_self h]
  simp

@[simp] theorem deliver_same (n : Nat) : (s.deliver id st n).streams id = some (s.received st n) :=
  s.setStream_same id _

/-- Two moves in a row are one. -/
theorem deliver_deliver (n m : Nat) :
    (s.deliver id st n).deliver id (s.received st n) m = s.deliver id st (n + m) := by
  have hread : (if m = 0 then if n = 0 then st.readable else true else true) =
      if n + m = 0 then st.readable else true := by
    by_cases hm : m = 0 <;> simp [hm]
  simp only [deliver, received, setStream, Function.update_idem, List.append_assoc,
    ← List.take_add, List.drop_drop, sub_ofNat_sub, hread]

theorem skip_skip (n m : Nat) : (s.skip n).skip m = s.skip (n + m) := by
  simp only [skip, List.drop_drop, sub_ofNat_sub]

end Session

/-! ## The payload loop -/

/-- One slice for a live stream. -/
theorem exec_deliverSlice (h : s.streams id = some st) {size : Nat} (hsize : 0 < size)
    (hle : size ≤ sliceSize) (hne : s.recvBuf ≠ []) :
    (deliverSlice id size).exec s = (.ret (some (s.recvBuf.take size).length),
      s.setStream id (s.received st (s.recvBuf.take size).length)) := by
  have hlen : (s.recvBuf.take size).length < 2 ^ 31 := by
    rw [List.length_take]
    simp only [sliceSize] at hle
    omega
  have hpos : 0 < (s.recvBuf.take size).length := by
    have := List.length_pos_of_ne_nil hne
    rw [List.length_take]
    omega
  have hr : toInt32 (s.recvBuf.take size).length = (s.recvBuf.take size).length := toInt32_eq hlen
  have hcheck : decide (0 < ((s.recvBuf.take size).length : Int)) = true :=
    decide_eq_true (Int.natCast_pos.mpr hpos)
  have hne1 : ¬ ((s.recvBuf.take size).length : Int) = -1 := by omega
  have hz : ¬ ((0 : Int) ≠ 0) := by decide
  have htake : s.recvBuf.take (s.recvBuf.take size).length = s.recvBuf.take size := by
    rw [List.length_take, List.take_eq_take_iff]
    omega
  unfold deliverSlice
  simp only [exec_bind, exec_read, andThen_ret, hr, exec_check, hcheck, if_true, exec_acquire,
    exec_bioWrite, exec_modifyStream h, if_neg hne1, exec_release,
    exec_streamReadableNotify (s.setStream_same id _), if_neg hz, exec_pure,
    Session.setStream_setStream, Session.received, htake, if_neg hpos.ne']

/-- One round of the payload loop for a live stream. -/
theorem exec_payloadRound_live (h : s.streams id = some st) (hlen : s.recvBuf.length < 2 ^ 31)
    (hr : s.frameRemain ≠ 0) (hne : s.recvBuf ≠ []) :
    (payloadRound id true).exec s = (.ret none,
      s.deliver id st (min (min s.frameRemain.toNat sliceSize) s.recvBuf.length)) := by
  have hp : ¬ (s.frameRemain = 0 ∨ bioPending s.recvBuf = 0) := by
    rw [bioPending_eq_zero hlen]
    tauto
  have hpos : 0 < min s.frameRemain.toNat sliceSize := by
    have : s.frameRemain.toNat ≠ 0 := fun h => hr (UInt32.toNat_inj.mp h)
    simp only [sliceSize]
    omega
  unfold payloadRound
  simp only [exec_bind, exec_read, andThen_ret, if_neg hp, if_true,
    exec_deliverSlice h hpos (min_le_right _ _) hne, exec_modify, exec_pure]
  simp only [List.length_take, Session.deliver, Session.setStream_recvBuf,
    Session.setStream_frameRemain]

/-- The payload loop leaves at the end of the frame or of the input. -/
theorem exec_payloadRound_exit (live : Bool) (hlen : s.recvBuf.length < 2 ^ 31)
    (h : s.frameRemain = 0 ∨ s.recvBuf = []) :
    (payloadRound id live).exec s = (.ret (some 0), s) := by
  have hp : s.frameRemain = 0 ∨ bioPending s.recvBuf = 0 := by
    rwa [bioPending_eq_zero hlen]
  simp only [payloadRound, exec_bind, exec_read, andThen_ret, if_pos hp, exec_pure]

/-- The payload loop moves as much of the payload as there is to a live stream. -/
theorem exec_payloadLoop_live {fuel : Nat} (hfuel : s.frameRemain.toNat < fuel)
    (h : s.streams id = some st) (hlen : s.recvBuf.length < 2 ^ 31) :
    (loop fuel (payloadRound id true)).exec s =
      (.ret 0, s.deliver id st (min s.frameRemain.toNat s.recvBuf.length)) := by
  induction fuel generalizing s st with
  | zero => omega
  | succ fuel ih =>
    rw [exec_loop_succ]
    by_cases hexit : s.frameRemain = 0 ∨ s.recvBuf = []
    · have hmin : min s.frameRemain.toNat s.recvBuf.length = 0 := by
        rcases hexit with he | he <;> simp [he]
      rw [exec_payloadRound_exit true hlen hexit, andThen_ret, hmin, Session.deliver_zero h]
      rfl
    · obtain ⟨hr, hne⟩ := not_or.mp hexit
      have hpos := List.length_pos_of_ne_nil hne
      have hr' : 0 < s.frameRemain.toNat :=
        Nat.pos_of_ne_zero fun h => hr (UInt32.toNat_inj.mp h)
      rw [exec_payloadRound_live h hlen hr hne, andThen_ret]
      generalize hk : min (min s.frameRemain.toNat sliceSize) s.recvBuf.length = k
      have hfr : (s.deliver id st k).frameRemain.toNat = s.frameRemain.toNat - k :=
        toNat_sub_ofNat (by omega)
      have hk0 : 0 < k := by
        simp only [sliceSize] at hk
        omega
      have hbuf : (s.deliver id st k).recvBuf.length = s.recvBuf.length - k := List.length_drop
      rw [ih (by omega) (Session.deliver_same k) (by omega), Session.deliver_deliver, hfr, hbuf]
      congr 3
      omega

/-- How far the payload loop shortens a frame that no stream takes, when `len`
bytes of input are there: by whole slices, whether they are there or not. -/
def skipped (remain len : Nat) : Nat :=
  min remain (sliceSize * ((len + sliceSize - 1) / sliceSize))

/-- The payload loop skips whole slices of a frame that no stream takes. -/
theorem exec_payloadLoop_skip {fuel : Nat} (hfuel : s.frameRemain.toNat < fuel)
    (hlen : s.recvBuf.length < 2 ^ 31) :
    (loop fuel (payloadRound id false)).exec s =
      (.ret 0, s.skip (skipped s.frameRemain.toNat s.recvBuf.length)) := by
  induction fuel generalizing s with
  | zero => omega
  | succ fuel ih =>
    rw [exec_loop_succ]
    by_cases hexit : s.frameRemain = 0 ∨ s.recvBuf = []
    · have hmin : skipped s.frameRemain.toNat s.recvBuf.length = 0 := by
        rcases hexit with he | he <;> simp [he, skipped, sliceSize]
      rw [exec_payloadRound_exit false hlen hexit, andThen_ret, hmin]
      simp [Session.skip, exec]
    · obtain ⟨hr, hne⟩ := not_or.mp hexit
      have hpos := List.length_pos_of_ne_nil hne
      have hr' : 0 < s.frameRemain.toNat :=
        Nat.pos_of_ne_zero fun h => hr (UInt32.toNat_inj.mp h)
      have hp : ¬ (s.frameRemain = 0 ∨ bioPending s.recvBuf = 0) := by
        rw [bioPending_eq_zero hlen]
        tauto
      generalize hk : min s.frameRemain.toNat sliceSize = k
      have hround : (payloadRound id false).exec s = (.ret none, s.skip k) := by
        simp only [payloadRound, exec_bind, exec_read, andThen_ret, if_neg hp,
          Bool.false_eq_true, if_false, exec_pure, exec_modify, hk, Session.skip]
      have hfr : (s.skip k).frameRemain.toNat = s.frameRemain.toNat - k :=
        toNat_sub_ofNat (by omega)
      have hbuf : (s.skip k).recvBuf.length = s.recvBuf.length - k := List.length_drop
      simp only [sliceSize] at hk
      rw [hround, andThen_ret]
      rw [ih (by omega) (by omega), Session.skip_skip, hfr, hbuf]
      congr 3
      simp only [skipped, sliceSize]
      omega

/-- The payload part for a live stream. -/
theorem exec_handlePayload_live (h : s.streams id = some st)
    (hlen : s.recvBuf.length < 2 ^ 31) :
    (handlePayload id true).exec s =
      (.ret 0, (s.deliver id st (min s.frameRemain.toNat s.recvBuf.length)).closeFrame) := by
  simp [handlePayload, exec_payloadLoop_live (Nat.lt_succ_self _) h hlen, Session.closeFrame]

/-- The payload part for a frame that no stream takes. -/
theorem exec_handlePayload_skip (hlen : s.recvBuf.length < 2 ^ 31) :
    (handlePayload id false).exec s =
      (.ret 0, (s.skip (skipped s.frameRemain.toNat s.recvBuf.length)).closeFrame) := by
  simp [handlePayload, exec_payloadLoop_skip (Nat.lt_succ_self _) hlen, Session.closeFrame]

end Yamux
