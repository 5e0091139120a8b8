import Yamux.Native.Session

/-!
# Stream operations run alone

What each stream operation does to the session when it runs by itself and its
allocations and socket calls succeed. The later modules cite these equations and
never unfold the operations.
-/

namespace Yamux

open Core Prog

/-- Append bytes to the send buffer. -/
def Session.queue (s : Session) (data : Bytes) : Session := { s with sendBuf := s.sendBuf ++ data }

namespace Session

section Queue

variable (s : Session) (data : Bytes)

@[simp] theorem queue_remoteGoAway : (s.queue data).remoteGoAway = s.remoteGoAway := rfl
@[simp] theorem queue_localGoAway : (s.queue data).localGoAway = s.localGoAway := rfl
@[simp] theorem queue_nextId : (s.queue data).nextId = s.nextId := rfl
@[simp] theorem queue_newFrame : (s.queue data).newFrame = s.newFrame := rfl
@[simp] theorem queue_frameRemain : (s.queue data).frameRemain = s.frameRemain := rfl
@[simp] theorem queue_recvBuf : (s.queue data).recvBuf = s.recvBuf := rfl
@[simp] theorem queue_sendBuf : (s.queue data).sendBuf = s.sendBuf ++ data := rfl
@[simp] theorem queue_streams : (s.queue data).streams = s.streams := rfl
@[simp] theorem queue_hdr : (s.queue data).hdr = s.hdr := rfl
@[simp] theorem queue_accepts : (s.queue data).accepts = s.accepts := rfl
@[simp] theorem queue_rcvbuf : (s.queue data).rcvbuf = s.rcvbuf := rfl

end Queue

end Session

/-- Append bytes to the send buffer; the length `2 ^ 32 - 1` reads as failure. -/
@[simp] theorem exec_sessionSendBufWrite (data : Bytes) (s : Session) :
    (sessionSendBufWrite data).exec s =
      (.ret (if toInt32 data.length = -1 then -1 else 0), s.queue data) := by
  simp [sessionSendBufWrite, Session.queue]

/-- A header is always queued. -/
theorem exec_sendHeader (type : UInt8) (flags : UInt16) (id len : UInt32) (s : Session) :
    (sessionSendBufWrite (hdrEncode type flags id len)).exec s =
      (.ret 0, s.queue (hdrEncode type flags id len)) := by
  rw [exec_sessionSendBufWrite, length_hdrEncode, toInt32_eq (by decide)]
  rfl

/-- The effect of `session_go_away_for_reason`. -/
def Session.leave (s : Session) (reason : UInt32) : Session :=
  ({ s with localGoAway := true } : Session).queue (hdrEncode TYPE_GO_AWAY 0 0 reason)

@[simp] theorem exec_sessionGoAwayForReason (reason : UInt32) (s : Session) :
    (sessionGoAwayForReason reason).exec s = (.ret 0, s.leave reason) := by
  simp only [sessionGoAwayForReason, exec_bind, exec_modify, andThen_ret, exec_sendHeader]
  rfl

section OneStream

variable {s : Session} {id : UInt32} {st : Stream}

/-! ## Readiness -/

theorem exec_streamWriteableNotify (h : s.streams id = some st) :
    (streamWriteableNotify id).exec s =
      (.ret 0, s.setStream id { st with writeable := true }) := by
  cases hw : st.writeable <;> simp [streamWriteableNotify, exec_onStream h, hw]
  rw [← hw]

theorem exec_streamWriteableWaiting (h : s.streams id = some st) :
    (streamWriteableWaiting id).exec s =
      (.ret 0, s.setStream id { st with writeable := false }) := by
  cases hw : st.writeable <;> simp [streamWriteableWaiting, exec_onStream h, hw]
  rw [← hw]

theorem exec_streamReadableNotify (h : s.streams id = some st) :
    (streamReadableNotify id).exec s =
      (.ret 0, s.setStream id { st with readable := true }) := by
  cases hr : st.readable <;> simp [streamReadableNotify, exec_onStream h, hr]
  rw [← hr]

theorem exec_streamReadableWaiting (h : s.streams id = some st) :
    (streamReadableWaiting id).exec s =
      (.ret 0, s.setStream id { st with readable := false }) := by
  cases hr : st.readable <;> simp [streamReadableWaiting, exec_onStream h, hr]
  rw [← hr]

/-- A stream whose descriptor is ready for everything, so that waiting calls recheck. -/
def Stream.woken (st : Stream) : Stream := { st with writeable := true, readable := true }

theorem exec_streamNotifyWaiting (h : s.streams id = some st) :
    (streamNotifyWaiting id).exec s = (.ret (), s.setStream id st.woken) := by
  simp [streamNotifyWaiting, exec_streamWriteableNotify h,
    exec_streamReadableNotify (s.setStream_same id _), Stream.woken]

/-! ## Creation -/

theorem exec_streamNew (h : s.streams id = none) (state : StreamState) :
    (streamNew id state).exec s = (.ret true, s.setStream id (Stream.fresh state s.rcvbuf)) := by
  simp [streamNew, sessionInsertStream, h]

/-- A second stream with the same id fails the assertion in `session_insert_stream`. -/
theorem exec_streamNew_dup (h : s.streams id = some st) (state : StreamState) :
    (streamNew id state).exec s = (.abort, s) := by
  simp [streamNew, sessionInsertStream, h]

/-! ## Flags -/

/-- The effect of ACK. -/
def Stream.processAck (st : Stream) (flags : UInt16) : Stream :=
  if hasFlag flags FLAG_ACK ∧ st.state = .synSent then { st with state := .established } else st

/-- The effect of FIN, `none` where it is illegal. -/
def Stream.processFin (st : Stream) (flags : UInt16) : Option Stream :=
  if hasFlag flags FLAG_FIN then
    match st.state with
    | .synSent | .synReceived | .established => some { st.woken with state := .remoteClose }
    | .localClose => some { st.woken with state := .closed }
    | _ => none
  else some st

/-- The effect of RST. -/
def Stream.processRst (st : Stream) (flags : UInt16) : Stream :=
  if hasFlag flags FLAG_RST then { st.woken with state := .reset } else st

/-- The effect of the flags of a frame, `none` where `stream_process_flags` fails. -/
def Stream.processFlags (st : Stream) (flags : UInt16) : Option Stream :=
  ((st.processAck flags).processFin flags).map fun st => st.processRst flags

theorem exec_streamProcessAck (h : s.streams id = some st) (flags : UInt16) :
    (streamProcessAck id flags).exec s = (.ret (), s.setStream id (st.processAck flags)) := by
  by_cases hf : hasFlag flags FLAG_ACK
  · by_cases hst : st.state = .synSent <;>
      simp [streamProcessAck, Stream.processAck, hf, hst, exec_modifyStream h]
  · simp [streamProcessAck, Stream.processAck, hf, Session.setStream_eq_self h]

theorem exec_streamProcessFin (h : s.streams id = some st) (flags : UInt16) :
    (streamProcessFin id flags).exec s = match st.processFin flags with
      | some st' => (.ret true, s.setStream id st')
      | none => (.ret false, s) := by
  by_cases hf : hasFlag flags FLAG_FIN
  · cases hst : st.state <;>
      simp [streamProcessFin, Stream.processFin, hf, exec_readStream h, hst, exec_modifyStream h,
        exec_streamNotifyWaiting (s.setStream_same id _), Stream.woken]
  · simp [streamProcessFin, Stream.processFin, hf, Session.setStream_eq_self h]

theorem exec_streamProcessRst (h : s.streams id = some st) (flags : UInt16) :
    (streamProcessRst id flags).exec s = (.ret (), s.setStream id (st.processRst flags)) := by
  by_cases hf : hasFlag flags FLAG_RST
  · simp [streamProcessRst, Stream.processRst, hf, exec_modifyStream h,
      exec_streamNotifyWaiting (s.setStream_same id _), Stream.woken]
  · simp [streamProcessRst, Stream.processRst, hf, Session.setStream_eq_self h]

/-- Where FIN is illegal, ACK has not changed the state either. -/
theorem Stream.processAck_of_processFin {flags : UInt16}
    (h : (st.processAck flags).processFin flags = none) : st.processAck flags = st := by
  unfold Stream.processAck at h ⊢
  split at h
  · simp only [Stream.processFin] at h
    split at h <;> simp at h
  · exact if_neg ‹_›

/-- The flags of a frame take effect as a whole or not at all. -/
theorem exec_streamProcessFlags (h : s.streams id = some st) (flags : UInt16) :
    (streamProcessFlags id flags).exec s = match st.processFlags flags with
      | some st' => (.ret 0, s.setStream id st')
      | none => (.ret (-1), s) := by
  have ha := exec_streamProcessAck h flags
  have hf := exec_streamProcessFin (s.setStream_same id (st.processAck flags)) flags
  cases hfin : (st.processAck flags).processFin flags with
  | none =>
    rw [hfin, Stream.processAck_of_processFin hfin, Session.setStream_eq_self h] at hf
    rw [Stream.processAck_of_processFin hfin, Session.setStream_eq_self h] at ha
    simp [streamProcessFlags, ha, hf, Stream.processFlags, hfin]
  | some st₂ =>
    simp only [hfin, Session.setStream_setStream] at hf
    have hr := exec_streamProcessRst (s.setStream_same id st₂) flags
    simp [streamProcessFlags, ha, hf, hr, Stream.processFlags, hfin]

/-! ## Window updates -/

theorem exec_streamSendFlags (h : s.streams id = some st) :
    (streamSendFlags id).exec s = (.ret st.sendFlags.1, s.setStream id st.sendFlags.2) :=
  exec_onStream h

/-- The effect of `send_window_update` on the stream, and the credit it announces. -/
def Stream.update (st : Stream) : Option UInt32 × Stream := st.sendFlags.2.grant st.sendFlags.1

/-- The header that announces credit, if any. -/
def announce (flags : UInt16) (id : UInt32) : Option UInt32 → Bytes
  | none => []
  | some delta => hdrEncode TYPE_WINDOW_UPDATE flags id delta

/-- The effect of `send_window_update` on the session. -/
def Session.updateWindow (s : Session) (id : UInt32) (st : Stream) : Session :=
  (s.setStream id st.update.2).queue (announce st.sendFlags.1 id st.update.1)

@[simp] theorem Session.setStream_updateWindow (s : Session) (id : UInt32) (st st' : Stream) :
    (s.setStream id st').updateWindow id st = s.updateWindow id st := by
  simp [Session.updateWindow]

@[simp] theorem Session.queue_nil (s : Session) : s.queue [] = s := by
  simp [Session.queue]

theorem exec_sendWindowUpdate (h : s.streams id = some st) :
    (sendWindowUpdate id).exec s = (.ret 0, s.updateWindow id st) := by
  have hg : (onStream [.recv id] id (Stream.grant st.sendFlags.1)).exec
      (s.setStream id st.sendFlags.2) = (.ret st.update.1, s.setStream id st.update.2) := by
    rw [exec_onStream (s.setStream_same id _), Session.setStream_setStream, Stream.update]
  unfold sendWindowUpdate Session.updateWindow
  rw [exec_bind, exec_streamSendFlags h, andThen_ret, exec_bind, hg, andThen_ret]
  cases st.update.1 with
  | none => simp only [exec_pure, announce, Session.queue_nil]
  | some delta =>
    simp only [exec_bind, exec_sendHeader, andThen_ret, ne_eq, not_true_eq_false, if_false,
      exec_pure, announce]

/-! ## Reading -/

/-- The effect of the reading section of `stream_read` and of its check for an
empty buffer. -/
def Stream.afterTake (st : Stream) (size : Nat) : Stream :=
  { st with
    recvBuf := st.recvBuf.drop size
    readable := if st.recvBuf.drop size = [] then false else st.readable }

/-- A closed stream whose buffer is empty, or a reset stream, is not read from. -/
theorem exec_streamReadClosed (h : s.streams id = some st) :
    (streamReadClosed id).exec s = (.ret (match st.state with
      | .localClose | .remoteClose | .closed => if bioPending st.recvBuf = 0 then some 0 else none
      | .reset => some (-1)
      | _ => none), s) := by
  cases hst : st.state <;> simp [streamReadClosed, exec_readStream h, hst]

/-- End of file. -/
theorem exec_streamRead_eof (h : s.streams id = some st) (size : Nat) (he : st.recvBuf = [])
    (hst : st.state = .localClose ∨ st.state = .remoteClose ∨ st.state = .closed) :
    (streamRead id size).exec s = (.ret (0, []), s) := by
  rcases hst with hst | hst | hst <;>
    simp [streamRead, exec_streamReadClosed h, hst, he]

/-- Reading a reset stream fails. -/
theorem exec_streamRead_reset (h : s.streams id = some st) (size : Nat)
    (hst : st.state = .reset) : (streamRead id size).exec s = (.ret (-1, []), s) := by
  simp [streamRead, exec_streamReadClosed h, hst]

/-- With nothing to read, an open stream fails or blocks, and nothing changes. -/
theorem exec_streamRead_wait (h : s.streams id = some st) (size : Nat) (he : st.recvBuf = [])
    (hst : st.state ≠ .localClose ∧ st.state ≠ .remoteClose ∧ st.state ≠ .closed ∧
      st.state ≠ .reset) :
    (streamRead id size).exec s = (if st.nonblock then .ret (-1, []) else .hang, s) := by
  have hc : (streamReadClosed id).exec s = (.ret none, s) := by
    rw [exec_streamReadClosed h]
    cases hst' : st.state <;> simp_all
  have hp : bioPending st.recvBuf = 0 := by rw [he, bioPending_nil]
  simp only [streamRead, exec_bind, hc, andThen_ret, exec_readStream h, hp, if_true]
  cases st.nonblock
  · simp only [Bool.false_eq_true, if_false, exec_bind, exec_query, andThen_ret, if_true,
      exec_await]
    split <;> rfl
  · rfl

/-- With bytes in its buffer a stream is read from, unless it is reset. -/
theorem exec_streamReadClosed_data (h : s.streams id = some st) (hp : bioPending st.recvBuf ≠ 0)
    (hst : st.state ≠ .reset) : (streamReadClosed id).exec s = (.ret none, s) := by
  rw [exec_streamReadClosed h]
  cases hst' : st.state <;> simp_all

/-- A read of no bytes finds none and fails the assertion. -/
theorem exec_streamRead_zero (h : s.streams id = some st) (hp : bioPending st.recvBuf ≠ 0)
    (hst : st.state ≠ .reset) : ((streamRead id 0).exec s).1 = .abort := by
  have hnone : toInt32 (st.recvBuf.take 0).length = 0 := by
    rw [List.take_zero]
    exact toInt32_eq (by decide)
  simp only [streamRead, exec_bind, exec_streamReadClosed_data h hp hst, andThen_ret,
    exec_readStream h, if_neg hp, exec_onStream h, Stream.take, hnone, exec_check]
  rfl

/-- Reading takes bytes from the front of the buffer, clears the readable mark
with the last of them, and may announce credit. -/
theorem exec_streamRead_data (h : s.streams id = some st) {size : Nat} (hsize : 0 < size)
    (hne : st.recvBuf ≠ []) (hlen : st.recvBuf.length < 2 ^ 31) (hst : st.state ≠ .reset) :
    (streamRead id size).exec s =
      (.ret (((st.recvBuf.take size).length : Int), st.recvBuf.take size),
        s.updateWindow id (st.afterTake size)) := by
  have hp : bioPending st.recvBuf ≠ 0 := by rwa [ne_eq, bioPending_eq_zero hlen]
  have hc := exec_streamReadClosed_data h hp hst
  have hpos : 0 < (st.recvBuf.take size).length := by
    have := List.length_pos_of_ne_nil hne
    rw [List.length_take]
    omega
  have hr : toInt32 (st.recvBuf.take size).length = (st.recvBuf.take size).length :=
    toInt32_eq (by rw [List.length_take]; omega)
  have hd : bioPending (st.recvBuf.drop size) = 0 ↔ st.recvBuf.drop size = [] :=
    bioPending_eq_zero (by rw [List.length_drop]; omega)
  let st₁ : Stream := { st with recvBuf := st.recvBuf.drop size }
  have htake : (onStream [.recv id] id (Stream.take size)).exec s =
      (.ret ((st.recvBuf.take size).length, st.recvBuf.take size,
        bioPending (st.recvBuf.drop size)), s.setStream id st₁) := by
    rw [exec_onStream h]
    simp only [Stream.take, hr, st₁]
  have hwait : (if bioPending (st.recvBuf.drop size) = 0 then streamReadableWaiting id
      else pure 0 : Op Int).exec (s.setStream id st₁) =
      (.ret 0, s.setStream id (st.afterTake size)) := by
    by_cases he : st.recvBuf.drop size = []
    · rw [if_pos (hd.mpr he), exec_streamReadableWaiting (s.setStream_same id st₁),
        Session.setStream_setStream, Stream.afterTake, if_pos he]
    · rw [if_neg (mt hd.mp he), exec_pure, Stream.afterTake, if_neg he]
  simp only [streamRead, exec_bind, hc, andThen_ret, exec_readStream h, if_neg hp, htake,
    exec_check]
  have hcheck : decide (0 < ((st.recvBuf.take size).length : Int)) = true :=
    decide_eq_true (Int.natCast_pos.mpr hpos)
  simp only [hcheck, if_true, andThen_ret, hwait, ne_eq, not_true_eq_false, if_false, exec_bind,
    exec_sendWindowUpdate (s.setStream_same id (st.afterTake size)), exec_pure,
    Session.setStream_updateWindow]

/-! ## Writing -/

/-- Writing to a closed stream does nothing. -/
theorem exec_streamWrite_closed (h : s.streams id = some st) (data : Bytes)
    (hst : st.state = .localClose ∨ st.state = .closed ∨ st.state = .reset) :
    (streamWrite id data).exec s = (.ret 0, s) := by
  rcases hst with hst | hst | hst <;> simp [streamWrite, exec_readStream h, hst]

/-- With no window left a write fails or blocks, and nothing changes. -/
theorem exec_streamWrite_wait (h : s.streams id = some st) (data : Bytes)
    (hst : st.state ≠ .localClose ∧ st.state ≠ .closed ∧ st.state ≠ .reset)
    (hw : st.sendWindow = 0) :
    (streamWrite id data).exec s = (if st.nonblock then .ret (-1) else .hang, s) := by
  cases hst' : st.state <;> simp_all [streamWrite, exec_readStream h] <;>
    cases st.nonblock <;> simp <;> split <;> rfl

/-- The effect of a write on the stream: the handshake flag is used up, the
payload is taken off the window, and an empty window clears the writeable mark. -/
def Stream.afterWrite (st : Stream) (n : Nat) : Stream :=
  let max := writeMax st.sendWindow n
  { st.sendFlags.2 with
    sendWindow := st.sendWindow - max
    writeable := if st.sendWindow - max = 0 then false else st.writeable }

/-- The frame that a write queues. -/
def Stream.writeFrame (st : Stream) (id : UInt32) (data : Bytes) : Bytes :=
  let max := writeMax st.sendWindow data.length
  hdrEncode TYPE_DATA st.sendFlags.1 id max ++ data.take max.toNat

theorem Stream.sendFlags_sendWindow (st : Stream) : st.sendFlags.2.sendWindow = st.sendWindow := by
  unfold Stream.sendFlags
  split <;> rfl

theorem Stream.sendFlags_writeable (st : Stream) : st.sendFlags.2.writeable = st.writeable := by
  unfold Stream.sendFlags
  split <;> rfl

theorem exec_streamWriteDebit (h : s.streams id = some st) (max : UInt32) :
    (streamWriteDebit id max).exec s = (.ret (toInt32 max.toNat), s.setStream id
      { st with
        sendWindow := st.sendWindow - max
        writeable := if st.sendWindow - max = 0 then false else st.writeable }) := by
  unfold streamWriteDebit
  rw [exec_bind, exec_onStream h, andThen_ret]
  by_cases hz : st.sendWindow - max = 0
  · simp [hz, exec_streamWriteableWaiting (s.setStream_same id _)]
  · simp [hz]

theorem toInt32_ne_neg_one {n : Nat} (h : n < 2 ^ 31) : toInt32 n ≠ -1 := by
  rw [toInt32_eq h]
  omega

theorem writeMax_le (window : UInt32) (n : Nat) : (writeMax window n).toNat ≤ n := by
  unfold writeMax
  split
  · omega
  · rw [UInt32.toNat_ofNat']
    exact Nat.mod_le _ _

theorem writeMax_eq (window : UInt32) (n : Nat) :
    (writeMax window n).toNat = min window.toNat n := by
  unfold writeMax
  have := window.toNat_lt
  split
  · omega
  · rw [UInt32.toNat_ofNat', Nat.mod_eq_of_lt (by omega)]
    omega

theorem exec_streamWriteFrame (h : s.streams id = some st) (data : Bytes)
    (hlen : (writeMax st.sendWindow data.length).toNat < 2 ^ 31) :
    (streamWriteFrame id data st.sendWindow).exec s =
      (.ret ((writeMax st.sendWindow data.length).toNat : Int),
        (s.setStream id (st.afterWrite data.length)).queue (st.writeFrame id data)) := by
  have hne : toInt32 (data.take (writeMax st.sendWindow data.length).toNat).length ≠ -1 := by
    apply toInt32_ne_neg_one
    rw [List.length_take]
    omega
  have hpay (t : Session) : (sessionSendBufWrite
      (data.take (writeMax st.sendWindow data.length).toNat)).exec t =
      (.ret 0, t.queue (data.take (writeMax st.sendWindow data.length).toNat)) := by
    rw [exec_sessionSendBufWrite, if_neg hne]
  have hz : ¬ (0 : Int) = -1 := by decide
  have hstream : (((s.setStream id st.sendFlags.2).queue (hdrEncode TYPE_DATA st.sendFlags.1 id
      (writeMax st.sendWindow data.length))).queue
      (data.take (writeMax st.sendWindow data.length).toNat)).streams id =
      some st.sendFlags.2 := s.setStream_same id _
  unfold streamWriteFrame
  rw [exec_bind, exec_streamSendFlags h, andThen_ret, exec_bind, exec_sendHeader, andThen_ret,
    if_neg hz, exec_bind, hpay, andThen_ret, if_neg hz, exec_streamWriteDebit hstream,
    toInt32_eq hlen, Stream.sendFlags_sendWindow, Stream.sendFlags_writeable]
  simp [Stream.afterWrite, Stream.writeFrame, Session.queue, Session.setStream]

/-- A write sends as much as the window allows, in one frame. -/
theorem exec_streamWrite_data (h : s.streams id = some st) (data : Bytes)
    (hst : st.state ≠ .localClose ∧ st.state ≠ .closed ∧ st.state ≠ .reset)
    (hw : st.sendWindow ≠ 0) (hlen : (writeMax st.sendWindow data.length).toNat < 2 ^ 31) :
    (streamWrite id data).exec s =
      (.ret ((writeMax st.sendWindow data.length).toNat : Int),
        (s.setStream id (st.afterWrite data.length)).queue (st.writeFrame id data)) := by
  rw [← exec_streamWriteFrame h data hlen]
  cases hst' : st.state <;> simp_all [streamWrite, exec_readStream h]

end OneStream

end Yamux
