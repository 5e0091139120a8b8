import Yamux.Sequential.Receive

/-!
# The receive loop run alone

One round of the loop of `session_process` as a function of the session, and the
whole call as a sequence of rounds.
-/

namespace Yamux

open Core Prog

namespace Session

/-! ## Handlers -/

/-- Move what has arrived of the payload in progress. -/
def payload (s : Session) : Session :=
  match s.streams (hdrStreamId s.hdr) with
  | some st =>
    (s.deliver (hdrStreamId s.hdr) st (min s.frameRemain.toNat s.recvBuf.length)).closeFrame
  | none => (s.skip (skipped s.frameRemain.toNat s.recvBuf.length)).closeFrame

/-- Where a handler stands once it has dealt with the header: it has a result, or
the payload comes next. -/
inductive Entry where
  | done (r : Int) (t : Session)
  | payload (t : Session)

/-- The end of a handler. -/
def Entry.finish : Entry → Int × Session
  | .done r t => (r, t)
  | .payload t => (0, t.payload)

/-- Go over to the payload of a frame. -/
def beginFrame (s : Session) (len : UInt32) : Session :=
  { s with frameRemain := len, newFrame := false }

/-- A DATA header for a live stream whose flags were legal. -/
def admitData (s : Session) (len : UInt32) (st : Stream) : Entry :=
  let t := s.setStream (hdrStreamId s.hdr) st
  if len = 0 then .done 0 t
  else if st.recvWindow < len then .done (-1) (t.leave GO_AWAY_PROTO_ERR)
  else .payload (t.beginFrame len)

/-- A DATA header after its SYN flag. -/
def dataHeader (s : Session) : Entry :=
  match s.streams (hdrStreamId s.hdr) with
  | none => .payload (s.beginFrame (hdrLength s.hdr))
  | some st =>
    match st.processFlags (hdrFlags s.hdr) with
    | none => .done (-1) (s.leave GO_AWAY_PROTO_ERR)
    | some st' => s.admitData (hdrLength s.hdr) st'

/-- `session_handle_data`. -/
def handleData (s : Session) : Entry :=
  if s.newFrame then
    if s.syn.1 ≠ 0 then .done (-1) s.syn.2 else s.syn.2.dataHeader
  else .payload s

/-- Credit that a WINDOW_UPDATE grants. -/
def addCredit (s : Session) (id len : UInt32) (st : Stream) : Session :=
  s.setStream id (if len = 0 then st
    else { st with sendWindow := st.sendWindow + len, writeable := true })

/-- A WINDOW_UPDATE header after its SYN flag. -/
def updateHeader (s : Session) : Entry :=
  match s.streams (hdrStreamId s.hdr) with
  | none => .done 0 s
  | some st =>
    match st.processFlags (hdrFlags s.hdr) with
    | none => .done (-1) (s.leave GO_AWAY_PROTO_ERR)
    | some st' => .done 0 (s.addCredit (hdrStreamId s.hdr) (hdrLength s.hdr) st')

/-- `session_handle_window_update`. -/
def handleUpdate (s : Session) : Entry :=
  if s.syn.1 ≠ 0 then .done (-1) s.syn.2 else s.syn.2.updateHeader

/-- `session_handle_ping`. -/
def handlePing (s : Session) : Entry :=
  .done 0 (if hasFlag (hdrFlags s.hdr) FLAG_SYN then
    s.queue (hdrEncode TYPE_PING FLAG_ACK 0 (hdrLength s.hdr)) else s)

/-- `session_handle_go_away`. -/
def handleGoAway (s : Session) : Entry :=
  if hdrLength s.hdr = GO_AWAY_NORMAL then .done 0 { s with remoteGoAway := true }
  else .done (-1) s

/-- `session_handle`. -/
def handle (s : Session) : Entry :=
  if hdrType s.hdr = TYPE_DATA then s.handleData
  else if hdrType s.hdr = TYPE_WINDOW_UPDATE then s.handleUpdate
  else if hdrType s.hdr = TYPE_PING then s.handlePing
  else if hdrType s.hdr = TYPE_GO_AWAY then s.handleGoAway
  else .done (-1) s

@[simp] theorem syn_newFrame (s : Session) : s.syn.2.newFrame = s.newFrame := by
  unfold syn
  dsimp only
  split
  · split
    · rfl
    · split <;> rfl
  · rfl

@[simp] theorem syn_recvBuf (s : Session) : s.syn.2.recvBuf = s.recvBuf := by
  unfold syn
  dsimp only
  split
  · split
    · rfl
    · split <;> rfl
  · rfl

@[simp] theorem syn_hdr (s : Session) : s.syn.2.hdr = s.hdr := by
  unfold syn
  dsimp only
  split
  · split
    · rfl
    · split <;> rfl
  · rfl

end Session

open Session

variable {s : Session}

/-- What a program that ends like a handler leaves behind. -/
def ended (e : Entry) : Outcome Int × Session := (.ret e.finish.1, e.finish.2)

theorem ended_done (r : Int) (t : Session) : ended (.done r t) = (.ret r, t) := rfl

theorem ended_payload (t : Session) : ended (.payload t) = (.ret 0, t.payload) := rfl

theorem exec_handlePayload (hlen : s.recvBuf.length < 2 ^ 31) :
    (handlePayload (hdrStreamId s.hdr) (s.streams (hdrStreamId s.hdr)).isSome).exec s =
      ended (.payload s) := by
  rw [ended_payload, payload]
  cases h : s.streams (hdrStreamId s.hdr) with
  | none => rw [Option.isSome_none, exec_handlePayload_skip hlen]
  | some st => rw [Option.isSome_some, exec_handlePayload_live h hlen]

theorem exec_startPayload (len : UInt32) (hlen : s.recvBuf.length < 2 ^ 31) :
    (startPayload (hdrStreamId s.hdr) (s.streams (hdrStreamId s.hdr)).isSome len).exec s =
      ended (.payload (s.beginFrame len)) := by
  have h := exec_handlePayload (s := s.beginFrame len) hlen
  simp only [startPayload, exec_bind, exec_modify, andThen_ret]
  exact h

theorem exec_handleDataHeader (hlen : s.recvBuf.length < 2 ^ 31) :
    handleDataHeader.exec s = ended s.dataHeader := by
  have hz : ¬ ((0 : Int) ≠ 0) := by decide
  cases h : s.streams (hdrStreamId s.hdr) with
  | none =>
    have hp := exec_startPayload (hdrLength s.hdr) hlen
    rw [h, Option.isSome_none] at hp
    simp [handleDataHeader, sessionFindStream, h, hp, dataHeader]
  | some st =>
    have hf := exec_streamProcessFlags h (hdrFlags s.hdr)
    cases hst : st.processFlags (hdrFlags s.hdr) with
    | none =>
      rw [hst] at hf
      simp [handleDataHeader, sessionFindStream, h, hf, dataHeader, hst, ended_done]
    | some st' =>
      rw [hst] at hf
      have hp := exec_startPayload (s := s.setStream (hdrStreamId s.hdr) st')
        (hdrLength s.hdr) hlen
      rw [setStream_hdr, setStream_same, Option.isSome_some] at hp
      simp only [handleDataHeader, sessionFindStream, exec_bind, exec_read, andThen_ret, h,
        Option.isSome_some, if_true, hf, if_neg hz, dataHeader, hst, admitData]
      by_cases hl : hdrLength s.hdr = 0
      · simp only [if_pos hl, exec_pure, ended_done]
      · simp only [if_neg hl, exec_bind, exec_acquire, andThen_ret,
          exec_readStream (s.setStream_same _ st')]
        by_cases hw : st'.recvWindow < hdrLength s.hdr
        · simp only [if_pos hw, exec_bind, exec_sessionGoAwayForReason, andThen_ret,
            exec_release, exec_pure, ended_done]
        · simp only [if_neg hw, exec_bind, exec_release, andThen_ret, hp]

theorem exec_sessionHandleData (hlen : s.recvBuf.length < 2 ^ 31) :
    sessionHandleData.exec s = ended s.handleData := by
  cases hn : s.newFrame
  · have hp := exec_handlePayload hlen
    simp [sessionHandleData, sessionFindStream, hn, hp, handleData]
  · have hh := exec_handleDataHeader (s := s.syn.2) (by simpa using hlen)
    simp only [sessionHandleData, exec_bind, exec_read, andThen_ret, hn, if_true, exec_syn hn,
      handleData]
    by_cases hr : s.syn.1 ≠ 0
    · simp only [if_pos hr, exec_pure, ended_done]
    · simp only [if_neg hr, hh]

theorem exec_sessionHandleWindowUpdate (hn : s.newFrame = true) :
    sessionHandleWindowUpdate.exec s = ended s.handleUpdate := by
  have hz : ¬ ((0 : Int) ≠ 0) := by decide
  simp only [sessionHandleWindowUpdate, exec_bind, exec_read, andThen_ret, hn, exec_check,
    if_true, exec_syn hn, handleUpdate]
  by_cases hr : s.syn.1 ≠ 0
  · simp only [if_pos hr, exec_pure, ended_done]
  · simp only [if_neg hr, sessionFindStream, exec_bind, exec_read, andThen_ret, updateHeader,
      syn_hdr]
    cases h : s.syn.2.streams (hdrStreamId s.hdr) with
    | none => simp [ended_done]
    | some st =>
      have hf := exec_streamProcessFlags h (hdrFlags s.hdr)
      cases hst : st.processFlags (hdrFlags s.hdr) with
      | none =>
        rw [hst] at hf
        simp [hf, hst, ended_done]
      | some st' =>
        rw [hst] at hf
        simp only [Option.isSome_some, if_true, exec_bind, hf, andThen_ret, if_neg hz, hst,
          addCredit, ended_done]
        by_cases hl : hdrLength s.hdr = 0
        · simp only [if_pos hl, exec_pure]
        · simp only [if_neg hl, exec_bind, andThen_ret,
            exec_modifyStream (s.syn.2.setStream_same _ st'),
            exec_streamWriteableNotify (setStream_same _ _ _), if_neg hz, exec_pure,
            setStream_setStream]

theorem exec_sessionHandlePing (hn : s.newFrame = true) :
    sessionHandlePing.exec s = ended s.handlePing := by
  have hz : ¬ ((0 : Int) ≠ 0) := by decide
  simp only [sessionHandlePing, exec_bind, exec_read, andThen_ret, hn, exec_check, if_true,
    handlePing, ended_done]
  by_cases hs : hasFlag (hdrFlags s.hdr) FLAG_SYN = true
  · simp only [if_pos hs, exec_bind, exec_sendHeader, andThen_ret, if_neg hz, exec_pure]
  · simp only [if_neg hs, exec_pure]

theorem exec_sessionHandleGoAway (hn : s.newFrame = true) :
    sessionHandleGoAway.exec s = ended s.handleGoAway := by
  have hcheck : (check s.newFrame : Op Unit).exec s = (.ret (), s) := by simp [hn]
  simp only [sessionHandleGoAway, exec_bind, exec_read, andThen_ret, hcheck, handleGoAway]
  by_cases hc : hdrLength s.hdr = GO_AWAY_NORMAL
  · simp only [if_pos hc, exec_bind, exec_modify, andThen_ret, exec_pure, ended_done]
  · simp only [if_neg hc, exec_pure, ended_done]

/-- The handler of a frame, run alone. -/
theorem exec_sessionHandle (hlen : s.recvBuf.length < 2 ^ 31)
    (hok : s.newFrame = true ∨ hdrType s.hdr = TYPE_DATA) :
    sessionHandle.exec s = ended s.handle := by
  simp only [sessionHandle, exec_bind, exec_read, andThen_ret, handle]
  by_cases hd : hdrType s.hdr = TYPE_DATA
  · simp only [if_pos hd, exec_sessionHandleData hlen]
  · have hn := hok.resolve_right hd
    simp only [if_neg hd]
    by_cases hu : hdrType s.hdr = TYPE_WINDOW_UPDATE
    · simp only [if_pos hu, exec_sessionHandleWindowUpdate hn]
    · simp only [if_neg hu]
      by_cases hp : hdrType s.hdr = TYPE_PING
      · simp only [if_pos hp, exec_sessionHandlePing hn]
      · simp only [if_neg hp]
        by_cases hg : hdrType s.hdr = TYPE_GO_AWAY
        · simp only [if_pos hg, exec_sessionHandleGoAway hn]
        · simp only [if_neg hg, exec_pure, ended_done]

end Yamux
