import Yamux.Native.Stream

/-!
# Session operations

The receive path from `session_process` down to the handlers of the four frame
types, and the operations of an application and of a transport on a session.
`session_process` holds the receive mutex of the session throughout, so the parts
of the session that only it touches are used without a further mutex.
-/

namespace Yamux

open Core Prog

/-! ## Incoming streams -/

/-- `notify_accept`. -/
def notifyAccept (id : UInt32) : Op Int := do
  let io ← query .sock
  if io then do
    modify [] fun s => { s with accepts := s.accepts ++ [id] }
    pure 0
  else do
    let _ ← sessionGoAwayForReason GO_AWAY_INTERNAL_ERR
    pure (-1)

/-- `incoming_stream`. -/
def incomingStream : Op Int := do
  let newFrame ← read [] Session.newFrame
  check newFrame
  let id ← read [] fun s => hdrStreamId s.hdr
  let leaving ← read [] Session.localGoAway
  if leaving then do
    let r ← sessionSendBufWrite (hdrEncode TYPE_WINDOW_UPDATE FLAG_RST id 0)
    pure (if r ≠ 0 then -1 else 0)
  else do
    let known ← sessionFindStream id
    if known then do
      let _ ← sessionGoAwayForReason GO_AWAY_PROTO_ERR
      pure (-1)
    else do
      let created ← streamNew id .synReceived
      if created then do
        let r ← notifyAccept id
        if r ≠ 0 then streamFree id
        pure 0
      else do
        let _ ← sessionGoAwayForReason GO_AWAY_INTERNAL_ERR
        pure (-1)

/-! ## DATA frames -/

/-- The size of the slices in which `session_handle_data` moves a payload. -/
def sliceSize : Nat := 4096

/-- The part of the payload loop for a live stream: copy a slice to the stream,
take it off the window, and wake readers. `some` is the number of bytes moved. -/
def deliverSlice (id : UInt32) (size : Nat) : Op (Option Nat) := do
  let slice ← read [] fun s => s.recvBuf.take size
  check (0 < toInt32 slice.length)
  acquire (.recv id)
  let (r, written) ← bioWrite slice
  modifyStream [] id fun st =>
    { st with
      recvBuf := st.recvBuf ++ written
      recvWindow := if r = -1 then st.recvWindow
        else st.recvWindow - UInt32.ofNat slice.length }
  if r = -1 then do
    let _ ← sessionGoAwayForReason GO_AWAY_INTERNAL_ERR
    release (.recv id)
    pure none
  else do
    release (.recv id)
    let woken ← streamReadableNotify id
    if woken ≠ 0 then do
      let _ ← sessionGoAwayForReason GO_AWAY_INTERNAL_ERR
      pure none
    else pure (some slice.length)

/-- One round of the payload loop of `session_handle_data`. It exits with 0 at
the end of the payload or of the buffered input, and with -1 on failure. -/
def payloadRound (id : UInt32) (live : Bool) : Op (Option Int) := do
  let remain ← read [] Session.frameRemain
  let pending ← read [] fun s => bioPending s.recvBuf
  if remain = 0 ∨ pending = 0 then pure (some 0)
  else do
    let size := min remain.toNat sliceSize
    let moved ← (if live then deliverSlice id size else pure (some size))
    match moved with
    | none => pure (some (-1))
    | some r => do
      modify [] fun s =>
        { s with
          recvBuf := s.recvBuf.drop r
          frameRemain := s.frameRemain - UInt32.ofNat r }
      pure none

/-- The payload part of `session_handle_data`. A round that goes on shortens the
frame, so it needs no more rounds than the frame has bytes left. -/
def handlePayload (id : UInt32) (live : Bool) : Op Int := do
  let remain ← read [] Session.frameRemain
  let r ← loop (remain.toNat + 1) (payloadRound id live)
  if r ≠ 0 then pure (-1)
  else do
    modify [] fun s => { s with newFrame := if s.frameRemain = 0 then true else s.newFrame }
    pure 0

/-- Go over to the payload of a frame. -/
def startPayload (id : UInt32) (live : Bool) (len : UInt32) : Op Int := do
  modify [] fun s => { s with frameRemain := len, newFrame := false }
  handlePayload id live

/-- `session_handle_data` on a new frame, after its SYN flag was dealt with. -/
def handleDataHeader : Op Int := do
  let hdr ← read [] Session.hdr
  let id := hdrStreamId hdr
  let len := hdrLength hdr
  let live ← sessionFindStream id
  if live then do
    let r ← streamProcessFlags id (hdrFlags hdr)
    if r ≠ 0 then do
      let _ ← sessionGoAwayForReason GO_AWAY_PROTO_ERR
      pure (-1)
    else if len = 0 then pure 0
    else do
      acquire (.recv id)
      let window ← readStream [] id Stream.recvWindow
      if window < len then do
        let _ ← sessionGoAwayForReason GO_AWAY_PROTO_ERR
        release (.recv id)
        pure (-1)
      else do
        release (.recv id)
        startPayload id live len
  else startPayload id live len

/-- `session_handle_data`. -/
def sessionHandleData : Op Int := do
  let newFrame ← read [] Session.newFrame
  let hdr ← read [] Session.hdr
  if newFrame then do
    let r ← (if hasFlag (hdrFlags hdr) FLAG_SYN then incomingStream else pure 0)
    if r ≠ 0 then pure (-1) else handleDataHeader
  else do
    let id := hdrStreamId hdr
    let live ← sessionFindStream id
    handlePayload id live

/-! ## The other frame types -/

/-- `session_handle_window_update`. -/
def sessionHandleWindowUpdate : Op Int := do
  let newFrame ← read [] Session.newFrame
  check newFrame
  let hdr ← read [] Session.hdr
  let r ← (if hasFlag (hdrFlags hdr) FLAG_SYN then incomingStream else pure 0)
  if r ≠ 0 then pure (-1)
  else do
    let id := hdrStreamId hdr
    let live ← sessionFindStream id
    if live then do
      let r ← streamProcessFlags id (hdrFlags hdr)
      if r ≠ 0 then do
        let _ ← sessionGoAwayForReason GO_AWAY_PROTO_ERR
        pure (-1)
      else if hdrLength hdr = 0 then pure 0
      else do
        modifyStream [.send id] id fun st =>
          { st with sendWindow := st.sendWindow + hdrLength hdr }
        let woken ← streamWriteableNotify id
        if woken ≠ 0 then do
          let _ ← sessionGoAwayForReason GO_AWAY_INTERNAL_ERR
          pure (-1)
        else pure 0
    else pure 0

/-- `session_handle_ping`. -/
def sessionHandlePing : Op Int := do
  let newFrame ← read [] Session.newFrame
  check newFrame
  let hdr ← read [] Session.hdr
  if hasFlag (hdrFlags hdr) FLAG_SYN then do
    let r ← sessionSendBufWrite (hdrEncode TYPE_PING FLAG_ACK 0 (hdrLength hdr))
    if r ≠ 0 then do
      let _ ← sessionGoAwayForReason GO_AWAY_INTERNAL_ERR
      pure (-1)
    else pure 0
  else pure 0

/-- `session_handle_go_away`. -/
def sessionHandleGoAway : Op Int := do
  let newFrame ← read [] Session.newFrame
  check newFrame
  let code ← read [] fun s => hdrLength s.hdr
  if code = GO_AWAY_NORMAL then do
    modify [] fun s => { s with remoteGoAway := true }
    pure 0
  else pure (-1)

/-- `session_handle`. -/
def sessionHandle : Op Int := do
  let type ← read [] fun s => hdrType s.hdr
  if type = TYPE_DATA then sessionHandleData
  else if type = TYPE_WINDOW_UPDATE then sessionHandleWindowUpdate
  else if type = TYPE_PING then sessionHandlePing
  else if type = TYPE_GO_AWAY then sessionHandleGoAway
  else pure (-1)

/-! ## The receive loop -/

/-- Read the header of a new frame and check its version. -/
def readHeader : Op Bool := do
  let hdr ← crit [] fun s =>
    (s.recvBuf.take hdrSize, { s with
      hdr := s.recvBuf.take hdrSize
      recvBuf := s.recvBuf.drop hdrSize })
  check (hdr.length = hdrSize)
  pure (hdrVersion hdr = VERSION)

/-- One round of the loop of `session_process`, which exits with its result. -/
def processRound : Op (Option Int) := do
  let pending ← read [] fun s => bioPending s.recvBuf
  let newFrame ← read [] Session.newFrame
  if pending = 0 then pure (some 0)
  else if newFrame ∧ pending < hdrSize then pure (some 0)
  else do
    let supported ← (if newFrame then readHeader else pure true)
    if supported then do
      let r ← sessionHandle
      pure (if r ≠ 0 then some (-1) else none)
    else pure (some (-1))

/-- `session_process`. A round that goes on shortens the input, so it needs no
more rounds than there are bytes. -/
def sessionProcess : Op Int := do
  acquire .sessionRecv
  let rounds ← read [] fun s => s.recvBuf.length + 1
  let r ← loop rounds processRound
  release .sessionRecv
  pure r

/-! ## Operations of the application and of the transport -/

/-- `session_go_away`. -/
def sessionGoAway : Op Int := sessionGoAwayForReason GO_AWAY_NORMAL

/-- `session_recv_buf_write`. -/
def sessionRecvBufWrite (data : Bytes) : Op Int := do
  let (r, written) ← bioWrite data
  modify [.sessionRecv] fun s => { s with recvBuf := s.recvBuf ++ written }
  pure r

/-- `session_send_buf_pending`. -/
def sessionSendBufPending : Op Int := read [.sessionSend] fun s => bioPending s.sendBuf

/-- `session_send_buf_peek`. -/
def sessionSendBufPeek (n : Nat) : Op (Int × Bytes) :=
  read [.sessionSend] fun s => (toInt32 (s.sendBuf.take n).length, s.sendBuf.take n)

/-- `session_send_buf_consume`. -/
def sessionSendBufConsume (n : Nat) : Op Int :=
  crit [.sessionSend] fun s =>
    (toInt32 (s.sendBuf.take n).length, { s with sendBuf := s.sendBuf.drop n })

/-- The loop of `session_open` that takes an id, at most `tries` rounds: a round
starts over when another thread has changed `next_id` in between. -/
def takeId (tries : Nat) : Op (Option UInt32) :=
  loop tries do
    let id ← read [] Session.nextId
    if 4294967295 ≤ id then pure (some none)
    else do
      let swapped ← crit [] fun s =>
        if s.nextId = id then (true, { s with nextId := id + 2 }) else (false, s)
      pure (if swapped then some (some id) else none)

/-- `session_open`: the id of the stream that was opened, if it was. -/
def sessionOpen (tries : Nat) : Op (Option UInt32) := do
  let leaving ← read [] Session.remoteGoAway
  if leaving then pure none
  else do
    match ← takeId tries with
    | none => pure none
    | some id => do
      let created ← streamNew id .init
      if created then do
        let r ← sendWindowUpdate id
        if r ≠ 0 then do
          streamFree id
          pure none
        else pure (some id)
      else pure none

/-- `session_accept`: the id of the accepted stream, if the call succeeded. -/
def sessionAccept : Op (Option UInt32) := do
  let io ← query .sock
  if io then do
    await fun s => ¬ s.accepts.isEmpty
    match ← crit [] fun s => (s.accepts.head?, { s with accepts := s.accepts.tail }) with
    | none => again
    | some id => do
      let live ← sessionFindStream id
      check live
      let r ← sendWindowUpdate id
      pure (if r ≠ 0 then none else some id)
  else do
    let _ ← sessionGoAwayForReason GO_AWAY_INTERNAL_ERR
    pure none

end Yamux
