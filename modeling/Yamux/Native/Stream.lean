import Yamux.Native.State

/-!
# Stream operations

The functions of `mux.c` that work on one stream, up to `stream_read` and
`stream_write`. Each critical section is one action under the mutex that guards
it; the outcome of a system call is asked for just before the section that makes
the call. A function returns the `int` of the source.
-/

namespace Yamux

open Core Prog

/-! ## The stream tree -/

/-- `session_insert_stream`. -/
def sessionInsertStream (id : UInt32) (st : Stream) : Op Unit := do
  let fresh ← crit [.streams] fun s =>
    if (s.streams id).isSome then (false, s) else (true, s.setStream id st)
  check fresh

/-- `session_remove_stream`. The source dereferences what it found. -/
def sessionRemoveStream (id : UInt32) : Op Unit := do
  let found ← crit [.streams] fun s =>
    ((s.streams id).isSome, { s with streams := Function.update s.streams id none })
  check found

/-- `session_find_stream`: whether the tree has a stream with this id. -/
def sessionFindStream (id : UInt32) : Op Bool :=
  read [.streams] fun s => (s.streams id).isSome

/-! ## Readiness of the public descriptor -/

/-- `stream_writeable_notify`: drain the padding out of the socket pair. -/
def streamWriteableNotify (id : UInt32) : Op Int := do
  let mem ← query .alloc
  let io ← query .sock
  onStream [.send id] id fun st =>
    if st.writeable then (0, st)
    else if 4096 < st.sendPadding ∧ ¬ mem then (-1, st)
    else if ¬ io then (-1, st)
    else (0, { st with writeable := true })

/-- `stream_writeable_waiting`: fill the socket pair with padding. -/
def streamWriteableWaiting (id : UInt32) : Op Int := do
  let mem ← query .alloc
  let io ← query .sock
  onStream [.send id] id fun st =>
    if st.writeable then
      if 4096 < st.sendPadding ∧ ¬ mem then (-1, st)
      else if ¬ io then (-1, st)
      else (0, { st with writeable := false })
    else (0, st)

/-- `stream_readable_notify`: put one byte into the socket pair. -/
def streamReadableNotify (id : UInt32) : Op Int := do
  let io ← query .sock
  onStream [.recv id] id fun st =>
    if st.readable then (0, st)
    else if ¬ io then (-1, st)
    else (0, { st with readable := true })

/-- `stream_readable_waiting`: take that byte out again. -/
def streamReadableWaiting (id : UInt32) : Op Int := do
  let io ← query .sock
  onStream [.recv id] id fun st =>
    if st.readable then
      if ¬ io then (-1, st) else (0, { st with readable := false })
    else (0, st)

/-- `stream_notify_waiting`. -/
def streamNotifyWaiting (id : UInt32) : Op Unit := do
  let _ ← streamWriteableNotify id
  let _ ← streamReadableNotify id
  pure ()

/-! ## Creation and removal -/

/-- `stream_new` with `stream_setup_fd`: whether a stream was created. -/
def streamNew (id : UInt32) (state : StreamState) : Op Bool := do
  let stream ← query .alloc
  let bio ← query .alloc
  let pair ← query .sock
  let setup ← query .sock
  if stream && bio && pair && setup then do
    let padding ← read [] Session.rcvbuf
    sessionInsertStream id (Stream.fresh state padding)
    pure true
  else pure false

/-- `stream_free`. -/
def streamFree (id : UInt32) : Op Unit := sessionRemoveStream id

/-! ## Flags of incoming frames -/

/-- Whether a flag is set. -/
def hasFlag (flags flag : UInt16) : Bool := flags &&& flag != 0

/-- The ACK part of `stream_process_flags`. -/
def streamProcessAck (id : UInt32) (flags : UInt16) : Op Unit :=
  if hasFlag flags FLAG_ACK then
    modifyStream [] id fun st =>
      if st.state = .synSent then { st with state := .established } else st
  else pure ()

/-- The FIN part of `stream_process_flags`: whether the frame may go on. -/
def streamProcessFin (id : UInt32) (flags : UInt16) : Op Bool :=
  if hasFlag flags FLAG_FIN then do
    let state ← readStream [] id Stream.state
    match state with
    | .synSent | .synReceived | .established => do
      modifyStream [] id fun st => { st with state := .remoteClose }
      streamNotifyWaiting id
      pure true
    | .localClose => do
      modifyStream [] id fun st => { st with state := .closed }
      streamNotifyWaiting id
      pure true
    | _ => pure false
  else pure true

/-- The RST part of `stream_process_flags`. -/
def streamProcessRst (id : UInt32) (flags : UInt16) : Op Unit :=
  if hasFlag flags FLAG_RST then do
    modifyStream [] id fun st => { st with state := .reset }
    streamNotifyWaiting id
  else pure ()

/-- `stream_process_flags`, which holds the state mutex while it notifies. -/
def streamProcessFlags (id : UInt32) (flags : UInt16) : Op Int := do
  acquire (.state id)
  streamProcessAck id flags
  let legal ← streamProcessFin id flags
  if legal then do
    streamProcessRst id flags
    release (.state id)
    pure 0
  else do
    release (.state id)
    pure (-1)

/-! ## Queueing frames -/

/-- `session_send_buf_write`. -/
def sessionSendBufWrite (data : Bytes) : Op Int := do
  let (r, written) ← bioWrite data
  modify [.sessionSend] fun s => { s with sendBuf := s.sendBuf ++ written }
  pure (if r = -1 then -1 else 0)

/-- `session_go_away_for_reason`. -/
def sessionGoAwayForReason (reason : UInt32) : Op Int := do
  modify [] fun s => { s with localGoAway := true }
  let r ← sessionSendBufWrite (hdrEncode TYPE_GO_AWAY 0 0 reason)
  pure (if r ≠ 0 then -1 else 0)

/-- The switch of `stream_send_flags`. -/
def Stream.sendFlags (st : Stream) : UInt16 × Stream :=
  match st.state with
  | .init => (FLAG_SYN, { st with state := .synSent })
  | .synReceived => (FLAG_ACK, { st with state := .established })
  | _ => (0, st)

/-- `stream_send_flags`. -/
def streamSendFlags (id : UInt32) : Op UInt16 := onStream [.state id] id Stream.sendFlags

/-- The credit that reads have used up and no update has granted again. -/
def Stream.delta (st : Stream) : UInt32 :=
  (MAX_STREAM_WINDOW_SIZE - UInt32.ofInt (bioPending st.recvBuf)) - st.recvWindow

/-- The critical section of `send_window_update`: the credit to announce, if an
update is due. -/
def Stream.grant (flags : UInt16) (st : Stream) : Option UInt32 × Stream :=
  if st.delta < MAX_STREAM_WINDOW_SIZE / 2 ∧ flags = 0 then (none, st)
  else (some st.delta, { st with recvWindow := st.recvWindow + st.delta })

/-- `send_window_update`. -/
def sendWindowUpdate (id : UInt32) : Op Int := do
  let flags ← streamSendFlags id
  let delta ← onStream [.recv id] id (Stream.grant flags)
  match delta with
  | none => pure 0
  | some delta => do
    let r ← sessionSendBufWrite (hdrEncode TYPE_WINDOW_UPDATE flags id delta)
    pure (if r ≠ 0 then -1 else 0)

/-! ## Reading and writing -/

/-- What `stream_read` returns early for: end of file once the buffer of a closed
stream is empty, and failure on a reset stream. -/
def streamReadClosed (id : UInt32) : Op (Option Int) := do
  acquire (.state id)
  let state ← readStream [] id Stream.state
  let early ← (match state with
    | .localClose | .remoteClose | .closed => do
      let pending ← readStream [.recv id] id fun st => bioPending st.recvBuf
      pure (if pending = 0 then some 0 else none)
    | .reset => pure (some (-1))
    | _ => pure none)
  release (.state id)
  pure early

/-- The critical section of `stream_read` that takes bytes out of the buffer. -/
def Stream.take (size : Nat) (st : Stream) : (Int × Bytes × Int) × Stream :=
  let bytes := st.recvBuf.take size
  let rest := st.recvBuf.drop size
  ((toInt32 bytes.length, bytes, bioPending rest), { st with recvBuf := rest })

/-- `stream_read`: the result and the bytes stored in the caller's buffer. -/
def streamRead (id : UInt32) (size : Nat) : Op (Int × Bytes) := do
  match ← streamReadClosed id with
  | some r => pure (r, [])
  | none => do
    let r ← readStream [.recv id] id fun st => bioPending st.recvBuf
    if r = 0 then do
      if ← readStream [] id Stream.nonblock then pure (-1, [])
      else do
        let selected ← query .sock
        if selected then do
          await fun s => (s.streams id).any Stream.readable
          again
        else pure (-1, [])
    else do
      let (r, bytes, pending) ← onStream [.recv id] id (Stream.take size)
      check (0 < r)
      let waiting ← (if pending = 0 then streamReadableWaiting id else pure 0)
      if waiting ≠ 0 then pure (-1, bytes)
      else do
        let _ ← sendWindowUpdate id
        pure (r, bytes)

/-- The length of the DATA frame that `stream_write` sends: `MIN(window, n)`. -/
def writeMax (window : UInt32) (n : Nat) : UInt32 :=
  if window.toNat < n then window else UInt32.ofNat n

/-- The last part of `stream_write`: take the payload off the window. -/
def streamWriteDebit (id : UInt32) (max : UInt32) : Op Int := do
  let window ← onStream [.send id] id fun st =>
    (st.sendWindow - max, { st with sendWindow := st.sendWindow - max })
  let waiting ← (if window = 0 then streamWriteableWaiting id else pure 0)
  if waiting ≠ 0 then
    let _ ← sessionGoAwayForReason GO_AWAY_INTERNAL_ERR
  pure (toInt32 max.toNat)

/-- The middle part of `stream_write`, with a window that is not zero: queue the
header and the payload. -/
def streamWriteFrame (id : UInt32) (data : Bytes) (window : UInt32) : Op Int := do
  let flags ← streamSendFlags id
  let max := writeMax window data.length
  let r ← sessionSendBufWrite (hdrEncode TYPE_DATA flags id max)
  if r = -1 then pure (-1)
  else do
    let r ← sessionSendBufWrite (data.take max.toNat)
    if r = -1 then pure (-1) else streamWriteDebit id max

/-- `stream_write`. -/
def streamWrite (id : UInt32) (data : Bytes) : Op Int := do
  let state ← readStream [.state id] id Stream.state
  match state with
  | .localClose | .closed | .reset => pure 0
  | _ => do
    let window ← readStream [.send id] id Stream.sendWindow
    if window = 0 then do
      if ← readStream [] id Stream.nonblock then pure (-1)
      else do
        let selected ← query .sock
        if selected then do
          await fun s => (s.streams id).any Stream.writeable
          again
        else pure (-1)
    else streamWriteFrame id data window

end Yamux
