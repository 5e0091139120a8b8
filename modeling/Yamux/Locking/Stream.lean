import Yamux.Native.Stream

/-!
# Stream operations, mutex by mutex

The functions of `mux.c` on one stream once more, with every mutex taken and given back
where the source does so, on each way out of a function. The system calls are made where
the source makes them, inside the critical sections. An access between two mutex
operations is one action that needs no mutex.
-/

namespace Yamux.Locking

open Core Prog

/-! ## The stream tree -/

/-- `session_insert_stream`. -/
def sessionInsertStream (id : UInt32) (st : Stream) : Op Unit := do
  acquire .streams
  let fresh ← crit [] fun s =>
    if (s.streams id).isSome then (false, s) else (true, s.setStream id st)
  check fresh
  release .streams

/-- `session_remove_stream`. The source dereferences what it found. -/
def sessionRemoveStream (id : UInt32) : Op Unit := do
  acquire .streams
  let found ← crit [] fun s =>
    ((s.streams id).isSome, { s with streams := Function.update s.streams id none })
  check found
  release .streams

/-- `session_find_stream`: whether the tree has a stream with this id. -/
def sessionFindStream (id : UInt32) : Op Bool := do
  acquire .streams
  let found ← read [] fun s => (s.streams id).isSome
  release .streams
  pure found

/-! ## Readiness of the public descriptor -/

/-- The memory for the padding, which only a long one needs. -/
def paddingBuf (padding : UInt32) : Op Bool :=
  if 4096 < padding then query .alloc else pure true

/-- `stream_writeable_notify`: drain the padding out of the socket pair. -/
def streamWriteableNotify (id : UInt32) : Op Int := do
  acquire (.send id)
  let writeable ← readStream [] id Stream.writeable
  if writeable then do
    release (.send id)
    pure 0
  else do
    let padding ← readStream [] id Stream.sendPadding
    let mem ← paddingBuf padding
    if mem then do
      let io ← query .sock
      if io then do
        modifyStream [] id fun st => { st with writeable := true }
        release (.send id)
        pure 0
      else do
        release (.send id)
        pure (-1)
    else do
      release (.send id)
      pure (-1)

/-- `stream_writeable_waiting`: fill the socket pair with padding. -/
def streamWriteableWaiting (id : UInt32) : Op Int := do
  acquire (.send id)
  let writeable ← readStream [] id Stream.writeable
  if writeable then do
    let padding ← readStream [] id Stream.sendPadding
    let mem ← paddingBuf padding
    if mem then do
      let io ← query .sock
      if io then do
        modifyStream [] id fun st => { st with writeable := false }
        release (.send id)
        pure 0
      else do
        release (.send id)
        pure (-1)
    else do
      release (.send id)
      pure (-1)
  else do
    release (.send id)
    pure 0

/-- `stream_readable_notify`: put one byte into the socket pair. -/
def streamReadableNotify (id : UInt32) : Op Int := do
  acquire (.recv id)
  let readable ← readStream [] id Stream.readable
  if readable then do
    release (.recv id)
    pure 0
  else do
    let io ← query .sock
    if io then do
      modifyStream [] id fun st => { st with readable := true }
      release (.recv id)
      pure 0
    else do
      release (.recv id)
      pure (-1)

/-- `stream_readable_waiting`: take that byte out again. -/
def streamReadableWaiting (id : UInt32) : Op Int := do
  acquire (.recv id)
  let readable ← readStream [] id Stream.readable
  if readable then do
    let io ← query .sock
    if io then do
      modifyStream [] id fun st => { st with readable := false }
      release (.recv id)
      pure 0
    else do
      release (.recv id)
      pure (-1)
  else do
    release (.recv id)
    pure 0

/-- `stream_notify_waiting`. -/
def streamNotifyWaiting (id : UInt32) : Op Unit := do
  let _ ← streamWriteableNotify id
  let _ ← streamReadableNotify id
  pure ()

/-! ## Creation and removal -/

/-- `stream_new` with `stream_setup_fd`: whether a stream was created. -/
def streamNew (id : UInt32) (state : StreamState) : Op Bool := do
  let stream ← query .alloc
  if stream then do
    let bio ← query .alloc
    if bio then do
      let pair ← query .sock
      if pair then do
        let setup ← query .sock
        if setup then do
          let padding ← read [] Session.rcvbuf
          sessionInsertStream id (Stream.fresh state padding)
          pure true
        else pure false
      else pure false
    else pure false
  else pure false

/-- `stream_free`. -/
def streamFree (id : UInt32) : Op Unit := sessionRemoveStream id

/-! ## Flags of incoming frames -/

/-- The FIN part of `stream_process_flags`: whether the frame may go on. -/
def streamProcessFin (id : UInt32) (flags : UInt16) : Op Bool :=
  if hasFlag flags FLAG_FIN then do
    let state ← readStream [] id Stream.state
    match state with
    | .synSent | .synReceived | .established => do
      modifyStream [] id fun st => { st with state := .remoteClose }
      streamNotifyWaiting id
      pure true
    | .localClose => do
      modifyStream [] id fun st => { st with state := .closed }
      streamNotifyWaiting id
      pure true
    | _ => pure false
  else pure true

/-- The RST part of `stream_process_flags`. -/
def streamProcessRst (id : UInt32) (flags : UInt16) : Op Unit :=
  if hasFlag flags FLAG_RST then do
    modifyStream [] id fun st => { st with state := .reset }
    streamNotifyWaiting id
  else pure ()

/-- `stream_process_flags`, which holds the state mutex while it notifies. -/
def streamProcessFlags (id : UInt32) (flags : UInt16) : Op Int := do
  acquire (.state id)
  streamProcessAck id flags
  let legal ← streamProcessFin id flags
  if legal then do
    streamProcessRst id flags
    release (.state id)
    pure 0
  else do
    release (.state id)
    pure (-1)

/-! ## Queueing frames -/

/-- `session_send_buf_write`. -/
def sessionSendBufWrite (data : Bytes) : Op Int := do
  acquire .sessionSend
  let (r, written) ← bioWrite data
  modify [] fun s => { s with sendBuf := s.sendBuf ++ written }
  release .sessionSend
  pure (if r = -1 then -1 else 0)

/-- `session_go_away_for_reason`. -/
def sessionGoAwayForReason (reason : UInt32) : Op Int := do
  modify [] fun s => { s with localGoAway := true }
  let r ← sessionSendBufWrite (hdrEncode TYPE_GO_AWAY 0 0 reason)
  pure (if r ≠ 0 then -1 else 0)

/-- `stream_send_flags`. -/
def streamSendFlags (id : UInt32) : Op UInt16 := do
  acquire (.state id)
  let flags ← onStream [] id Stream.sendFlags
  release (.state id)
  pure flags

/-- `send_window_update`. -/
def sendWindowUpdate (id : UInt32) : Op Int := do
  let flags ← streamSendFlags id
  acquire (.recv id)
  let delta ← onStream [] id (Stream.grant flags)
  match delta with
  | none => do
    release (.recv id)
    pure 0
  | some delta => do
    release (.recv id)
    let r ← sessionSendBufWrite (hdrEncode TYPE_WINDOW_UPDATE flags id delta)
    pure (if r ≠ 0 then -1 else 0)

/-! ## Reading and writing -/

/-- What `stream_read` returns early for: end of file once the buffer of a closed
stream is empty, and failure on a reset stream. -/
def streamReadClosed (id : UInt32) : Op (Option Int) := do
  acquire (.state id)
  let state ← readStream [] id Stream.state
  match state with
  | .localClose | .remoteClose | .closed => do
    acquire (.recv id)
    let pending ← readStream [] id fun st => bioPending st.recvBuf
    if pending = 0 then do
      release (.recv id)
      release (.state id)
      pure (some 0)
    else do
      release (.recv id)
      release (.state id)
      pure none
  | .reset => do
    release (.state id)
    pure (some (-1))
  | _ => do
    release (.state id)
    pure none

/-- `bio_pending` of a stream, under its receive mutex. -/
def streamPending (id : UInt32) : Op Int := do
  acquire (.recv id)
  let r ← readStream [] id fun st => bioPending st.recvBuf
  release (.recv id)
  pure r

/-- The critical section of `stream_read` that takes bytes out of the buffer, with the
assertion inside it. -/
def streamTake (id : UInt32) (size : Nat) : Op (Int × Bytes × Int) := do
  acquire (.recv id)
  let taken ← onStream [] id (Stream.take size)
  check (0 < taken.1)
  release (.recv id)
  pure taken

/-- `stream_read`: the result and the bytes stored in the caller's buffer. -/
def streamRead (id : UInt32) (size : Nat) : Op (Int × Bytes) := do
  match ← streamReadClosed id with
  | some r => pure (r, [])
  | none => do
    let r ← streamPending id
    if r = 0 then do
      if ← readStream [] id Stream.nonblock then pure (-1, [])
      else do
        let selected ← query .sock
        if selected then do
          await fun s => (s.streams id).any Stream.readable
          again
        else pure (-1, [])
    else do
      let (r, bytes, pending) ← streamTake id size
      let waiting ← (if pending = 0 then streamReadableWaiting id else pure 0)
      if waiting ≠ 0 then pure (-1, bytes)
      else do
        let _ ← sendWindowUpdate id
        pure (r, bytes)

/-- The first part of `stream_write`: whether the state of the stream lets it write. -/
def streamWriteClosed (id : UInt32) : Op Bool := do
  acquire (.state id)
  let state ← readStream [] id Stream.state
  match state with
  | .localClose | .closed | .reset => do
    release (.state id)
    pure true
  | _ => do
    release (.state id)
    pure false

/-- The send window of a stream, under its send mutex. -/
def streamWindow (id : UInt32) : Op UInt32 := do
  acquire (.send id)
  let window ← readStream [] id Stream.sendWindow
  release (.send id)
  pure window

/-- The last part of `stream_write`: take the payload off the window. -/
def streamWriteDebit (id : UInt32) (max : UInt32) : Op Int := do
  acquire (.send id)
  let window ← onStream [] id fun st =>
    (st.sendWindow - max, { st with sendWindow := st.sendWindow - max })
  release (.send id)
  let waiting ← (if window = 0 then streamWriteableWaiting id else pure 0)
  if waiting ≠ 0 then
    let _ ← sessionGoAwayForReason GO_AWAY_INTERNAL_ERR
  pure (toInt32 max.toNat)

/-- The middle part of `stream_write`, with a window that is not zero: queue the
header and the payload. -/
def streamWriteFrame (id : UInt32) (data : Bytes) (window : UInt32) : Op Int := do
  let flags ← streamSendFlags id
  let max := writeMax window data.length
  let r ← sessionSendBufWrite (hdrEncode TYPE_DATA flags id max)
  if r = -1 then pure (-1)
  else do
    let r ← sessionSendBufWrite (data.take max.toNat)
    if r = -1 then pure (-1) else streamWriteDebit id max

/-- `stream_write`. -/
def streamWrite (id : UInt32) (data : Bytes) : Op Int := do
  let closed ← streamWriteClosed id
  if closed then pure 0
  else do
    let window ← streamWindow id
    if window = 0 then do
      if ← readStream [] id Stream.nonblock then pure (-1)
      else do
        let selected ← query .sock
        if selected then do
          await fun s => (s.streams id).any Stream.writeable
          again
        else pure (-1)
    else streamWriteFrame id data window

end Yamux.Locking
