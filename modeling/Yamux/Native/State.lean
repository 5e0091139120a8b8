import Yamux.Native.Header

/-!
# Streams and sessions

The records of `mux.h`. A stream is reached through its id, which is the key of
the stream tree; the two socket pairs are represented by what passes through
them: the readable and writeable marks of a stream, and the queue of ids that
wait for `session_accept`.
-/

namespace Yamux

open Core Prog

/-- The states of a stream, in the order of the source's enumeration. -/
inductive StreamState where
  | init
  | synSent
  | synReceived
  | established
  | localClose
  | remoteClose
  | closed
  | reset
  deriving DecidableEq, Repr

/-- `MAX_STREAM_WINDOW_SIZE`. -/
@[irreducible]
def MAX_STREAM_WINDOW_SIZE : UInt32 := 1024 * 256

/-- Two subtractions in a row are one. -/
theorem sub_ofNat_sub (x : UInt32) (n m : Nat) :
    x - UInt32.ofNat n - UInt32.ofNat m = x - UInt32.ofNat (n + m) := by
  rw [UInt32.ofNat_add]
  grind

/-- A subtraction that does not wrap. -/
theorem toNat_sub_ofNat {x : UInt32} {n : Nat} (h : n ≤ x.toNat) :
    (x - UInt32.ofNat n).toNat = x.toNat - n := by
  have hx := x.toNat_lt
  have hn : (UInt32.ofNat n).toNat = n := by
    rw [UInt32.toNat_ofNat', Nat.mod_eq_of_lt (by omega)]
  rw [UInt32.toNat_sub_of_le _ _ (by rw [UInt32.le_iff_toNat_le, hn]; exact h), hn]

/-- `stream_t`. -/
structure Stream where
  state : StreamState
  /-- What `getsockopt(SO_RCVBUF)` reported for the private descriptor. -/
  sendPadding : UInt32
  recvWindow : UInt32
  sendWindow : UInt32
  recvBuf : Bytes
  readable : Bool
  writeable : Bool
  /-- `O_NONBLOCK` on the public descriptor, which only the application sets. -/
  nonblock : Bool
  deriving DecidableEq, Repr

/-- The stream that `stream_new` fills in. -/
def Stream.fresh (state : StreamState) (padding : UInt32) : Stream where
  state := state
  sendPadding := padding
  recvWindow := MAX_STREAM_WINDOW_SIZE
  sendWindow := MAX_STREAM_WINDOW_SIZE
  recvBuf := []
  readable := false
  writeable := true
  nonblock := false

/-- `session_t`. -/
structure Session where
  remoteGoAway : Bool
  localGoAway : Bool
  nextId : UInt32
  newFrame : Bool
  frameRemain : UInt32
  recvBuf : Bytes
  sendBuf : Bytes
  streams : UInt32 → Option Stream
  hdr : Bytes
  /-- The ids in the socket pair of the session, oldest first. -/
  accepts : List UInt32
  /-- The receive buffer size that the kernel reports for a stream's socket. -/
  rcvbuf : UInt32

/-- The mutexes of a session and of its streams. -/
inductive Mutex where
  | sessionRecv
  | sessionSend
  | streams
  | state (id : UInt32)
  | recv (id : UInt32)
  | send (id : UInt32)
  deriving DecidableEq, Repr

/-- The programs of `mux.c`. -/
abbrev Op := Prog Call Mutex Session

/-- `session_init`. -/
def sessionInit (client : Bool) (rcvbuf : UInt32) : Session where
  remoteGoAway := false
  localGoAway := false
  nextId := if client then 1 else 2
  newFrame := true
  frameRemain := 0
  recvBuf := []
  sendBuf := []
  streams := fun _ => none
  hdr := List.replicate hdrSize 0
  accepts := []
  rcvbuf := rcvbuf

namespace Session

/-- Put a stream into the tree under its id. -/
def setStream (s : Session) (id : UInt32) (st : Stream) : Session :=
  { s with streams := Function.update s.streams id (some st) }

section SetStream

variable (s : Session) (id : UInt32) (st st' : Stream)

@[simp] theorem setStream_same : (s.setStream id st).streams id = some st := by
  simp [setStream]

@[simp] theorem setStream_setStream :
    (s.setStream id st).setStream id st' = s.setStream id st' := by
  simp [setStream]

theorem setStream_of_ne {i : UInt32} (h : i ≠ id) :
    (s.setStream id st).streams i = s.streams i := by
  simp [setStream, h]

theorem setStream_streams (i : UInt32) :
    (s.setStream id st).streams i = if i = id then some st else s.streams i := by
  by_cases h : i = id
  · subst h
    simp
  · simp [h, setStream_of_ne]

theorem setStream_eq_self {s : Session} {id : UInt32} {st : Stream}
    (h : s.streams id = some st) : s.setStream id st = s := by
  simp [setStream, ← h]

@[simp] theorem setStream_remoteGoAway :
    (s.setStream id st).remoteGoAway = s.remoteGoAway := rfl
@[simp] theorem setStream_localGoAway : (s.setStream id st).localGoAway = s.localGoAway := rfl
@[simp] theorem setStream_nextId : (s.setStream id st).nextId = s.nextId := rfl
@[simp] theorem setStream_newFrame : (s.setStream id st).newFrame = s.newFrame := rfl
@[simp] theorem setStream_frameRemain : (s.setStream id st).frameRemain = s.frameRemain := rfl
@[simp] theorem setStream_recvBuf : (s.setStream id st).recvBuf = s.recvBuf := rfl
@[simp] theorem setStream_sendBuf : (s.setStream id st).sendBuf = s.sendBuf := rfl
@[simp] theorem setStream_hdr : (s.setStream id st).hdr = s.hdr := rfl
@[simp] theorem setStream_accepts : (s.setStream id st).accepts = s.accepts := rfl
@[simp] theorem setStream_rcvbuf : (s.setStream id st).rcvbuf = s.rcvbuf := rfl

end SetStream

end Session

/-- A critical section that works on one stream through its pointer. Using the
pointer of a stream that was freed is an error of the program. -/
def onStream {α : Type} (ms : List Mutex) (id : UInt32) (g : Stream → α × Stream) : Op α :=
  .act ms
    (fun s => match s.streams id with
      | some st => s.setStream id (g st).2
      | none => s)
    (fun s => match s.streams id with
      | some st => .ret (g st).1
      | none => .abort)

theorem exec_onStream {α : Type} {ms : List Mutex} {id : UInt32} {g : Stream → α × Stream}
    {s : Session} {st : Stream} (h : s.streams id = some st) :
    (onStream ms id g).exec s = (.ret (g st).1, s.setStream id (g st).2) := by
  simp [onStream, Prog.exec, h]

theorem run_onStream {α : Type} {ms : List Mutex} {id : UInt32} {g : Stream → α × Stream}
    {s : Session} {st : Stream} (ans : Answers Call) (h : s.streams id = some st) :
    (onStream ms id g).run ans s = (.ret (g st).1, ans, s.setStream id (g st).2) := by
  simp [onStream, Prog.run, h]

/-- Read a field of a stream. -/
def readStream {α : Type} (ms : List Mutex) (id : UInt32) (g : Stream → α) : Op α :=
  onStream ms id fun st => (g st, st)

theorem exec_readStream {α : Type} {ms : List Mutex} {id : UInt32} {g : Stream → α}
    {s : Session} {st : Stream} (h : s.streams id = some st) :
    (readStream ms id g).exec s = (.ret (g st), s) := by
  rw [readStream, exec_onStream h, Session.setStream_eq_self h]

theorem run_readStream {α : Type} {ms : List Mutex} {id : UInt32} {g : Stream → α}
    {s : Session} {st : Stream} (ans : Answers Call) (h : s.streams id = some st) :
    (readStream ms id g).run ans s = (.ret (g st), ans, s) := by
  rw [readStream, run_onStream ans h, Session.setStream_eq_self h]

/-- Update the fields of a stream. -/
def modifyStream (ms : List Mutex) (id : UInt32) (f : Stream → Stream) : Op Unit :=
  onStream ms id fun st => ((), f st)

theorem exec_modifyStream {ms : List Mutex} {id : UInt32} {f : Stream → Stream}
    {s : Session} {st : Stream} (h : s.streams id = some st) :
    (modifyStream ms id f).exec s = (.ret (), s.setStream id (f st)) :=
  exec_onStream h

/-! ## The session's and the streams' byte buffers -/

/-- `bio_pending` of a buffer with these bytes. -/
def bioPending (b : Bytes) : Int := toInt32 b.length

theorem bioPending_eq {b : Bytes} (h : b.length < 2 ^ 31) : bioPending b = b.length :=
  toInt32_eq h

@[simp] theorem bioPending_nil : bioPending [] = 0 := bioPending_eq (by decide)

theorem bioPending_eq_zero {b : Bytes} (h : b.length < 2 ^ 31) : bioPending b = 0 ↔ b = [] := by
  rw [bioPending_eq h, Nat.cast_eq_zero, List.length_eq_zero_iff]

/-- `bio_write` for a buffer that its caller holds: the result and the bytes
appended, fewer than asked for only when an allocation failed. -/
def bioWrite (buf : Bytes) : Op (Int × Bytes) := do
  let (done, nodes) ← Bio.writeNodes buf.length buf
  pure (if done then toInt32 buf.length else -1, nodes.flatten)

/-- Without failures all the bytes are appended. -/
@[simp] theorem exec_bioWrite (buf : Bytes) (s : Session) :
    (bioWrite buf).exec s = (.ret (toInt32 buf.length, buf), s) := by
  obtain ⟨nodes, he, hf⟩ := Bio.exec_writeNodes (μ := Mutex) buf s
  simp [bioWrite, he, hf]

end Yamux
