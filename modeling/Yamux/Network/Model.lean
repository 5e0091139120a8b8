import Yamux.Core.Pipe
import Yamux.Network.Frames
import Yamux.Sequential.Window

/-!
# Two endpoints

A client session and a server session joined by two byte channels. Each endpoint
runs one operation at a time; operations of the two endpoints, and transport
moves of any number of bytes, follow each other in any order. Every direction of
every stream is a pipe of the two endpoints.
-/

namespace Yamux

open Core Prog

/-- The two ends of a connection. -/
inductive Side where
  | client
  | server
  deriving DecidableEq, Repr

namespace Side

def peer : Side → Side
  | client => server
  | server => client

@[simp] theorem peer_peer (x : Side) : x.peer.peer = x := by
  cases x <;> rfl

theorem peer_ne (x : Side) : x.peer ≠ x := by
  cases x <;> nofun

theorem eq_or_eq_peer (x y : Side) : y = x ∨ y = x.peer := by
  cases x <;> cases y <;> simp [peer]

/-- The first id that a side opens. -/
def base : Side → Nat
  | client => 1
  | server => 2

/-- The ids that a side opens. -/
def Owns (x : Side) (id : UInt32) : Prop := id.toNat % 2 = x.base % 2

theorem not_owns_of_peer {x : Side} {id : UInt32} (h : x.Owns id) : ¬ x.peer.Owns id := by
  cases x <;> simp only [Owns, base, peer] at h ⊢ <;> omega

end Side

/-- One end: its session, what it has sent that has not arrived, and a record of
what its application did. -/
structure Endpoint where
  session : Session
  wire : Bytes
  opens : Nat
  /-- The ids that `session_open` has returned. -/
  opened : List UInt32
  /-- For each stream, the bytes that `stream_write` has accepted. -/
  accepted : UInt32 → Bytes
  /-- For each stream, the bytes that `stream_read` has returned. -/
  returned : UInt32 → Bytes

abbrev Net := Side → Endpoint

/-- Two new sessions. -/
def Net.init (rcvbuf : Side → UInt32) : Net := fun x =>
  { session := sessionInit (x = .client) (rcvbuf x)
    wire := []
    opens := 0
    opened := []
    accepted := fun _ => []
    returned := fun _ => [] }

/-- What an endpoint does, or what the transport does with its bytes. -/
inductive Event where
  | openStream (x : Side) (tries : Nat)
  | acceptStream (x : Side)
  | write (x : Side) (id : UInt32) (data : Bytes)
  | read (x : Side) (id : UInt32) (size : Nat)
  /-- The application sets or clears `O_NONBLOCK` on the descriptor of a stream. -/
  | setNonblock (x : Side) (id : UInt32) (nonblock : Bool)
  /-- At most `n` bytes of the send buffer go to the channel. -/
  | send (x : Side) (n : Nat)
  /-- At most `n` bytes of the channel go to the receive buffer. -/
  | receive (x : Side) (n : Nat)
  | process (x : Side)

/-- What an operation returned and left behind; an operation that blocks for
ever, or fails an assertion, is no step of an endpoint. -/
def returnOf {α : Type} : Outcome α × Session → Option (α × Session)
  | (.ret a, s) => some (a, s)
  | _ => none

/-- `session_send_buf_peek`, and `session_send_buf_consume` of what it showed. -/
def transmit (n : Nat) : Op Bytes := do
  let (r, data) ← sessionSendBufPeek n
  let _ ← sessionSendBufConsume r.toNat
  pure (data.take r.toNat)

namespace Net

variable (n : Net)

/-- Change one endpoint. -/
def set (x : Side) (a : Endpoint) : Net := Function.update n x a

/-- Run an operation on the session of an endpoint. -/
def call {α : Type} (x : Side) (p : Op α) (log : α → Endpoint → Endpoint) : Option Net :=
  (returnOf (p.exec (n x).session)).map fun (a, s) =>
    n.set x (log a { n x with session := s })

/-- Append to the record for one stream. -/
def record (log : UInt32 → Bytes) (id : UInt32) (bytes : Bytes) : UInt32 → Bytes :=
  Function.update log id (log id ++ bytes)

/-- One step, if it is possible. There are fewer than `2 ^ 31 - 1` opens at each
end, and fewer than `2 ^ 31` bytes in each buffer of a session. -/
def step : Event → Net → Option Net
  | .openStream x tries, n =>
    if (n x).opens + 1 < 2 ^ 31 - 1 then
      n.call x (sessionOpen tries) fun r a =>
        { a with opens := a.opens + 1, opened := a.opened ++ r.toList }
    else none
  | .acceptStream x, n => n.call x sessionAccept fun _ a => a
  | .write x id data, n => n.call x (streamWrite id data) fun r a =>
      { a with accepted := record a.accepted id (data.take r.toNat) }
  | .read x id size, n =>
    if 0 < size then
      n.call x (streamRead id size) fun r a =>
        { a with returned := record a.returned id (r.2.take r.1.toNat) }
    else none
  | .setNonblock x id nonblock, n =>
    n.call x (modifyStream [] id fun st => { st with nonblock := nonblock }) fun _ a => a
  | .send x k, n =>
    if (n x).session.sendBuf.length < 2 ^ 31 then
      n.call x (transmit k) fun data a => { a with wire := a.wire ++ data }
    else none
  | .receive x k, n =>
    if ((n x).session.recvBuf ++ (n x.peer).wire.take k).length < 2 ^ 31 then
      (n.set x.peer { n x.peer with wire := (n x.peer).wire.drop k }).call x
        (sessionRecvBufWrite ((n x.peer).wire.take k)) fun _ a => a
    else none
  | .process x, n => n.call x sessionProcess fun _ a => a

/-- The states of all runs. -/
inductive Reachable (rcvbuf : Side → UInt32) : Net → Prop where
  | init : Reachable rcvbuf (init rcvbuf)
  | step {n n' : Net} (h : Reachable rcvbuf n) (e : Event) (he : step e n = some n') :
      Reachable rcvbuf n'

/-- The events of a list, one after the other, if they are possible. -/
def run (n : Net) : List Event → Option Net
  | [] => some n
  | e :: es => (step e n).bind fun n' => n'.run es

theorem Reachable.run {rcvbuf : Side → UInt32} {n n' : Net} (h : Reachable rcvbuf n)
    {es : List Event} (hes : n.run es = some n') : Reachable rcvbuf n' := by
  induction es generalizing n with
  | nil =>
    obtain rfl := Option.some.inj hes
    exact h
  | cons e es ih =>
    obtain ⟨m, hm, hrest⟩ := Option.bind_eq_some_iff.mp hes
    exact ih (h.step e hm) hrest

/-! ## What is on the way -/

/-- The bytes from `x` to its peer that have not been processed. -/
def inFlight (x : Side) : Bytes :=
  (n x.peer).session.recvBuf ++ (n x).wire ++ (n x).session.sendBuf

/-- The part of them that ends the frame in progress at the receiver. -/
def partFrame (x : Side) : Bytes :=
  if (n x.peer).session.newFrame then []
  else (n.inFlight x).take (n x.peer).session.frameRemain.toNat

/-- The frames behind it. -/
def frames (x : Side) : List Frame := Frame.decode ((n.inFlight x).drop (n.partFrame x).length)

/-- The payload bytes for a stream on the way from `x`. -/
def payload (x : Side) (id : UInt32) : Bytes :=
  (if hdrStreamId (n x.peer).session.hdr = id then n.partFrame x else []) ++
    Frame.payloadFor id (n.frames x)

/-- The credit for a stream on the way from `x`. -/
def grants (x : Side) (id : UInt32) : Nat := Frame.grantFor id (n.frames x)

end Net

namespace Session

/-- The bytes that a stream has buffered. -/
def buffered (s : Session) (id : UInt32) : Bytes := (s.streams id).elim [] Stream.recvBuf

/-- The receive window of a stream, which is full as long as there is no stream. -/
def window (s : Session) (id : UInt32) : Nat :=
  (s.streams id).elim maxWindow fun st => st.recvWindow.toNat

/-- The send window of a stream, likewise. -/
def credit (s : Session) (id : UInt32) : Nat :=
  (s.streams id).elim maxWindow fun st => st.sendWindow.toNat

end Session

/-- The direction of a stream from `x` to its peer. -/
def Net.pipe (n : Net) (x : Side) (id : UInt32) : Pipe UInt8 where
  sent := (n x).accepted id
  queue := n.payload x id
  buf := (n x.peer).session.buffered id
  taken := (n x.peer).returned id
  credit := (n x).session.credit id
  window := (n x.peer).session.window id
  grants := n.grants x.peer id

end Yamux
