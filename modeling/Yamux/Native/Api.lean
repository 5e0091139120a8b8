import Yamux.Native.Session

/-!
# Calls on a session

The public operations as one type, for runs that mix them.
-/

namespace Yamux

open Core Prog

/-- The calls that an application or a transport makes on a session. -/
inductive Api where
  | recvBufWrite (data : Bytes)
  | process
  | sendBufPending
  | sendBufPeek (n : Nat)
  | sendBufConsume (n : Nat)
  | openStream (tries : Nat)
  | acceptStream
  | read (id : UInt32) (size : Nat)
  | write (id : UInt32) (data : Bytes)
  | goAway
  deriving DecidableEq, Repr

/-- A call whose result nobody looks at. -/
def forget {α : Type} (p : Op α) : Op Unit := p >>= fun _ => pure ()

theorem exec_forget {α : Type} {p : Op α} {a : α} {s t : Session} (h : p.exec s = (.ret a, t)) :
    (forget p).exec s = (.ret (), t) := by
  rw [forget, exec_bind, h]
  rfl

/-- The program of a call. -/
def Api.code : Api → Op Unit
  | .recvBufWrite data => forget (sessionRecvBufWrite data)
  | .process => forget sessionProcess
  | .sendBufPending => forget sessionSendBufPending
  | .sendBufPeek n => forget (sessionSendBufPeek n)
  | .sendBufConsume n => forget (sessionSendBufConsume n)
  | .openStream tries => forget (sessionOpen tries)
  | .acceptStream => forget sessionAccept
  | .read id size => forget (streamRead id size)
  | .write id data => forget (streamWrite id data)
  | .goAway => forget sessionGoAway

end Yamux
