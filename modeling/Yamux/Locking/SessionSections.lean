import Yamux.Locking.StreamSections

/-!
# Session operations and their sections

The receive path has the receive mutex of the session throughout, so it may change what that
mutex guards where it uses no other. From the handlers of the frames to the calls of an
application and of a transport, the code matches the model.
-/

namespace Yamux.Locking

open Core Prog Sharing

variable {ok : Call → Bool → Prop} {L : Set Mutex} {id : UInt32}

/-! ## Incoming streams -/

/-- What a thread in `session_process` holds. -/
abbrev Alone {α : Type} (ok : Call → Bool → Prop) (p q : Op α) : Prop :=
  Alongside ok {.sessionRecv} p q

/-- The thread with the receive mutex of the session changes what that one guards. -/
theorem alone_modify {f : Session → Session}
    (hf : ∀ s, (f s).streams = s.streams ∧ (f s).sendBuf = s.sendBuf) :
    Alone ok (modify [] f) (modify [] f) :=
  .crit fun _ s hL _ => allowed_of_streams (hf s).1 (.inl (hL rfl)) (.inr (hf s).2)

end Yamux.Locking
