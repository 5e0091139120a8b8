import Yamux.Core.Locking
import Yamux.Locking.Session

/-!
# The order of the mutexes

The receive mutex of the session is below the state mutex of a stream, that is below its
send and receive mutexes, these are below the send mutex of the session, and the mutex of
the stream tree is above all. Every function keeps to this order on each of its ways out,
whatever it finds in the state and whatever its system calls answer: one lemma for each
function says from which mutexes on it may be called, and that it gives back what it takes.
-/

namespace Yamux

open Core Prog

/-- The place of a mutex in the order in which the source takes them. -/
def Mutex.level : Mutex → Fin 5
  | .sessionRecv => 0
  | .state _ => 1
  | .send _ => 2
  | .recv _ => 2
  | .sessionSend => 3
  | .streams => 4

namespace Locking

/-- The program is ordered by levels, from the mutexes `held` on, whatever its calls answer. -/
abbrev Takes {α : Type} (p : Op α) (held : List Mutex) (Q : α → List Mutex → Prop) : Prop :=
  Ordered (fun _ _ => True) Mutex.level p held Q

/-- The program is ordered and gives back what it takes. -/
abbrev GivesBack {α : Type} (p : Op α) (held : List Mutex) : Prop :=
  Balanced (fun _ _ => True) Mutex.level p held

/-- Everything in the list is below the mutex. -/
abbrev Under (m : Mutex) (held : List Mutex) : Prop := Above Mutex.level m held

variable {id : UInt32} {held : List Mutex}

/-! ## The mutexes below a stream's -/

theorem Under.send_of_state (h : Under (.state id) held) : Under (.send id) held :=
  h.mono (by simp [Mutex.level])

theorem Under.recv_of_state (h : Under (.state id) held) : Under (.recv id) held :=
  h.mono (by simp [Mutex.level])

theorem Under.sessionSend_of_state (h : Under (.state id) held) : Under .sessionSend held :=
  h.mono (by simp [Mutex.level])

theorem Under.send_state (h : Under (.state id) held) : Under (.send id) (.state id :: held) :=
  h.cons (by simp [Mutex.level])

theorem Under.recv_state (h : Under (.state id) held) : Under (.recv id) (.state id :: held) :=
  h.cons (by simp [Mutex.level])

theorem Under.sessionSend_recv (h : Under (.recv id) held) :
    Under .sessionSend (.recv id :: held) :=
  h.cons (by simp [Mutex.level])

/-- The receive mutex of the session is below all others. -/
theorem Under.sessionRecv {m : Mutex} (hm : m ≠ .sessionRecv) : Under m [.sessionRecv] := by
  cases m <;> simp [Mutex.level] at hm ⊢

/-! ## Accesses -/

section Accesses

variable {α β : Type} {Q : β → List Mutex → Prop}

/-- An access to a stream, which takes no mutex. -/
theorem givesBack_onStream {g : Stream → α × Stream} : GivesBack (onStream [] id g) held := by
  refine ⟨fun _ hm => absurd hm List.not_mem_nil, fun s => ?_⟩
  cases hst : s.streams id with
  | none =>
    simp only [hst]
    trivial
  | some st =>
    simp only [hst]
    rfl

theorem takes_onStream {g : Stream → α × Stream} {k : α → Op β}
    (h : ∀ a, Takes (k a) held Q) : Takes (onStream [] id g >>= k) held Q :=
  givesBack_onStream.seq h

theorem takes_readStream {g : Stream → α} {k : α → Op β} (h : ∀ a, Takes (k a) held Q) :
    Takes (readStream [] id g >>= k) held Q := takes_onStream h

theorem takes_modifyStream {f : Stream → Stream} {k : Unit → Op β} (h : Takes (k ()) held Q) :
    Takes (modifyStream [] id f >>= k) held Q := takes_onStream fun _ => h

end Accesses

theorem givesBack_writeNodes (fuel : Nat) (rest : Bytes) :
    GivesBack (Bio.writeNodes fuel rest) held := by
  induction fuel generalizing rest with
  | zero => exact .pure rfl
  | succ fuel ih =>
    rw [Bio.writeNodes]
    split
    · exact .pure rfl
    · apply Ordered.query_seq
      rintro (_ | _)
      · exact .pure rfl
      · exact (ih _).seq fun _ => .pure rfl

theorem givesBack_bioWrite (buf : Bytes) : GivesBack (bioWrite buf) held :=
  (givesBack_writeNodes _ _).seq fun _ => .pure rfl

/-! ## The stream tree -/

theorem givesBack_sessionInsertStream (st : Stream) (h : Under .streams held) :
    GivesBack (sessionInsertStream id st) held := by
  apply Ordered.acquire_seq h
  apply Ordered.seq
  apply Ordered.crit
  intro s
  apply Ordered.check_seq
  exact .release rfl

theorem givesBack_sessionRemoveStream (h : Under .streams held) :
    GivesBack (sessionRemoveStream id) held := by
  apply Ordered.acquire_seq h
  apply Ordered.seq
  apply Ordered.crit
  intro s
  apply Ordered.check_seq
  exact .release rfl

theorem givesBack_sessionFindStream (h : Under .streams held) :
    GivesBack (sessionFindStream id) held := by
  apply Ordered.acquire_seq h
  apply Ordered.read_seq
  intro s
  exact .release_seq (.pure rfl)

/-! ## Readiness of the public descriptor -/

theorem givesBack_paddingBuf (padding : UInt32) : GivesBack (paddingBuf padding) held := by
  rw [paddingBuf]
  split
  · exact .query fun _ => rfl
  · exact .pure rfl

theorem givesBack_streamWriteableNotify (h : Under (.send id) held) :
    GivesBack (streamWriteableNotify id) held := by
  apply Ordered.acquire_seq h
  apply takes_readStream
  intro writeable
  split
  · exact .release_seq (.pure rfl)
  · apply takes_readStream
    intro padding
    apply (givesBack_paddingBuf _).seq
    rintro (_ | _)
    · exact .release_seq (.pure rfl)
    · apply Ordered.query_seq
      rintro (_ | _)
      · exact .release_seq (.pure rfl)
      · apply takes_modifyStream
        exact .release_seq (.pure rfl)

theorem givesBack_streamWriteableWaiting (h : Under (.send id) held) :
    GivesBack (streamWriteableWaiting id) held := by
  apply Ordered.acquire_seq h
  apply takes_readStream
  intro writeable
  split
  · apply takes_readStream
    intro padding
    apply (givesBack_paddingBuf _).seq
    rintro (_ | _)
    · exact .release_seq (.pure rfl)
    · apply Ordered.query_seq
      rintro (_ | _)
      · exact .release_seq (.pure rfl)
      · apply takes_modifyStream
        exact .release_seq (.pure rfl)
  · exact .release_seq (.pure rfl)

theorem givesBack_streamReadableNotify (h : Under (.recv id) held) :
    GivesBack (streamReadableNotify id) held := by
  apply Ordered.acquire_seq h
  apply takes_readStream
  intro readable
  split
  · exact .release_seq (.pure rfl)
  · apply Ordered.query_seq
    rintro (_ | _)
    · exact .release_seq (.pure rfl)
    · apply takes_modifyStream
      exact .release_seq (.pure rfl)

theorem givesBack_streamReadableWaiting (h : Under (.recv id) held) :
    GivesBack (streamReadableWaiting id) held := by
  apply Ordered.acquire_seq h
  apply takes_readStream
  intro readable
  split
  · apply Ordered.query_seq
    rintro (_ | _)
    · exact .release_seq (.pure rfl)
    · apply takes_modifyStream
      exact .release_seq (.pure rfl)
  · exact .release_seq (.pure rfl)

/-- The send mutex and the receive mutex are taken one after the other. -/
theorem givesBack_streamNotifyWaiting (hsend : Under (.send id) held)
    (hrecv : Under (.recv id) held) : GivesBack (streamNotifyWaiting id) held := by
  apply (givesBack_streamWriteableNotify hsend).seq
  intro _
  apply (givesBack_streamReadableNotify hrecv).seq
  intro _
  exact .pure rfl

/-! ## Creation -/

theorem givesBack_streamNew (state : StreamState) (h : Under .streams held) :
    GivesBack (streamNew id state) held := by
  apply Ordered.query_seq
  rintro (_ | _)
  · exact .pure rfl
  apply Ordered.query_seq
  rintro (_ | _)
  · exact .pure rfl
  apply Ordered.query_seq
  rintro (_ | _)
  · exact .pure rfl
  apply Ordered.query_seq
  rintro (_ | _)
  · exact .pure rfl
  apply Ordered.read_seq
  intro s
  exact (givesBack_sessionInsertStream _ h).seq fun _ => .pure rfl

/-! ## Flags of incoming frames -/

theorem givesBack_streamProcessAck (flags : UInt16) :
    GivesBack (streamProcessAck id flags) held := by
  rw [streamProcessAck]
  split
  · exact givesBack_onStream
  · exact .pure rfl

theorem givesBack_streamProcessFin (flags : UInt16) (hsend : Under (.send id) held)
    (hrecv : Under (.recv id) held) : GivesBack (streamProcessFin id flags) held := by
  rw [streamProcessFin]
  split
  · apply takes_readStream
    intro state
    split
    case h_5 => exact .pure rfl
    all_goals
      apply takes_modifyStream
      exact (givesBack_streamNotifyWaiting hsend hrecv).seq fun _ => .pure rfl
  · exact .pure rfl

theorem givesBack_streamProcessRst (flags : UInt16) (hsend : Under (.send id) held)
    (hrecv : Under (.recv id) held) : GivesBack (streamProcessRst id flags) held := by
  rw [streamProcessRst]
  split
  · apply takes_modifyStream
    exact givesBack_streamNotifyWaiting hsend hrecv
  · exact .pure rfl

theorem givesBack_streamProcessFlags (flags : UInt16) (h : Under (.state id) held) :
    GivesBack (streamProcessFlags id flags) held := by
  apply Ordered.acquire_seq h
  apply (givesBack_streamProcessAck flags).seq
  intro _
  apply (givesBack_streamProcessFin flags h.send_state h.recv_state).seq
  rintro (_ | _)
  · exact .release_seq (.pure rfl)
  · apply (givesBack_streamProcessRst flags h.send_state h.recv_state).seq
    intro _
    exact .release_seq (.pure rfl)

/-! ## Queueing frames -/

theorem givesBack_sessionSendBufWrite (data : Bytes) (h : Under .sessionSend held) :
    GivesBack (sessionSendBufWrite data) held := by
  apply Ordered.acquire_seq h
  apply (givesBack_bioWrite data).seq
  rintro ⟨r, written⟩
  apply Ordered.modify_seq
  exact .release_seq (.pure rfl)

theorem givesBack_sessionGoAwayForReason (reason : UInt32) (h : Under .sessionSend held) :
    GivesBack (sessionGoAwayForReason reason) held := by
  apply Ordered.modify_seq
  exact (givesBack_sessionSendBufWrite _ h).seq fun _ => .pure rfl

/-- A go away is sent before a failure is returned. -/
theorem takes_goAway {α : Type} {a : α} (reason : UInt32) (h : Under .sessionSend held) :
    GivesBack (sessionGoAwayForReason reason >>= fun _ => pure a) held :=
  (givesBack_sessionGoAwayForReason reason h).seq fun _ => .pure rfl

theorem givesBack_streamSendFlags (h : Under (.state id) held) :
    GivesBack (streamSendFlags id) held := by
  apply Ordered.acquire_seq h
  apply takes_onStream
  intro flags
  exact .release_seq (.pure rfl)

theorem givesBack_sendWindowUpdate (h : Under (.state id) held) :
    GivesBack (sendWindowUpdate id) held := by
  apply (givesBack_streamSendFlags h).seq
  intro flags
  apply Ordered.acquire_seq h.recv_of_state
  apply takes_onStream
  intro delta
  split
  · exact .release_seq (.pure rfl)
  · apply Ordered.release_seq
    exact (givesBack_sessionSendBufWrite _ h.sessionSend_of_state).seq
      fun _ => .pure rfl

/-! ## Reading and writing -/

theorem givesBack_streamReadClosed (h : Under (.state id) held) :
    GivesBack (streamReadClosed id) held := by
  apply Ordered.acquire_seq h
  apply takes_readStream
  intro state
  split
  case h_4 | h_5 => exact .release_seq (.pure rfl)
  all_goals
    apply Ordered.acquire_seq h.recv_state
    apply takes_readStream
    intro pending
    split
    · exact .release_seq (.release_seq (.pure rfl))
    · exact .release_seq (.release_seq (.pure rfl))

theorem givesBack_streamPending (h : Under (.recv id) held) :
    GivesBack (streamPending id) held := by
  apply Ordered.acquire_seq h
  apply takes_readStream
  intro r
  exact .release_seq (.pure rfl)

theorem givesBack_streamTake (size : Nat) (h : Under (.recv id) held) :
    GivesBack (streamTake id size) held := by
  apply Ordered.acquire_seq h
  apply takes_onStream
  intro taken
  apply Ordered.check_seq
  exact .release_seq (.pure rfl)

/-- `stream_read` starts over and blocks without any mutex. -/
theorem givesBack_streamRead (size : Nat) : GivesBack (streamRead id size) [] := by
  apply (givesBack_streamReadClosed .nil).seq
  rintro (_ | r)
  · apply (givesBack_streamPending .nil).seq
    intro r
    split
    · apply takes_readStream
      intro nonblock
      split
      · exact .pure rfl
      · apply Ordered.query_seq
        rintro (_ | _)
        · exact .pure rfl
        · exact .seq (.await .again)
    · apply (givesBack_streamTake size .nil).seq
      rintro ⟨r, bytes, pending⟩
      apply Balanced.seq (k := fun waiting : Int => _)
      · split
        · exact givesBack_streamReadableWaiting .nil
        · exact .pure rfl
      · intro waiting
        split
        · exact .pure rfl
        · exact (givesBack_sendWindowUpdate .nil).seq fun _ => .pure rfl
  · exact .pure rfl

theorem givesBack_streamWriteClosed (h : Under (.state id) held) :
    GivesBack (streamWriteClosed id) held := by
  apply Ordered.acquire_seq h
  apply takes_readStream
  intro state
  split
  all_goals exact .release_seq (.pure rfl)

theorem givesBack_streamWindow (h : Under (.send id) held) :
    GivesBack (streamWindow id) held := by
  apply Ordered.acquire_seq h
  apply takes_readStream
  intro window
  exact .release_seq (.pure rfl)

theorem givesBack_streamWriteDebit (max : UInt32) (h : Under (.state id) held) :
    GivesBack (streamWriteDebit id max) held := by
  apply Ordered.acquire_seq h.send_of_state
  apply takes_onStream
  intro window
  apply Ordered.release_seq
  apply Balanced.seq (k := fun waiting : Int => _)
  · split
    · exact givesBack_streamWriteableWaiting h.send_of_state
    · exact .pure rfl
  · intro waiting
    split
    · exact takes_goAway _ h.sessionSend_of_state
    · exact .pure rfl

theorem givesBack_streamWriteFrame (data : Bytes) (window : UInt32)
    (h : Under (.state id) held) : GivesBack (streamWriteFrame id data window) held := by
  apply (givesBack_streamSendFlags h).seq
  intro flags
  apply (givesBack_sessionSendBufWrite _ h.sessionSend_of_state).seq
  intro r
  split
  · exact .pure rfl
  · apply (givesBack_sessionSendBufWrite _ h.sessionSend_of_state).seq
    intro r
    split
    · exact .pure rfl
    · exact givesBack_streamWriteDebit _ h

/-- `stream_write` starts over and blocks without any mutex. -/
theorem givesBack_streamWrite (data : Bytes) : GivesBack (streamWrite id data) [] := by
  apply (givesBack_streamWriteClosed .nil).seq
  rintro (_ | _)
  · apply (givesBack_streamWindow .nil).seq
    intro window
    split
    · apply takes_readStream
      intro nonblock
      split
      · exact .pure rfl
      · apply Ordered.query_seq
        rintro (_ | _)
        · exact .pure rfl
        · exact .seq (.await .again)
    · exact givesBack_streamWriteFrame data window .nil
  · exact .pure rfl

/-! ## Incoming streams -/

/-- A go away under the receive mutex of the session. -/
theorem takes_reject {α : Type} {a : α} (reason : UInt32) :
    GivesBack (sessionGoAwayForReason reason >>= fun _ => pure a) [.sessionRecv] :=
  takes_goAway reason (.sessionRecv nofun)

theorem givesBack_notifyAccept : GivesBack (notifyAccept id) [.sessionRecv] := by
  apply Ordered.query_seq
  rintro (_ | _)
  · exact takes_reject _
  · apply Ordered.modify_seq
    exact .pure rfl

theorem givesBack_incomingStream : GivesBack incomingStream [.sessionRecv] := by
  apply Ordered.read_seq
  intro s
  apply Ordered.check_seq
  apply Ordered.read_seq
  intro s
  apply Ordered.read_seq
  intro s
  split
  · exact (givesBack_sessionSendBufWrite _ (.sessionRecv nofun)).seq fun _ => .pure rfl
  · apply (givesBack_sessionFindStream (.sessionRecv nofun)).seq
    rintro (_ | _)
    · apply (givesBack_streamNew _ (.sessionRecv nofun)).seq
      rintro (_ | _)
      · exact takes_reject _
      · apply givesBack_notifyAccept.seq
        intro r
        split
        · exact (givesBack_sessionRemoveStream (.sessionRecv nofun)).seq fun _ => .pure rfl
        · exact .pure rfl
    · exact takes_reject _

/-! ## DATA frames -/

/-- The go away of a failed copy is sent under the receive mutex of the stream. -/
theorem givesBack_deliverSlice (size : Nat) :
    GivesBack (deliverSlice id size) [.sessionRecv] := by
  have hrecv : Under (.recv id) [.sessionRecv] := .sessionRecv nofun
  apply Ordered.read_seq
  intro s
  apply Ordered.check_seq
  apply Ordered.acquire_seq hrecv
  apply (givesBack_bioWrite _).seq
  rintro ⟨r, written⟩
  apply takes_modifyStream
  split
  · apply (givesBack_sessionGoAwayForReason _ hrecv.sessionSend_recv).seq
    intro _
    exact .release_seq (.pure rfl)
  · apply Ordered.release_seq
    apply (givesBack_streamReadableNotify hrecv).seq
    intro woken
    split
    · exact takes_reject _
    · exact .pure rfl

theorem givesBack_payloadRound (live : Bool) :
    GivesBack (payloadRound id live) [.sessionRecv] := by
  apply Ordered.read_seq
  intro s
  apply Ordered.read_seq
  intro t
  split
  · exact .pure rfl
  · apply Balanced.seq (k := fun moved : Option Nat => _)
    · split
      · exact givesBack_deliverSlice _
      · exact .pure rfl
    · rintro (_ | r)
      · exact .pure rfl
      · apply Ordered.modify_seq
        exact .pure rfl

theorem givesBack_handlePayload (live : Bool) :
    GivesBack (handlePayload id live) [.sessionRecv] := by
  apply Ordered.read_seq
  intro s
  have hloop (n : Nat) : GivesBack (loop n (payloadRound id live)) [.sessionRecv] := by
    apply Ordered.loop
    apply (givesBack_payloadRound live).mono
    rintro (_ | r) held' rfl <;> rfl
  apply (hloop _).seq
  intro r
  split
  · exact .pure rfl
  · apply Ordered.modify_seq
    exact .pure rfl

theorem givesBack_startPayload (live : Bool) (len : UInt32) :
    GivesBack (startPayload id live len) [.sessionRecv] := by
  apply Ordered.modify_seq
  exact givesBack_handlePayload live

/-- The go away for a payload beyond the window is sent under the receive mutex of the
stream. -/
theorem givesBack_handleDataHeader : GivesBack handleDataHeader [.sessionRecv] := by
  apply Ordered.read_seq
  intro s
  have hrecv : Under (.recv (hdrStreamId s.hdr)) [.sessionRecv] := .sessionRecv nofun
  apply (givesBack_sessionFindStream (.sessionRecv nofun)).seq
  rintro (_ | _)
  · exact givesBack_startPayload _ _
  · apply (givesBack_streamProcessFlags _ (.sessionRecv nofun)).seq
    intro r
    split
    · exact takes_reject _
    split
    · exact .pure rfl
    apply Ordered.acquire_seq hrecv
    apply takes_readStream
    intro window
    split
    · apply (givesBack_sessionGoAwayForReason _ hrecv.sessionSend_recv).seq
      intro _
      exact .release_seq (.pure rfl)
    · apply Ordered.release_seq
      exact givesBack_startPayload _ _

/-- A SYN flag is dealt with before the rest of the frame. -/
theorem givesBack_syn (flags : UInt16) :
    GivesBack (if hasFlag flags FLAG_SYN then incomingStream else pure 0) [.sessionRecv] := by
  split
  · exact givesBack_incomingStream
  · exact .pure rfl

theorem givesBack_sessionHandleData : GivesBack sessionHandleData [.sessionRecv] := by
  apply Ordered.read_seq
  intro s
  apply Ordered.read_seq
  intro t
  split
  · apply (givesBack_syn _).seq
    intro r
    split
    · exact .pure rfl
    · exact givesBack_handleDataHeader
  · apply (givesBack_sessionFindStream (.sessionRecv nofun)).seq
    intro live
    exact givesBack_handlePayload live

/-! ## The other frame types -/

theorem givesBack_addCredit (len : UInt32) (h : Under (.send id) held) :
    GivesBack (addCredit id len) held := by
  apply Ordered.acquire_seq h
  apply takes_modifyStream
  exact .release rfl

theorem givesBack_sessionHandleWindowUpdate :
    GivesBack sessionHandleWindowUpdate [.sessionRecv] := by
  apply Ordered.read_seq
  intro s
  apply Ordered.check_seq
  apply Ordered.read_seq
  intro t
  apply (givesBack_syn _).seq
  intro r
  split
  · exact .pure rfl
  apply (givesBack_sessionFindStream (.sessionRecv nofun)).seq
  rintro (_ | _)
  · exact .pure rfl
  · apply (givesBack_streamProcessFlags _ (.sessionRecv nofun)).seq
    intro r
    split
    · exact takes_reject _
    split
    · exact .pure rfl
    apply (givesBack_addCredit _ (.sessionRecv nofun)).seq
    intro _
    apply (givesBack_streamWriteableNotify (.sessionRecv nofun)).seq
    intro woken
    split
    · exact takes_reject _
    · exact .pure rfl

theorem givesBack_sessionHandlePing : GivesBack sessionHandlePing [.sessionRecv] := by
  apply Ordered.read_seq
  intro s
  apply Ordered.check_seq
  apply Ordered.read_seq
  intro t
  split
  · apply (givesBack_sessionSendBufWrite _ (.sessionRecv nofun)).seq
    intro r
    split
    · exact takes_reject _
    · exact .pure rfl
  · exact .pure rfl

theorem givesBack_sessionHandleGoAway : GivesBack sessionHandleGoAway held := by
  apply Ordered.read_seq
  intro s
  apply Ordered.check_seq
  apply Ordered.read_seq
  intro t
  split
  · apply Ordered.modify_seq
    exact .pure rfl
  · exact .pure rfl

theorem givesBack_sessionHandle : GivesBack sessionHandle [.sessionRecv] := by
  apply Ordered.read_seq
  intro s
  split
  · exact givesBack_sessionHandleData
  split
  · exact givesBack_sessionHandleWindowUpdate
  split
  · exact givesBack_sessionHandlePing
  split
  · exact givesBack_sessionHandleGoAway
  · exact .pure rfl

/-! ## The receive loop -/

theorem givesBack_readHeader : GivesBack readHeader held := by
  apply Ordered.seq
  apply Ordered.crit
  intro s
  apply Ordered.check_seq
  exact .pure rfl

/-- A round that exits has given the receive mutex back, one that goes on holds it. -/
theorem takes_processRound : Takes processRound [.sessionRecv] fun o held =>
    match o with
    | none => held = [.sessionRecv]
    | some _ => held = [] := by
  apply Ordered.read_seq
  intro s
  apply Ordered.read_seq
  intro t
  split
  · exact .release_seq (.pure rfl)
  split
  · exact .release_seq (.pure rfl)
  apply Balanced.seq (k := fun supported : Bool => _)
  · split
    · exact givesBack_readHeader
    · exact .pure rfl
  · rintro (_ | _)
    · exact .release_seq (.pure rfl)
    · apply givesBack_sessionHandle.seq
      intro r
      split
      · exact .release_seq (.pure rfl)
      · exact .pure rfl

theorem givesBack_sessionProcess : GivesBack sessionProcess [] := by
  apply Ordered.acquire_seq .nil
  apply Ordered.read_seq
  intro s
  apply Ordered.loop
  apply takes_processRound.mono
  rintro (_ | r) held' hheld <;> exact hheld

/-! ## Operations of the application and of the transport -/

theorem givesBack_sessionRecvBufWrite (data : Bytes) :
    GivesBack (sessionRecvBufWrite data) [] := by
  apply Ordered.acquire_seq .nil
  apply (givesBack_bioWrite data).seq
  rintro ⟨r, written⟩
  apply Ordered.modify_seq
  split
  all_goals exact .release_seq (.pure rfl)

theorem givesBack_sessionSendBufPending : GivesBack sessionSendBufPending [] := by
  apply Ordered.acquire_seq .nil
  apply Ordered.read_seq
  intro s
  exact .release_seq (.pure rfl)

theorem givesBack_sessionSendBufPeek (n : Nat) : GivesBack (sessionSendBufPeek n) [] := by
  apply Ordered.acquire_seq .nil
  apply Ordered.read_seq
  intro s
  exact .release_seq (.pure rfl)

theorem givesBack_sessionSendBufConsume (n : Nat) : GivesBack (sessionSendBufConsume n) [] := by
  apply Ordered.acquire_seq .nil
  apply Ordered.seq
  apply Ordered.crit
  intro s
  exact .release_seq (.pure rfl)

theorem givesBack_takeId (tries : Nat) : GivesBack (takeId tries) [] := by
  apply Ordered.loop
  apply Ordered.read_seq
  intro s
  split
  · exact .pure rfl
  · apply Ordered.seq
    apply Ordered.crit
    intro t
    split <;> exact .pure rfl

theorem givesBack_sessionOpen (tries : Nat) : GivesBack (sessionOpen tries) [] := by
  apply Ordered.read_seq
  intro s
  split
  · exact .pure rfl
  apply (givesBack_takeId tries).seq
  rintro (_ | id)
  · exact .pure rfl
  · apply (givesBack_streamNew _ .nil).seq
    rintro (_ | _)
    · exact .pure rfl
    · apply (givesBack_sendWindowUpdate .nil).seq
      intro r
      split
      · exact (givesBack_sessionRemoveStream .nil).seq fun _ => .pure rfl
      · exact .pure rfl

theorem givesBack_sessionAccept : GivesBack sessionAccept [] := by
  apply Ordered.query_seq
  rintro (_ | _)
  · exact takes_goAway _ .nil
  · apply Ordered.seq
    apply Ordered.await
    apply Ordered.seq
    apply Ordered.crit
    intro s
    split
    · exact .again
    · apply (givesBack_sessionFindStream .nil).seq
      intro live
      apply Ordered.check_seq
      exact (givesBack_sendWindowUpdate .nil).seq fun _ => .pure rfl

theorem givesBack_forget {α : Type} {p : Op α} (h : GivesBack p held) :
    GivesBack (forget p) held :=
  h.seq fun _ => .pure rfl

/-- Every call keeps to the order and returns without any mutex. -/
theorem givesBack_code (c : Api) : GivesBack (code c) [] := by
  cases c with
  | recvBufWrite data => exact givesBack_forget (givesBack_sessionRecvBufWrite data)
  | process => exact givesBack_forget givesBack_sessionProcess
  | sendBufPending => exact givesBack_forget givesBack_sessionSendBufPending
  | sendBufPeek n => exact givesBack_forget (givesBack_sessionSendBufPeek n)
  | sendBufConsume n => exact givesBack_forget (givesBack_sessionSendBufConsume n)
  | openStream tries => exact givesBack_forget (givesBack_sessionOpen tries)
  | acceptStream => exact givesBack_forget givesBack_sessionAccept
  | read id size => exact givesBack_forget (givesBack_streamRead size)
  | write id data => exact givesBack_forget (givesBack_streamWrite data)
  | goAway => exact givesBack_forget (givesBack_sessionGoAwayForReason _ .nil)

end Locking

end Yamux
