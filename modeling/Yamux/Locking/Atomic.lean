import Yamux.Core.Alike
import Yamux.Locking.Session

/-!
# Sections as atomic actions

Elsewhere a critical section is one action, and the outcomes of its system calls are
asked for beforehand. Function by function, the code with explicit mutexes may end in the
same ways as that model, whatever the calls return.
-/

namespace Yamux.Locking

open Core Prog

variable {id : UInt32}

/-! ## Accesses to a stream -/

section Accesses

variable {α β : Type} {ms : List Mutex} {s t : Session} {o : Outcome α}

theorem reaches_onStream {g : Stream → α × Stream} :
    Reaches (onStream ms id g) s o t ↔ match s.streams id with
      | none => o = .abort ∧ t = s
      | some st => o = .ret (g st).1 ∧ t = s.setStream id (g st).2 := by
  cases hst : s.streams id <;> simp [onStream, Reaches, hst]

theorem reaches_onStream_bind {g : Stream → β × Stream} {k : β → Op α} :
    Reaches (onStream ms id g >>= k) s o t ↔ match s.streams id with
      | none => o = .abort ∧ t = s
      | some st => Reaches (k (g st).1) (s.setStream id (g st).2) o t := by
  cases hst : s.streams id <;> simp [onStream, bind_eq, Prog.bind, Reaches, hst]

theorem reaches_readStream_bind {g : Stream → β} {k : β → Op α} :
    Reaches (readStream ms id g >>= k) s o t ↔ match s.streams id with
      | none => o = .abort ∧ t = s
      | some st => Reaches (k (g st)) s o t := by
  rw [readStream, reaches_onStream_bind]
  cases hst : s.streams id with
  | none => rfl
  | some st => simp only [Session.setStream_eq_self hst]

theorem reaches_modifyStream_bind {f : Stream → Stream} {k : Unit → Op α} :
    Reaches (modifyStream ms id f >>= k) s o t ↔ match s.streams id with
      | none => o = .abort ∧ t = s
      | some st => Reaches (k ()) (s.setStream id (f st)) o t := reaches_onStream_bind

end Accesses

attribute [local simp] reaches_onStream reaches_onStream_bind reaches_readStream_bind
  reaches_modifyStream_bind

/-- A section with one access to a stream. -/
theorem alike_section {α β : Type} {m : Mutex} {g : Stream → α × Stream} {k k' : α → Op β}
    (h : ∀ a, Alike (k a) (k' a)) :
    Alike (acquire m >>= fun _ => onStream [] id g >>= fun a => release m >>= fun _ => k a)
      (onStream [m] id g >>= k') := by
  intro s o t
  cases hst : s.streams id with
  | none => simp [hst]
  | some st => simpa [hst] using h _ _ o t

/-- A section that is nothing else. -/
theorem alike_access {α : Type} {m : Mutex} {g : Stream → α × Stream} :
    Alike (acquire m >>= fun _ => onStream [] id g >>= fun a => release m >>= fun _ => pure a)
      (onStream [m] id g) := by
  intro s o t
  cases hst : s.streams id <;> simp [hst]

/-! ## The stream tree -/

theorem alike_sessionInsertStream (st : Stream) :
    Alike (sessionInsertStream id st) (Yamux.sessionInsertStream id st) := by
  intro s o t
  cases hst : s.streams id <;> simp [sessionInsertStream, Yamux.sessionInsertStream, hst]

theorem alike_sessionRemoveStream :
    Alike (sessionRemoveStream id) (Yamux.sessionRemoveStream id) := by
  intro s o t
  simp [sessionRemoveStream, Yamux.sessionRemoveStream]

theorem alike_sessionFindStream :
    Alike (sessionFindStream id) (Yamux.sessionFindStream id) := by
  intro s o t
  simp [sessionFindStream, Yamux.sessionFindStream]

/-! ## Readiness of the public descriptor -/

theorem alike_streamWriteableNotify :
    Alike (streamWriteableNotify id) (Yamux.streamWriteableNotify id) := by
  intro s o t
  cases hst : s.streams id with
  | none => simp [streamWriteableNotify, Yamux.streamWriteableNotify, hst]
  | some st =>
    have hself := Session.setStream_eq_self hst
    by_cases hw : st.writeable = true
    · simp [streamWriteableNotify, Yamux.streamWriteableNotify, hst, hw, hself]
    · by_cases hp : 4096 < st.sendPadding
      · simp [streamWriteableNotify, Yamux.streamWriteableNotify, paddingBuf, hst, hw, hself, hp]
      · simp [streamWriteableNotify, Yamux.streamWriteableNotify, paddingBuf, hst, hw, hself, hp]

theorem alike_streamWriteableWaiting :
    Alike (streamWriteableWaiting id) (Yamux.streamWriteableWaiting id) := by
  intro s o t
  cases hst : s.streams id with
  | none => simp [streamWriteableWaiting, Yamux.streamWriteableWaiting, hst]
  | some st =>
    have hself := Session.setStream_eq_self hst
    by_cases hw : st.writeable = true
    · by_cases hp : 4096 < st.sendPadding
      · simp [streamWriteableWaiting, Yamux.streamWriteableWaiting, paddingBuf, hst, hw, hself, hp]
      · simp [streamWriteableWaiting, Yamux.streamWriteableWaiting, paddingBuf, hst, hw, hself, hp]
    · simp [streamWriteableWaiting, Yamux.streamWriteableWaiting, hst, hw, hself]

theorem alike_streamReadableNotify :
    Alike (streamReadableNotify id) (Yamux.streamReadableNotify id) := by
  intro s o t
  cases hst : s.streams id with
  | none => simp [streamReadableNotify, Yamux.streamReadableNotify, hst]
  | some st =>
    have hself := Session.setStream_eq_self hst
    by_cases hr : st.readable = true
    · simp [streamReadableNotify, Yamux.streamReadableNotify, hst, hr, hself]
    · simp [streamReadableNotify, Yamux.streamReadableNotify, hst, hr, hself]

theorem alike_streamReadableWaiting :
    Alike (streamReadableWaiting id) (Yamux.streamReadableWaiting id) := by
  intro s o t
  cases hst : s.streams id with
  | none => simp [streamReadableWaiting, Yamux.streamReadableWaiting, hst]
  | some st =>
    have hself := Session.setStream_eq_self hst
    by_cases hr : st.readable = true
    · simp [streamReadableWaiting, Yamux.streamReadableWaiting, hst, hr, hself]
    · simp [streamReadableWaiting, Yamux.streamReadableWaiting, hst, hr, hself]

theorem alike_streamNotifyWaiting :
    Alike (streamNotifyWaiting id) (Yamux.streamNotifyWaiting id) :=
  alike_streamWriteableNotify.bind fun _ => alike_streamReadableNotify.bind fun _ => .refl _

/-! ## Creation and removal -/

theorem alike_streamNew (state : StreamState) :
    Alike (streamNew id state) (Yamux.streamNew id state) := by
  intro s o t
  have hinsert := @alike_sessionInsertStream id (.fresh state s.rcvbuf)
  have hcreate := hinsert.bind fun _ => .refl (pure true)
  simp [streamNew, Yamux.streamNew, hcreate s o t]

/-! ## Flags of incoming frames -/

theorem alike_streamProcessFin (flags : UInt16) :
    Alike (streamProcessFin id flags) (Yamux.streamProcessFin id flags) := by
  apply Alike.ite
  · apply Alike.after
    intro state
    have hnotify (f : Stream → Stream) : Alike
        (modifyStream [] id f >>= fun _ => streamNotifyWaiting id >>= fun _ => pure true)
        (modifyStream [] id f >>= fun _ => Yamux.streamNotifyWaiting id >>= fun _ => pure true) :=
      .after fun _ => alike_streamNotifyWaiting.bind fun _ => .refl _
    cases state with
    | init | remoteClose | closed | reset => exact .refl _
    | synSent | synReceived | established | localClose => exact hnotify _
  · exact .refl _

theorem alike_streamProcessRst (flags : UInt16) :
    Alike (streamProcessRst id flags) (Yamux.streamProcessRst id flags) := by
  apply Alike.ite
  · exact .after fun _ => alike_streamNotifyWaiting
  · exact .refl _

theorem alike_streamProcessFlags (flags : UInt16) :
    Alike (streamProcessFlags id flags) (Yamux.streamProcessFlags id flags) := by
  apply Alike.after
  intro _
  apply Alike.after
  intro _
  apply (alike_streamProcessFin flags).bind
  intro legal
  apply Alike.ite
  · exact (alike_streamProcessRst flags).bind fun _ => .refl _
  · exact .refl _

/-! ## Queueing frames -/

theorem alike_sessionSendBufWrite (data : Bytes) :
    Alike (sessionSendBufWrite data) (Yamux.sessionSendBufWrite data) := by
  apply Alike.acquire
  exact .after fun _ => .refl _

theorem alike_sessionGoAwayForReason (reason : UInt32) :
    Alike (sessionGoAwayForReason reason) (Yamux.sessionGoAwayForReason reason) :=
  .after fun _ => (alike_sessionSendBufWrite _).bind fun _ => .refl _

/-- A go away is sent before a failure is returned. -/
theorem alike_goAway {α : Type} {a : α} (reason : UInt32) :
    Alike (sessionGoAwayForReason reason >>= fun _ => pure a)
      (Yamux.sessionGoAwayForReason reason >>= fun _ => pure a) :=
  (alike_sessionGoAwayForReason reason).bind fun _ => .refl _

theorem alike_streamSendFlags :
    Alike (streamSendFlags id) (Yamux.streamSendFlags id) := alike_access

theorem alike_sendWindowUpdate :
    Alike (sendWindowUpdate id) (Yamux.sendWindowUpdate id) := by
  apply alike_streamSendFlags.bind
  intro flags s o t
  cases hst : s.streams id with
  | none => simp [hst]
  | some st =>
    cases hgrant : (Stream.grant flags st).1 with
    | none => simp [hst, hgrant]
    | some delta =>
      have hwrite := (alike_sessionSendBufWrite
        (hdrEncode TYPE_WINDOW_UPDATE flags id delta)).bind fun r =>
          .refl (pure (if r ≠ 0 then -1 else 0))
      simpa [hst, hgrant] using hwrite _ o t

/-! ## Reading and writing -/

theorem alike_streamReadClosed :
    Alike (streamReadClosed id) (Yamux.streamReadClosed id) := by
  intro s o t
  cases hst : s.streams id with
  | none => simp [streamReadClosed, Yamux.streamReadClosed, hst]
  | some st =>
    by_cases hp : bioPending st.recvBuf = 0
    all_goals
      cases hstate : st.state <;>
        simp [streamReadClosed, Yamux.streamReadClosed, bind_assoc, hst, hstate, hp]

theorem alike_streamPending :
    Alike (streamPending id) (readStream [.recv id] id fun st => bioPending st.recvBuf) :=
  alike_access

theorem alike_streamTake {α : Type} (size : Nat) {k k' : Int × Bytes × Int → Op α}
    (h : ∀ taken, Alike (k taken) (k' taken)) :
    Alike (streamTake id size >>= k) (onStream [.recv id] id (Stream.take size) >>= fun taken =>
      check (0 < taken.1) >>= fun _ => k' taken) := by
  rw [streamTake, bind_assoc]
  apply Alike.acquire
  intro s o t
  cases hst : s.streams id <;> simp [bind_assoc, hst, h _ _ o t]

theorem alike_streamRead (size : Nat) :
    Alike (streamRead id size) (Yamux.streamRead id size) := by
  apply alike_streamReadClosed.bind
  rintro (_ | r)
  · apply alike_streamPending.bind
    intro r
    apply Alike.ite
    · exact .refl _
    · apply alike_streamTake
      rintro ⟨r, bytes, pending⟩
      apply (Alike.ite alike_streamReadableWaiting (.refl _)).bind
      intro waiting
      apply Alike.ite
      · exact .refl _
      · exact alike_sendWindowUpdate.bind fun _ => .refl _
  · exact .refl _

theorem alike_streamWindow :
    Alike (streamWindow id) (readStream [.send id] id Stream.sendWindow) := alike_access

theorem alike_streamWriteDebit (max : UInt32) :
    Alike (streamWriteDebit id max) (Yamux.streamWriteDebit id max) := by
  apply alike_section
  intro window
  apply (Alike.ite alike_streamWriteableWaiting (.refl _)).bind
  intro waiting
  apply Alike.ite
  · exact alike_goAway _
  · exact .refl _

theorem alike_streamWriteFrame (data : Bytes) (window : UInt32) :
    Alike (streamWriteFrame id data window) (Yamux.streamWriteFrame id data window) := by
  apply alike_streamSendFlags.bind
  intro flags
  apply (alike_sessionSendBufWrite _).bind
  intro r
  apply Alike.ite (.refl _)
  apply (alike_sessionSendBufWrite _).bind
  intro r
  exact .ite (.refl _) (alike_streamWriteDebit _)

theorem alike_streamWriteClosed {α : Type} {p p' q q' : Op α} (hp : Alike p p')
    (hq : Alike q q') : Alike (streamWriteClosed id >>= fun closed => if closed then p else q)
      (readStream [.state id] id Stream.state >>= fun state => match state with
        | .localClose | .closed | .reset => p'
        | _ => q') := by
  rw [streamWriteClosed, bind_assoc]
  apply Alike.acquire
  intro s o t
  cases hst : s.streams id with
  | none => simp [bind_assoc, hst]
  | some st =>
    cases hstate : st.state <;> simp [bind_assoc, hst, hstate, hp _ o t, hq _ o t]

theorem alike_streamWrite (data : Bytes) :
    Alike (streamWrite id data) (Yamux.streamWrite id data) := by
  apply alike_streamWriteClosed (.refl _)
  apply alike_streamWindow.bind
  intro window
  exact .ite (.refl _) (alike_streamWriteFrame data window)

/-! ## Incoming streams -/

theorem alike_notifyAccept : Alike (notifyAccept id) (Yamux.notifyAccept id) :=
  .after fun _ => .ite (.refl _) (alike_goAway _)

theorem alike_incomingStream : Alike incomingStream Yamux.incomingStream := by
  apply Alike.after
  intro newFrame
  apply Alike.after
  intro _
  apply Alike.after
  intro id
  apply Alike.after
  intro leaving
  apply Alike.ite
  · exact (alike_sessionSendBufWrite _).bind fun _ => .refl _
  · apply alike_sessionFindStream.bind
    intro known
    apply Alike.ite (alike_goAway _)
    apply (alike_streamNew _).bind
    intro created
    apply Alike.ite _ (alike_goAway _)
    apply alike_notifyAccept.bind
    intro r
    exact .ite (alike_sessionRemoveStream.bind fun _ => .refl _) (.refl _)

/-! ## DATA frames -/

theorem alike_deliverSlice (size : Nat) :
    Alike (deliverSlice id size) (Yamux.deliverSlice id size) := by
  apply Alike.after
  intro slice
  apply Alike.after
  intro _
  apply Alike.after
  intro _
  apply Alike.after
  rintro ⟨r, written⟩
  apply Alike.after
  intro _
  apply Alike.ite
  · exact (alike_sessionGoAwayForReason _).bind fun _ => .refl _
  · apply Alike.after
    intro _
    apply alike_streamReadableNotify.bind
    intro woken
    exact .ite (alike_goAway _) (.refl _)

theorem alike_payloadRound (live : Bool) :
    Alike (payloadRound id live) (Yamux.payloadRound id live) := by
  apply Alike.after
  intro remain
  apply Alike.after
  intro pending
  apply Alike.ite (.refl _)
  exact (Alike.ite (alike_deliverSlice _) (.refl _)).bind fun _ => .refl _

theorem alike_handlePayload (live : Bool) :
    Alike (handlePayload id live) (Yamux.handlePayload id live) :=
  .after fun _ => ((alike_payloadRound live).loop _).bind fun _ => .refl _

theorem alike_startPayload (live : Bool) (len : UInt32) :
    Alike (startPayload id live len) (Yamux.startPayload id live len) :=
  .after fun _ => alike_handlePayload live

theorem alike_handleDataHeader : Alike handleDataHeader Yamux.handleDataHeader := by
  apply Alike.after
  intro hdr
  apply alike_sessionFindStream.bind
  intro live
  apply Alike.ite
  · apply (alike_streamProcessFlags _).bind
    intro r
    apply Alike.ite (alike_goAway _)
    apply Alike.ite (.refl _)
    apply Alike.after
    intro _
    apply Alike.after
    intro window
    apply Alike.ite
    · exact (alike_sessionGoAwayForReason _).bind fun _ => .refl _
    · exact .after fun _ => alike_startPayload _ _
  · exact alike_startPayload _ _

/-- A SYN flag is dealt with before the rest of the frame. -/
theorem alike_syn (flags : UInt16) :
    Alike (if hasFlag flags FLAG_SYN then incomingStream else pure 0)
      (if hasFlag flags FLAG_SYN then Yamux.incomingStream else pure 0) :=
  .ite alike_incomingStream (.refl _)

theorem alike_sessionHandleData : Alike sessionHandleData Yamux.sessionHandleData := by
  apply Alike.after
  intro newFrame
  apply Alike.after
  intro hdr
  apply Alike.ite
  · exact (alike_syn _).bind fun _ => .ite (.refl _) alike_handleDataHeader
  · exact alike_sessionFindStream.bind fun _ => alike_handlePayload _

/-! ## The other frame types -/

theorem alike_addCredit (len : UInt32) : Alike (addCredit id len)
    (modifyStream [.send id] id fun st => { st with sendWindow := st.sendWindow + len }) := by
  intro s o t
  cases hst : s.streams id <;> simp [addCredit, modifyStream, hst]

theorem alike_sessionHandleWindowUpdate :
    Alike sessionHandleWindowUpdate Yamux.sessionHandleWindowUpdate := by
  apply Alike.after
  intro newFrame
  apply Alike.after
  intro _
  apply Alike.after
  intro hdr
  apply (alike_syn _).bind
  intro r
  apply Alike.ite (.refl _)
  apply alike_sessionFindStream.bind
  intro live
  apply Alike.ite _ (.refl _)
  apply (alike_streamProcessFlags _).bind
  intro r
  apply Alike.ite (alike_goAway _)
  apply Alike.ite (.refl _)
  apply (alike_addCredit _).bind
  intro _
  exact alike_streamWriteableNotify.bind fun _ => .ite (alike_goAway _) (.refl _)

theorem alike_sessionHandlePing : Alike sessionHandlePing Yamux.sessionHandlePing := by
  apply Alike.after
  intro newFrame
  apply Alike.after
  intro _
  apply Alike.after
  intro hdr
  apply Alike.ite _ (.refl _)
  exact (alike_sessionSendBufWrite _).bind fun _ => .ite (alike_goAway _) (.refl _)

theorem alike_sessionHandle : Alike sessionHandle Yamux.sessionHandle := by
  apply Alike.after
  intro type
  apply Alike.ite alike_sessionHandleData
  apply Alike.ite alike_sessionHandleWindowUpdate
  apply Alike.ite alike_sessionHandlePing
  exact .refl _

/-! ## The receive loop -/

theorem alike_processRound : Alike processRound Yamux.processRound := by
  apply Alike.after
  intro pending
  apply Alike.after
  intro newFrame
  apply Alike.ite (.release (.refl _))
  apply Alike.ite (.release (.refl _))
  apply Alike.after
  rintro (_ | _)
  · exact .release (.refl _)
  · apply alike_sessionHandle.bind
    intro r
    by_cases hr : r = 0
    · subst hr
      exact .refl _
    · simp only [hr, ne_eq, not_false_eq_true, if_true]
      exact .release (.refl _)

/-- The receive mutex is given back in the last round or after it. -/
theorem alike_sessionProcess : Alike sessionProcess Yamux.sessionProcess := by
  apply Alike.after
  intro _
  apply Alike.after
  intro rounds
  rw [← bind_pure (loop rounds processRound)]
  apply (alike_processRound.loop rounds).bind
  intro r
  exact .symm (.release (.refl _))

/-! ## Operations of the application and of the transport -/

theorem alike_sessionRecvBufWrite (data : Bytes) :
    Alike (sessionRecvBufWrite data) (Yamux.sessionRecvBufWrite data) := by
  apply Alike.acquire
  apply Alike.after
  rintro ⟨r, written⟩
  apply Alike.after
  intro _
  by_cases hr : r = -1
  · subst hr
    exact .release (.refl _)
  · simp only [hr, if_false]
    exact .release (.refl _)

theorem alike_sessionSendBufPending : Alike sessionSendBufPending Yamux.sessionSendBufPending :=
  .acquire (.refl _)

theorem alike_sessionSendBufPeek (n : Nat) :
    Alike (sessionSendBufPeek n) (Yamux.sessionSendBufPeek n) := .acquire (.refl _)

theorem alike_sessionSendBufConsume (n : Nat) :
    Alike (sessionSendBufConsume n) (Yamux.sessionSendBufConsume n) := .acquire (.refl _)

theorem alike_sessionOpen (tries : Nat) :
    Alike (sessionOpen tries) (Yamux.sessionOpen tries) := by
  apply Alike.after
  intro leaving
  apply Alike.ite (.refl _)
  apply Alike.after
  rintro (_ | id)
  · exact .refl _
  · apply (alike_streamNew _).bind
    intro created
    apply Alike.ite _ (.refl _)
    apply alike_sendWindowUpdate.bind
    intro r
    exact .ite (alike_sessionRemoveStream.bind fun _ => .refl _) (.refl _)

theorem alike_sessionAccept : Alike sessionAccept Yamux.sessionAccept := by
  apply Alike.after
  intro io
  apply Alike.ite _ (alike_goAway _)
  apply Alike.after
  intro _
  apply Alike.after
  rintro (_ | id)
  · exact .refl _
  · apply alike_sessionFindStream.bind
    intro live
    apply Alike.after
    intro _
    exact alike_sendWindowUpdate.bind fun _ => .refl _

theorem alike_forget {α : Type} {p q : Op α} (h : Alike p q) : Alike (forget p) (forget q) :=
  h.bind fun _ => .refl _

/-- Every call has the ends that it has with atomic sections. -/
theorem alike_code (c : Api) : Alike (code c) c.code := by
  cases c with
  | recvBufWrite data => exact alike_forget (alike_sessionRecvBufWrite data)
  | process => exact alike_forget alike_sessionProcess
  | sendBufPending => exact alike_forget alike_sessionSendBufPending
  | sendBufPeek n => exact alike_forget (alike_sessionSendBufPeek n)
  | sendBufConsume n => exact alike_forget (alike_sessionSendBufConsume n)
  | openStream tries => exact alike_forget (alike_sessionOpen tries)
  | acceptStream => exact alike_forget alike_sessionAccept
  | read id size => exact alike_forget (alike_streamRead size)
  | write id data => exact alike_forget (alike_streamWrite data)
  | goAway => exact alike_forget (alike_sessionGoAwayForReason _)

/-- A call alone has the result and the effect of a run with atomic sections. -/
theorem run_code (c : Api) (ans : Answers Call) (s : Session) : ∃ ans',
    (c.code.run ans' s).1 = ((code c).run ans s).1 ∧
      (c.code.run ans' s).2.2 = ((code c).run ans s).2.2 := (alike_code c).run ans s

/-- Every run with atomic sections is one of the call alone. -/
theorem run_atomic (c : Api) (ans : Answers Call) (s : Session) : ∃ ans',
    ((code c).run ans' s).1 = (c.code.run ans s).1 ∧
      ((code c).run ans' s).2.2 = (c.code.run ans s).2.2 := (alike_code c).symm.run ans s

/-- Calls one after the other. -/
def inTurn (program : Api → Op Unit) : List Api → Op Unit
  | [] => pure ()
  | c :: cs => do
    program c
    inTurn program cs

theorem alike_inTurn (cs : List Api) : Alike (inTurn code cs) (inTurn Api.code cs) := by
  induction cs with
  | nil => exact .refl _
  | cons c cs ih => exact (alike_code c).bind fun _ => ih

/-- Calls that take and release their mutexes one by one end as they do with atomic sections, and
in no other ways, whatever their calls to the environment return. -/
theorem sections_atomic (cs : List Api) (s t : Session) (o : Outcome Unit) :
    (∃ ans ans', (inTurn code cs).run ans s = (o, ans', t)) ↔
      ∃ ans ans', (inTurn Api.code cs).run ans s = (o, ans', t) := by
  rw [← reaches_iff_run, ← reaches_iff_run]
  exact alike_inTurn cs s o t

end Yamux.Locking
