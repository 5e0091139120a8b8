import Yamux.Core.Interference
import Yamux.Native.Session

/-!
# Operations that leave the input alone

An operation is quiet when it returns, whichever of its calls fail, and leaves
the input side of the session as it was and every stream in place. All handlers
of incoming frames are quiet up to the payload of a DATA frame.
-/

namespace Yamux

open Core Prog

/-- Socket calls succeed; an allocation may fail. -/
def socketsOk (c : Call) (b : Bool) : Prop := c = .sock → b = true

theorem socketsOk_true (c : Call) : socketsOk c true := fun _ => rfl

/-- What a session between two rounds satisfies: a frame in progress is a DATA
frame with payload to come. -/
def Session.RxOk (s : Session) : Prop :=
  s.newFrame = false → hdrType s.hdr = TYPE_DATA ∧ s.frameRemain ≠ 0

/-- The input side of a session is as it was, and no stream is gone. -/
structure Keeps (s t : Session) : Prop where
  newFrame : t.newFrame = s.newFrame
  frameRemain : t.frameRemain = s.frameRemain
  recvBuf : t.recvBuf = s.recvBuf
  hdr : t.hdr = s.hdr
  streams : ∀ i, (s.streams i).isSome → (t.streams i).isSome

namespace Keeps

variable {s t u : Session}

theorem refl (s : Session) : Keeps s s := ⟨rfl, rfl, rfl, rfl, fun _ h => h⟩

theorem trans (h : Keeps s t) (h' : Keeps t u) : Keeps s u :=
  ⟨h'.newFrame.trans h.newFrame, h'.frameRemain.trans h.frameRemain, h'.recvBuf.trans h.recvBuf,
    h'.hdr.trans h.hdr, fun i hi => h'.streams i (h.streams i hi)⟩

theorem rxOk (h : Keeps s t) (hs : s.RxOk) : t.RxOk := by
  intro hn
  rw [h.hdr, h.frameRemain]
  exact hs (h.newFrame ▸ hn)

theorem setStream (s : Session) (id : UInt32) (st : Stream) : Keeps s (s.setStream id st) := by
  refine ⟨rfl, rfl, rfl, rfl, fun i hi => ?_⟩
  rw [Session.setStream_streams]
  split
  · rfl
  · exact hi

end Keeps

/-- The operation returns, whichever of the allowed failures happen, and keeps the
input side. -/
def Quiet {α : Type} (ok : Call → Bool → Prop) (p : Op α) (s : Session) : Prop :=
  (Env.alone ok).wp p (fun o t => (∃ a, o = .ret a) ∧ Keeps s t) s

section Quiet

variable {α β : Type} {ok : Call → Bool → Prop} {s : Session} {id : UInt32}

/-- What follows a quiet operation may rely on the input side. -/
theorem Quiet.bind {p : Op α} {g : α → Op β} {Q : Outcome β → Session → Prop} (hp : Quiet ok p s)
    (hg : ∀ a t, Keeps s t → (Env.alone ok).wp (g a) Q t) :
    (Env.alone ok).wp (p >>= g) Q s := by
  refine Env.wp_bind _ |>.mpr (Env.wp_mono _ hp ?_)
  rintro o t ⟨⟨a, rfl⟩, ht⟩
  exact hg a t ht

theorem quiet_bind {p : Op α} {g : α → Op β} (hp : Quiet ok p s)
    (hg : ∀ a t, Keeps s t → Quiet ok (g a) t) : Quiet ok (p >>= g) s :=
  hp.bind fun a t ht => Env.wp_mono _ (hg a t ht) fun _ _ hu => ⟨hu.1, ht.trans hu.2⟩

theorem quiet_pure (a : α) : Quiet ok (pure a) s :=
  Env.alone_pure.mpr ⟨⟨a, rfl⟩, Keeps.refl s⟩

theorem quiet_read {ms : List Mutex} {g : Session → α} : Quiet ok (read ms g) s :=
  Env.alone_read.mpr ⟨⟨_, rfl⟩, Keeps.refl s⟩

theorem quiet_modify {ms : List Mutex} {f : Session → Session} (h : Keeps s (f s)) :
    Quiet ok (modify ms f) s :=
  Env.alone_modify.mpr ⟨⟨_, rfl⟩, h⟩

theorem quiet_query (c : Call) : Quiet ok (query c) s :=
  Env.alone_query.mpr fun b _ => ⟨⟨b, rfl⟩, Keeps.refl s⟩

theorem quiet_acquire (m : Mutex) : Quiet ok (acquire m) s :=
  Env.alone_acquire.mpr ⟨⟨_, rfl⟩, Keeps.refl s⟩

theorem quiet_release (m : Mutex) : Quiet ok (release m) s :=
  Env.alone_release.mpr ⟨⟨_, rfl⟩, Keeps.refl s⟩

theorem alone_onStream {ms : List Mutex} {g : Stream → α × Stream}
    {st : Stream} {Q : Outcome α → Session → Prop} (h : s.streams id = some st) :
    (Env.alone ok).wp (onStream ms id g) Q s ↔ Q (.ret (g st).1) (s.setStream id (g st).2) := by
  simp [onStream, Env.wp, Env.alone, h]

theorem quiet_onStream {ms : List Mutex} {g : Stream → α × Stream}
    (h : (s.streams id).isSome) : Quiet ok (onStream ms id g) s := by
  obtain ⟨st, hst⟩ := Option.isSome_iff_exists.mp h
  exact (alone_onStream hst).mpr ⟨⟨_, rfl⟩, Keeps.setStream s id _⟩

theorem quiet_writeNodes (fuel : Nat) (rest : Bytes) :
    Quiet ok (Bio.writeNodes fuel rest) s := by
  induction fuel generalizing rest s with
  | zero => exact quiet_pure _
  | succ fuel ih =>
    rw [Bio.writeNodes]
    split
    · exact quiet_pure _
    · refine quiet_bind (quiet_query _) fun ok t _ => ?_
      split
      · exact quiet_bind (ih _) fun _ _ _ => quiet_pure _
      · exact quiet_pure _

theorem quiet_bioWrite (buf : Bytes) : Quiet ok (bioWrite buf) s :=
  quiet_bind (quiet_writeNodes _ _) fun _ _ _ => quiet_pure _

theorem quiet_sessionSendBufWrite (data : Bytes) : Quiet ok (sessionSendBufWrite data) s :=
  quiet_bind (quiet_bioWrite data) fun _ _ _ =>
    quiet_bind (quiet_modify ⟨rfl, rfl, rfl, rfl, fun _ h => h⟩) fun _ _ _ => quiet_pure _

theorem quiet_sessionGoAwayForReason (reason : UInt32) :
    Quiet ok (sessionGoAwayForReason reason) s :=
  quiet_bind (quiet_modify ⟨rfl, rfl, rfl, rfl, fun _ h => h⟩) fun _ _ _ =>
    quiet_bind (quiet_sessionSendBufWrite _) fun _ _ _ => quiet_pure _

theorem quiet_goAway_then (reason : UInt32) (a : α) :
    Quiet ok (do let _ ← sessionGoAwayForReason reason; pure a) s :=
  quiet_bind (quiet_sessionGoAwayForReason reason) fun _ _ _ => quiet_pure a

theorem quiet_streamReadableNotify (h : (s.streams id).isSome) :
    Quiet ok (streamReadableNotify id) s :=
  quiet_bind (quiet_query _) fun _ _ ht => quiet_onStream (ht.streams id h)

theorem quiet_streamWriteableNotify (h : (s.streams id).isSome) :
    Quiet ok (streamWriteableNotify id) s :=
  quiet_bind (quiet_query _) fun _ _ ht =>
    quiet_bind (quiet_query _) fun _ _ hu => quiet_onStream (hu.streams id (ht.streams id h))

theorem quiet_streamNotifyWaiting (h : (s.streams id).isSome) :
    Quiet ok (streamNotifyWaiting id) s :=
  quiet_bind (quiet_streamWriteableNotify h) fun _ _ ht =>
    quiet_bind (quiet_streamReadableNotify (ht.streams id h)) fun _ _ _ => quiet_pure _

theorem quiet_streamProcessAck (h : (s.streams id).isSome) (flags : UInt16) :
    Quiet ok (streamProcessAck id flags) s := by
  unfold streamProcessAck
  split
  · exact quiet_onStream h
  · exact quiet_pure _

theorem quiet_streamProcessFin (h : (s.streams id).isSome) (flags : UInt16) :
    Quiet ok (streamProcessFin id flags) s := by
  have close (state : StreamState) {t : Session} (ht : Keeps s t) : Quiet ok (do
      modifyStream [] id fun st => { st with state := state }
      streamNotifyWaiting id
      pure true) t :=
    quiet_bind (quiet_onStream (ht.streams id h)) fun _ _ hu =>
      quiet_bind (quiet_streamNotifyWaiting (hu.streams id (ht.streams id h))) fun _ _ _ =>
        quiet_pure _
  unfold streamProcessFin
  split
  · refine quiet_bind (quiet_onStream h) fun state t ht => ?_
    cases state with
    | synSent | synReceived | established => exact close .remoteClose ht
    | localClose => exact close .closed ht
    | init | remoteClose | closed | reset => exact quiet_pure _
  · exact quiet_pure _

theorem quiet_streamProcessRst (h : (s.streams id).isSome) (flags : UInt16) :
    Quiet ok (streamProcessRst id flags) s := by
  unfold streamProcessRst
  split
  · exact quiet_bind (quiet_onStream h) fun _ _ ht => quiet_streamNotifyWaiting (ht.streams id h)
  · exact quiet_pure _

theorem quiet_streamProcessFlags (h : (s.streams id).isSome) (flags : UInt16) :
    Quiet ok (streamProcessFlags id flags) s := by
  refine quiet_bind (quiet_acquire _) fun _ t ht => ?_
  refine quiet_bind (quiet_streamProcessAck (ht.streams id h) flags) fun _ u hu => ?_
  have hu' := hu.streams id (ht.streams id h)
  refine quiet_bind (quiet_streamProcessFin hu' flags) fun legal v hv => ?_
  split
  · exact quiet_bind (quiet_streamProcessRst (hv.streams id hu') flags) fun _ _ _ =>
      quiet_bind (quiet_release _) fun _ _ _ => quiet_pure _
  · exact quiet_bind (quiet_release _) fun _ _ _ => quiet_pure _

theorem quiet_sendWindowUpdate (h : (s.streams id).isSome) : Quiet ok (sendWindowUpdate id) s := by
  refine quiet_bind (quiet_onStream h) fun flags t ht => ?_
  refine quiet_bind (quiet_onStream (ht.streams id h)) fun delta u _ => ?_
  cases delta with
  | none => exact quiet_pure _
  | some delta => exact quiet_bind (quiet_sessionSendBufWrite _) fun _ _ _ => quiet_pure _

/-- A stream is created under a free id, or nothing happens. -/
theorem alone_streamNew (h : s.streams id = none)
    (state : StreamState) :
    (Env.alone ok).wp (streamNew id state) (fun o t => (o = .ret false ∧ t = s) ∨
      (o = .ret true ∧ t = s.setStream id (Stream.fresh state s.rcvbuf))) s := by
  refine Env.wp_bind _ |>.mpr (Env.alone_query.mpr fun stream _ => ?_)
  refine Env.wp_bind _ |>.mpr (Env.alone_query.mpr fun bio _ => ?_)
  refine Env.wp_bind _ |>.mpr (Env.alone_query.mpr fun pair _ => ?_)
  refine Env.wp_bind _ |>.mpr (Env.alone_query.mpr fun setup _ => ?_)
  rw [Env.post_ret]
  split
  · simp only [sessionInsertStream, Env.wp_bind, Env.alone_read, Env.post_ret, Env.alone_crit, h,
      Option.isSome_none, Bool.false_eq_true, if_false, Env.alone_check, if_true,
      Env.alone_pure]
    exact .inr ⟨trivial, trivial⟩
  · exact Env.alone_pure.mpr (.inl ⟨rfl, rfl⟩)

theorem quiet_streamNew (h : s.streams id = none) (state : StreamState) :
    Quiet ok (streamNew id state) s := by
  refine Env.wp_mono _ (alone_streamNew h state) ?_
  rintro o t (⟨rfl, rfl⟩ | ⟨rfl, rfl⟩)
  · exact ⟨⟨false, rfl⟩, Keeps.refl _⟩
  · exact ⟨⟨true, rfl⟩, Keeps.setStream s id _⟩

/-- A stream that was just created is removed again. -/
theorem quiet_streamFree {t : Session} {st : Stream} (h : s.streams id = none)
    (ht : Keeps (s.setStream id st) t) :
    (Env.alone ok).wp (streamFree id) (fun o u => o = .ret () ∧ Keeps s u) t := by
  have hid : (t.streams id).isSome := ht.streams id (by rw [Session.setStream_same]; rfl)
  simp only [streamFree, sessionRemoveStream, Env.wp_bind, Env.alone_crit, Env.post_ret, hid,
    Env.alone_check, if_true]
  refine ⟨trivial, ht.newFrame, ht.frameRemain, ht.recvBuf, ht.hdr, fun i hi => ?_⟩
  have hne : i ≠ id := by
    rintro rfl
    rw [h] at hi
    cases hi
  have hsame : Function.update t.streams id none i = t.streams i := Function.update_of_ne hne _ _
  have hi' : ((s.setStream id st).streams i).isSome := by
    rw [s.setStream_of_ne id st hne]
    exact hi
  change (Function.update t.streams id none i).isSome
  rw [hsame]
  exact ht.streams i hi'

theorem quiet_notifyAccept : Quiet ok (notifyAccept id) s := by
  refine quiet_bind (quiet_query _) fun io t _ => ?_
  split
  · exact quiet_bind (quiet_modify ⟨rfl, rfl, rfl, rfl, fun _ hi => hi⟩) fun _ _ _ => quiet_pure _
  · exact quiet_goAway_then _ _

theorem quiet_incomingStream (hn : s.newFrame = true) : Quiet ok incomingStream s := by
  have hleave (t : Session) (reason : UInt32) : Quiet ok (do
      let _ ← sessionGoAwayForReason reason
      pure (-1) : Op Int) t := quiet_goAway_then reason _
  simp only [incomingStream, Quiet, sessionFindStream, Env.wp_bind, Env.alone_read,
    Env.post_ret, Env.alone_check, hn, if_true]
  cases s.localGoAway
  · simp only [Bool.false_eq_true, if_false, Env.wp_bind, Env.alone_read, Env.post_ret]
    cases hst : s.streams (hdrStreamId s.hdr) with
    | some st => exact hleave s _
    | none =>
      refine Env.wp_bind _ |>.mpr (Env.wp_mono _ (alone_streamNew hst _) ?_)
      rintro o t (⟨rfl, rfl⟩ | ⟨rfl, rfl⟩)
      · exact hleave t _
      · rw [Env.post_ret, if_pos rfl]
        refine quiet_notifyAccept.bind fun r u hu => ?_
        split
        · refine Env.wp_bind _ |>.mpr (Env.wp_mono _ (quiet_streamFree hst hu) ?_)
          rintro o v ⟨rfl, hv⟩
          rw [Env.post_ret, Env.alone_pure]
          exact ⟨⟨0, rfl⟩, hv⟩
        · exact Env.alone_pure.mpr ⟨⟨0, rfl⟩, (Keeps.setStream s _ _).trans hu⟩
  · exact quiet_bind (quiet_sessionSendBufWrite _) fun _ _ _ => quiet_pure _

end Quiet

end Yamux
