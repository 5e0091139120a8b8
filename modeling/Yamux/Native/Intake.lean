import Yamux.Core.Tracking
import Yamux.Native.Changes

/-!
# The actions of the receive path

`session_process` changes the session in few ways: it reads a header, works on the stream
of the header, and creates a stream for a SYN, which it queues for `session_accept` or
removes again. The local state of its thread is the stream that it has created last, so
that a stream is removed only by the thread that has created it.
-/

namespace Yamux

open Core Prog

/-- What the receive path does to a stream: the flags of a header, a slice of a payload, or
credit from the peer. -/
inductive Stream.Received (st : Stream) : Stream → Prop where
  | notified {st' : Stream} (h : st.Notified st') : Received st st'
  | delivered {st' : Stream} (h : st.Delivered st') : Received st st'
  | credit {window delta : UInt32} (h : window = st.sendWindow + delta) :
      Received st { st with sendWindow := window }

/-- One action of a handler: on behalf of a stream, or the remote side is marked as leaving. -/
inductive Handles (s : Session) : Session → Prop where
  | pay {id : UInt32} {t : Session} (h : Pays id Stream.Received s t) : Handles s t
  | remote : Handles s { s with remoteGoAway := true }

/-- One action of the receive path, with the stream that the thread has created last. -/
inductive Intake (s : Session) : Option UInt32 → Session → Option UInt32 → Prop where
  | handle {g : Option UInt32} {t : Session} (h : Handles s t) : Intake s g t g
  | header {g : Option UInt32} :
      Intake s g { s with hdr := s.recvBuf.take hdrSize, recvBuf := s.recvBuf.drop hdrSize } g
  | insert {g : Option UInt32} (id padding : UInt32) (h : s.streams id = none) :
      Intake s g (s.setStream id (Stream.fresh .synReceived padding)) (some id)
  | queue {g : Option UInt32} (id : UInt32) :
      Intake s g { s with accepts := s.accepts ++ [id] } g
  | remove (id : UInt32) :
      Intake s (some id) { s with streams := Function.update s.streams id none } none

/-- The track of the receive path. -/
def intakeTrack : Track Mutex Session (Option UInt32) where
  moves g e g' :=
    match e with
    | .crit _ s t => Intake s g t g'
    | .lock _ | .unlock _ => g' = g
  ends _ := True
  fails _ := True

/-! ## Handlers -/

section Handlers

variable {ok : Call → Bool → Prop} {α : Type} {id : UInt32}

theorem handles_touch {p : Op α} (h : Acts ok (Touches id Stream.Received) p) :
    Acts ok Handles p :=
  h.mono fun _ _ ht => .pay (.touch ht)

/-- The flags of a header, and what only reads the stream. -/
theorem handles_notified {p : Op α} (h : Acts ok (Touches id Stream.Notified) p) :
    Acts ok Handles p :=
  handles_touch (h.mono fun _ _ => Touches.mono fun _ _ => .notified)

theorem handles_pay {p : Op α} (h : Acts ok (Pays id Stream.Delivered) p) : Acts ok Handles p := by
  refine h.mono fun _ _ hp => ?_
  cases hp with
  | touch h => exact .pay (.touch (h.mono fun _ _ => .delivered))
  | input => exact @Handles.pay _ id _ (.input _ _ _)

theorem Handles.refl (s : Session) : Handles s s :=
  @Handles.pay s 0 s (.touch .none)

theorem handles_goAway_then (reason : UInt32) (a : α) : Acts ok Handles (do
    let _ ← sessionGoAwayForReason reason
    pure a : Op α) :=
  handles_touch (@touches_goAway_then ok _ 0 _ reason _ (.pure a))

theorem handles_handleDataHeader : Acts ok Handles handleDataHeader := by
  refine .bind (.read .refl) fun hdr => .bind (.read .refl) fun live => ?_
  split
  · refine .bind (handles_notified (touches_streamProcessFlags _)) fun r => ?_
    split
    · exact handles_goAway_then _ _
    · split
      · exact .pure _
      · refine .bind (.acquire _) fun _ =>
          .bind (handles_touch (touches_readStream _ _)) fun window => ?_
        split
        · exact handles_touch (@touches_goAway_then ok _ 0 _ _ _
            (.bind (.release _) fun _ => .pure _))
        · exact .bind (.release _) fun _ => handles_pay (pays_startPayload _ _)
  · exact handles_pay (pays_startPayload _ _)

/-- `session_handle_window_update`, after the SYN flag was dealt with. -/
theorem handles_updateHeader (hdr : Bytes) : Acts ok Handles (do
    let id := hdrStreamId hdr
    let live ← sessionFindStream id
    if live then do
      let r ← streamProcessFlags id (hdrFlags hdr)
      if r ≠ 0 then do
        let _ ← sessionGoAwayForReason GO_AWAY_PROTO_ERR
        pure (-1)
      else if hdrLength hdr = 0 then pure 0
      else do
        modifyStream [.send id] id fun st =>
          { st with sendWindow := st.sendWindow + hdrLength hdr }
        let woken ← streamWriteableNotify id
        if woken ≠ 0 then do
          let _ ← sessionGoAwayForReason GO_AWAY_INTERNAL_ERR
          pure (-1)
        else pure 0
    else pure 0 : Op Int) := by
  refine .bind (.read .refl) fun live => ?_
  split
  · refine .bind (handles_notified (touches_streamProcessFlags _)) fun r => ?_
    split
    · exact handles_goAway_then _ _
    · split
      · exact .pure _
      · refine .bind (handles_touch (touches_onStream _ _ fun _ => .inr (.credit rfl))) fun _ =>
          .bind (handles_notified (touches_streamWriteableNotify fun _ => .writeable))
            fun woken => ?_
        split
        · exact handles_goAway_then _ _
        · exact .pure _
  · exact .pure _

theorem handles_sessionHandlePing : Acts ok Handles sessionHandlePing := by
  refine .bind (.read .refl) fun _ => .bind (.check _) fun _ => .bind (.read .refl) fun hdr => ?_
  split
  · refine .bind (handles_touch (@touches_sendControl ok 0 _ _ (by decide) _ _ _))
      fun r => ?_
    split
    · exact handles_goAway_then _ _
    · exact .pure _
  · exact .pure _

theorem handles_sessionHandleGoAway : Acts ok Handles sessionHandleGoAway := by
  refine .bind (.read .refl) fun _ => .bind (.check _) fun _ => .bind (.read .refl) fun code => ?_
  split
  · exact .bind (.modify fun _ => .remote) fun _ => .pure _
  · exact .pure _

end Handlers

/-! ## The track of `session_process` -/

section Intake

variable {ok : Call → Bool → Prop} {α β : Type} {g : Option UInt32}

theorem Intake.refl (s : Session) : Intake s g s g := .handle (.refl s)

theorem intake_handles {p : Op α} (hp : Acts ok Handles p) :
    Tracks ok intakeTrack p g fun _ g' => g' = g :=
  .acts hp (fun _ _ _ h => .handle h) (fun _ => rfl) (fun _ => rfl) trivial trivial fun _ => rfl

/-- The work of a handler in front of a program. -/
theorem intake_then {p : Op α} {k : α → Op β} {Q : β → Option UInt32 → Prop}
    (hp : Acts ok Handles p) (hk : ∀ a, Tracks ok intakeTrack (k a) g Q) :
    Tracks ok intakeTrack (p >>= k) g Q := by
  refine (intake_handles hp).bind fun a g' hg => ?_
  rw [show g' = g from hg]
  exact hk a

/-- A program whose local state does not matter in the end. -/
abbrev TakesIn (ok : Call → Bool → Prop) (p : Op α) (g : Option UInt32) : Prop :=
  Tracks ok intakeTrack p g fun _ _ => True

theorem takesIn_handles {p : Op α} (hp : Acts ok Handles p) : TakesIn ok p g :=
  (intake_handles hp).mono fun _ _ _ => trivial

theorem takesIn_incomingStream : TakesIn ok incomingStream g := by
  have same {α : Type} {f : Session → α} : Acts ok Handles (read [] f : Op α) := .read .refl
  refine intake_then same fun _ => intake_then (.check _) fun _ => intake_then same fun i =>
    intake_then same fun leaving => ?_
  split
  · exact takesIn_handles (.bind (handles_touch (@touches_sendControl ok 0 _ _ (by decide) _ _ _))
      fun _ => .pure _)
  · refine intake_then (.read .refl) fun known => ?_
    split
    · exact takesIn_handles (handles_goAway_then _ _)
    · have hnew : Tracks ok intakeTrack (streamNew i .synReceived) g fun created g' =>
          created = true → g' = some i := by
        refine .seq (.query fun stream _ => .seq (.query fun bio _ => .seq (.query fun pair _ =>
          .seq (.query fun setup _ => ?_))))
        split
        · refine intake_then same fun padding => .seq (.seq (.crit fun s => ?_))
          split
          · exact ⟨g, .refl s, .check nofun fun _ => trivial⟩
          · exact ⟨some i, .insert i padding (Option.not_isSome_iff_eq_none.mp ‹_›),
              .check (fun _ => .pure fun _ => rfl) fun _ => trivial⟩
        · exact .pure nofun
      refine hnew.bind fun created g' hg => ?_
      split
      · rename_i hcreated
        obtain rfl := hg hcreated
        refine .bind (Q := fun r g' => r ≠ 0 → g' = some i) (.seq (.query fun io _ => ?_))
          fun r g' hg => ?_
        · split
          · exact .seq (.crit fun s => ⟨_, .queue i, .pure fun h => absurd rfl h⟩)
          · exact (intake_handles (handles_goAway_then _ _)).mono fun _ _ h _ => h
        · dsimp only
          split
          · rename_i hr
            obtain rfl := hg hr
            exact .seq (.seq (.crit fun s => ⟨none, .remove i, .check (fun _ => trivial)
              fun _ => trivial⟩))
          · exact .pure trivial
      · exact takesIn_handles (handles_goAway_then _ _)

/-- The SYN flag and what a handler does then. -/
theorem takesIn_syn {hdr : Bytes} {k : Int → Op α} (hk : ∀ r g, TakesIn ok (k r) g) :
    TakesIn ok ((if hasFlag (hdrFlags hdr) FLAG_SYN then incomingStream else pure 0) >>= k) g := by
  split
  · exact takesIn_incomingStream.bind fun r g' _ => hk r g'
  · exact hk 0 g

theorem takesIn_sessionHandle : TakesIn ok sessionHandle g := by
  have same {α : Type} {f : Session → α} : Acts ok Handles (read [] f : Op α) := .read .refl
  refine intake_then same fun type => ?_
  split
  · refine intake_then same fun newFrame => intake_then same fun hdr => ?_
    split
    · refine takesIn_syn fun r g => ?_
      split
      · exact .pure trivial
      · exact takesIn_handles handles_handleDataHeader
    · exact intake_then (.read .refl) fun live => takesIn_handles (handles_pay (pays_handlePayload _))
  · split
    · refine intake_then same fun _ => intake_then (.check _) fun _ => intake_then same fun hdr =>
        takesIn_syn fun r g => ?_
      split
      · exact .pure trivial
      · exact takesIn_handles (handles_updateHeader hdr)
    · split
      · exact takesIn_handles handles_sessionHandlePing
      · split
        · exact takesIn_handles handles_sessionHandleGoAway
        · exact .pure trivial

theorem takesIn_processRound : TakesIn ok processRound g := by
  refine intake_then (.read .refl) fun pending => intake_then (.read .refl) fun newFrame => ?_
  split
  · exact .pure trivial
  · split
    · exact .pure trivial
    · refine .bind (Q := fun _ _ => True) ?_ fun supported g' _ => ?_
      · split
        · exact .seq (.crit fun s => ⟨g, .header, intake_then (.check _) fun _ => .pure trivial⟩)
        · exact .pure trivial
      · split
        · exact takesIn_sessionHandle.bind fun r g' _ => .pure trivial
        · exact .pure trivial

/-- Every action of `session_process` is one of the receive path. -/
theorem takesIn_sessionProcess : TakesIn ok sessionProcess g := by
  refine intake_then (.acquire _) fun _ => intake_then (.read .refl) fun rounds =>
    .bind (Q := fun _ _ => True) ?_ fun r g' _ => intake_then (.release _) fun _ => .pure trivial
  refine .loop (I := fun _ => True) (fun g _ => ?_) (fun _ _ => trivial) trivial _
  refine takesIn_processRound.mono fun o g' _ => ?_
  cases o <;> trivial

end Intake

end Yamux
