import Yamux.Sending.Acknowledging

/-!
# The course of the streams

The receive path changes streams by the flags of a header, by slices of a payload and by
credit, and creates them in one way. A property of how streams change that holds of these
holds of whole calls of `session_process`, whatever fails in them; the calls of the
application add the changes of their own stream.
-/

namespace Yamux

open Core Prog Session

/-! ## Courses -/

/-- Changes of the stream with an id that add up, and what new streams are and remain. -/
structure Course where
  step : UInt32 → Stream → Stream → Prop
  born : UInt32 → Stream → Prop
  refl : ∀ id st, step id st st
  trans : ∀ {id st st' st''}, step id st st' → step id st' st'' → step id st st''
  grows : ∀ {id st st'}, born id st → step id st st' → born id st'

/-- Every stream is still there and has changed within the course, and so have new ones. -/
structure Course.Follows (C : Course) (s t : Session) : Prop where
  old : ∀ i st, s.streams i = some st → ∃ st', t.streams i = some st' ∧ C.step i st st'
  new : ∀ i st', s.streams i = none → t.streams i = some st' → C.born i st'

/-- What the receive path does to a stream is part of the course. -/
structure Course.Receives (C : Course) : Prop where
  flags : ∀ {id st st' flags}, st.Flagged flags st' → C.step id st st'
  slice : ∀ id (st : Stream) (slice : Bytes), C.step id st { st with
    recvBuf := st.recvBuf ++ slice
    recvWindow := st.recvWindow - UInt32.ofNat slice.length }
  credit : ∀ id (st : Stream) window, C.step id st { st with sendWindow := window }
  readable : ∀ id (st : Stream), C.step id st { st with readable := true }
  writeable : ∀ id (st : Stream), C.step id st { st with writeable := true }
  fresh : ∀ id padding, C.born id (.fresh .synReceived padding)

namespace Course

variable {C : Course} {s t u : Session} {id : UInt32} {st st' : Stream}

namespace Follows

theorem of_streams (h : t.streams = s.streams) : C.Follows s t := by
  refine ⟨fun i st hst => ⟨st, by rw [h]; exact hst, C.refl i st⟩, fun i st' hnone hst' => ?_⟩
  rw [h, hnone] at hst'
  cases hst'

theorem refl (s : Session) : C.Follows s s := of_streams rfl

theorem trans (h : C.Follows s t) (h' : C.Follows t u) : C.Follows s u := by
  refine ⟨fun i st hst => ?_, fun i st'' hnone hst'' => ?_⟩
  · obtain ⟨st', hst', hstep⟩ := h.old i st hst
    obtain ⟨st'', hst'', hstep'⟩ := h'.old i st' hst'
    exact ⟨st'', hst'', C.trans hstep hstep'⟩
  · cases ht : t.streams i with
    | none => exact h'.new i st'' ht hst''
    | some st' =>
      obtain ⟨st₂, hst₂, hstep⟩ := h'.old i st' ht
      obtain rfl := Option.some.inj (hst₂.symm.trans hst'')
      exact C.grows (h.new i st' hnone ht) hstep

/-- One stream changes. -/
theorem setStream (hst : s.streams id = some st) (hstep : C.step id st st') :
    C.Follows s (s.setStream id st') := by
  refine ⟨fun i st₁ hst₁ => ?_, fun i st₁ hnone hst₁ => ?_⟩
  · by_cases hi : i = id
    · subst hi
      obtain rfl := Option.some.inj (hst.symm.trans hst₁)
      exact ⟨st', s.setStream_same i st', hstep⟩
    · exact ⟨st₁, by rw [Session.setStream_of_ne _ _ _ hi]; exact hst₁, C.refl i st₁⟩
  · by_cases hi : i = id
    · subst hi
      rw [hst] at hnone
      cases hnone
    · rw [Session.setStream_of_ne _ _ _ hi, hnone] at hst₁
      cases hst₁

/-- A stream is created. -/
theorem insert (hnone : s.streams id = none) (hborn : C.born id st) :
    C.Follows s (s.setStream id st) := by
  refine ⟨fun i st₁ hst₁ => ⟨st₁, ?_, C.refl i st₁⟩, fun i st₁ hnone₁ hst₁ => ?_⟩
  · have hi : i ≠ id := by
      rintro rfl
      rw [hnone] at hst₁
      cases hst₁
    rw [Session.setStream_of_ne _ _ _ hi]
    exact hst₁
  · by_cases hi : i = id
    · subst hi
      obtain rfl := Option.some.inj ((s.setStream_same i st).symm.trans hst₁)
      exact hborn
    · rw [Session.setStream_of_ne _ _ _ hi, hnone₁] at hst₁
      cases hst₁

/-- A stream that was not there before is removed. -/
theorem remove (h : C.Follows s t) (hnone : s.streams id = none) :
    C.Follows s { t with streams := Function.update t.streams id none } := by
  refine ⟨fun i st hst => ?_, fun i st' hs hst' => ?_⟩
  · have hi : i ≠ id := by
      rintro rfl
      rw [hnone] at hst
      cases hst
    obtain ⟨st', hst', hstep⟩ := h.old i st hst
    exact ⟨st', (Function.update_of_ne hi _ _).trans hst', hstep⟩
  · change Function.update t.streams id none i = some st' at hst'
    by_cases hi : i = id
    · rw [hi, Function.update_self] at hst'
      cases hst'
    · rw [Function.update_of_ne hi] at hst'
      exact h.new i st' hs hst'

/-- An action on behalf of a stream. -/
theorem of_touches {N : Stream → Stream → Prop} (hN : ∀ st st', N st st' → C.step id st st')
    (h : Touches id N s t) : C.Follows s t := by
  cases h with
  | none => exact .refl s
  | send | leave => exact .of_streams rfl
  | stream hst h => exact .setStream hst (hN _ _ h)

end Follows

section Acts

variable {ok : Call → Bool → Prop} {ans : Answers Call} {α : Type}

theorem ends_follows {p : Op α} (hp : Acts ok C.Follows p) :
    Ends ok (fun _ _ t => C.Follows s t) p ans s :=
  Ends.acts .refl .trans hp

/-- Work after a first part that followed the course. -/
theorem ends_follows_after {p : Op α} (h : C.Follows s u) (hp : Acts ok C.Follows p) :
    Ends ok (fun _ _ t => C.Follows s t) p ans u :=
  (ends_follows hp).mono fun _ _ _ ht => h.trans ht

theorem follows_onStream {ms : List Mutex} {g : Stream → α × Stream}
    (hg : ∀ st, C.step id st (g st).2) : Acts ok C.Follows (onStream ms id g) :=
  (touches_onStream (N := C.step id) ms g fun st => .inr (hg st)).mono
    fun _ _ => .of_touches fun _ _ h => h

theorem follows_readStream {ms : List Mutex} {g : Stream → α} :
    Acts ok C.Follows (readStream ms id g) :=
  follows_onStream fun st => C.refl id st

theorem follows_goAway (reason : UInt32) : Acts ok C.Follows (sessionGoAwayForReason reason) :=
  (beside_sessionGoAwayForReason reason).mono fun _ _ h => .of_streams h.streams

theorem follows_goAway_then (reason : UInt32) {p : Op α} (hp : Acts ok C.Follows p) :
    Acts ok C.Follows (sessionGoAwayForReason reason >>= fun _ => p) :=
  .bind (follows_goAway reason) fun _ => hp

/-! ## The receive path -/

/-- A slice fits a node, so it is delivered and taken off the window whole or not at all. -/
theorem follows_deliverSlice (hC : C.Receives) {size : Nat} (hsize : size ≤ sliceSize) :
    Acts ok C.Follows (deliverSlice id size) := by
  refine .read_bind .refl fun s => ?_
  have hnode : (s.recvBuf.take size).length ≤ Bio.nodeSize := by
    rw [List.length_take]
    exact (min_le_left _ _).trans hsize
  generalize s.recvBuf.take size = slice at hnode ⊢
  by_cases h0 : slice = []
  · have hfails : decide (0 < toInt32 slice.length) = false := by
      rw [h0, List.length_nil, toInt32_eq (by decide)]
      decide
    rw [hfails]
    trivial
  have hr : toInt32 slice.length ≠ -1 := by
    rw [toInt32_eq (lt_of_le_of_lt hnode (by decide))]
    omega
  refine .bind (.check _) fun _ => .bind (.acquire _) fun _ => acts_bioWrite_bind h0 hnode ?_ ?_
  · refine .bind (follows_onStream fun st => ?_) fun _ => ?_
    · dsimp only
      rw [if_neg hr]
      exact hC.slice id st slice
    · rw [if_neg hr]
      refine .bind (.release _) fun _ => .bind ?_ fun woken => ?_
      · exact (touches_streamReadableNotify (N := C.step id) fun st => hC.readable id st).mono
          fun _ _ => .of_touches fun _ _ h => h
      · split
        · exact follows_goAway_then _ (.pure _)
        · exact .pure _
  · refine .bind (follows_onStream fun st => ?_) fun _ => ?_
    · dsimp only
      rw [if_pos rfl, List.append_nil]
      exact C.refl id st
    · rw [if_pos rfl]
      exact follows_goAway_then _ (.bind (.release _) fun _ => .pure _)

theorem follows_handlePayload (hC : C.Receives) (live : Bool) :
    Acts ok C.Follows (handlePayload id live) := by
  refine .bind (.read .refl) fun remain => .bind (.loop ?_ _) fun r => ?_
  · refine .bind (.read .refl) fun remain => .bind (.read .refl) fun pending => ?_
    split
    · exact .pure _
    · refine .bind ?_ fun moved => ?_
      · split
        · exact follows_deliverSlice hC (min_le_right _ _)
        · exact .pure _
      · cases moved with
        | none => exact .pure _
        | some r => exact .bind (.modify fun _ => .of_streams rfl) fun _ => .pure _
  · split
    · exact .pure _
    · exact .bind (.modify fun _ => .of_streams rfl) fun _ => .pure _

theorem follows_startPayload (hC : C.Receives) (live : Bool) (len : UInt32) :
    Acts ok C.Follows (startPayload id live len) :=
  .bind (.modify fun _ => .of_streams rfl) fun _ => follows_handlePayload hC live

theorem ends_follows_flags (hC : C.Receives) (hst : u.streams id = some st) (flags : UInt16) :
    Ends ok (fun _ _ t => C.Follows u t) (streamProcessFlags id flags) ans u :=
  ends_processFlags hst (fun _ _ => .refl u) fun _ _ h => .setStream hst (hC.flags h)

theorem ends_follows_dataHeader (hC : C.Receives) :
    Ends ok (fun _ _ t => C.Follows u t) handleDataHeader ans u := by
  refine .seq (.read (.seq (.read ?_)))
  cases hst : u.streams (hdrStreamId u.hdr) with
  | none => exact ends_follows (follows_startPayload hC _ _)
  | some st =>
    rw [if_pos (show (some st).isSome = true from rfl)]
    refine .seq ((ends_follows_flags hC hst _).mono fun r ans₁ t ht => ?_)
    split
    · exact ends_follows_after ht (follows_goAway_then _ (.pure _))
    · split
      · exact .pure ht
      · refine ends_follows_after ht (.bind (.acquire _) fun _ =>
          .bind follows_readStream fun window => ?_)
        split
        · exact follows_goAway_then _ (.bind (.release _) fun _ => .pure _)
        · exact .bind (.release _) fun _ => follows_startPayload hC _ _

/-- The part of `session_handle_window_update` after the SYN flag was dealt with. -/
theorem ends_follows_updateHeader (hC : C.Receives) (hdr : Bytes) :
    Ends ok (fun _ _ t => C.Follows u t) (do
      let id := hdrStreamId hdr
      let live ← sessionFindStream id
      if live then do
        let r ← streamProcessFlags id (hdrFlags hdr)
        if r ≠ 0 then do
          let _ ← sessionGoAwayForReason GO_AWAY_PROTO_ERR
          pure (-1)
        else if hdrLength hdr = 0 then pure 0
        else do
          modifyStream [.send id] id fun st =>
            { st with sendWindow := st.sendWindow + hdrLength hdr }
          let woken ← streamWriteableNotify id
          if woken ≠ 0 then do
            let _ ← sessionGoAwayForReason GO_AWAY_INTERNAL_ERR
            pure (-1)
          else pure 0
      else pure 0 : Op Int) ans u := by
  refine .seq (.read ?_)
  cases hst : u.streams (hdrStreamId hdr) with
  | none => exact .pure (.refl u)
  | some st =>
    rw [if_pos (show (some st).isSome = true from rfl)]
    refine .seq ((ends_follows_flags hC hst _).mono fun r ans₁ t ht => ?_)
    split
    · exact ends_follows_after ht (follows_goAway_then _ (.pure _))
    · split
      · exact .pure ht
      · refine ends_follows_after ht (.bind (follows_onStream fun st => hC.credit _ st _) fun _ =>
          .bind ?_ fun woken => ?_)
        · exact (touches_streamWriteableNotify (N := C.step _) fun st => hC.writeable _ st).mono
            fun _ _ => .of_touches fun _ _ h => h
        · split
          · exact follows_goAway_then _ (.pure _)
          · exact .pure _

/-- The SYN flag and what the handler does then. -/
theorem ends_follows_syn (hC : C.Receives) {hdr : Bytes} {p : Op Int}
    (hp : ∀ ans' u, Ends ok (fun _ _ t => C.Follows u t) p ans' u) :
    Ends ok (fun _ _ t => C.Follows s t) (do
      let r ← (if hasFlag (hdrFlags hdr) FLAG_SYN then incomingStream else pure 0)
      if r ≠ 0 then pure (-1) else p) ans s := by
  have rest {u : Session} {ans₁ : Answers Call} {r : Int} (hu : C.Follows s u) :
      Ends ok (fun _ _ t => C.Follows s t) (if r ≠ 0 then pure (-1) else p) ans₁ u := by
    split
    · exact .pure hu
    · exact (hp ans₁ u).mono fun _ _ _ ht => hu.trans ht
  split
  · refine .seq (ends_syn (fun _ ans₁ t hstreams _ _ => rest (.of_streams hstreams))
      (fun ans₁ t _ hstreams _ => rest (.of_streams hstreams))
      (fun ans₁ t _ hstreams _ _ _ => rest (.of_streams hstreams)) fun _ hnone ans₁ => ?_)
    exact rest ((Follows.insert hnone (hC.fresh _ _)).trans (.of_streams rfl))
  · exact .seq (.pure (rest (.refl s)))

theorem ends_follows_handle (hC : C.Receives) :
    Ends ok (fun _ _ t => C.Follows s t) sessionHandle ans s := by
  refine .seq (.read ?_)
  split
  · refine .seq (.read (.seq (.read ?_)))
    split
    · exact ends_follows_syn hC fun _ _ => ends_follows_dataHeader hC
    · exact .seq (.read (ends_follows (follows_handlePayload hC _)))
  · split
    · exact .seq (.read (.seq (.check fun _ => .seq (.read
        (ends_follows_syn hC fun _ _ => ends_follows_updateHeader hC _)))))
    · split
      · exact ends_follows (beside_sessionHandlePing.mono fun _ _ h => .of_streams h.streams)
      · split
        · exact ends_follows (beside_sessionHandleGoAway.mono fun _ _ h => .of_streams h.streams)
        · exact .pure (.refl s)

/-- A round of `session_process` follows the course. -/
theorem ends_follows_round (hC : C.Receives) :
    Ends ok (fun _ _ t => C.Follows s t) processRound ans s := by
  refine .seq (.read (.seq (.read ?_)))
  split
  · exact .pure (.refl s)
  · split
    · exact .pure (.refl s)
    · split
      · refine .seq (.seq (.crit (.seq (.check fun _ => .pure ?_))))
        split
        · have hread : C.Follows s { s with
              hdr := s.recvBuf.take hdrSize
              recvBuf := s.recvBuf.drop hdrSize } := .of_streams rfl
          exact .seq ((ends_follows_handle hC).mono fun r ans₁ t ht => .pure (hread.trans ht))
        · exact .pure (.of_streams rfl)
      · refine .seq (.pure ?_)
        rw [if_pos rfl]
        exact .seq ((ends_follows_handle hC).mono fun r ans₁ t ht => .pure ht)

/-- So do all rounds of a call together. -/
theorem follows_rounds (hC : C.Receives) {ans' : Answers Call}
    (h : Rounds processRound ans s ans' t) : C.Follows s t := by
  induction h with
  | start => exact .refl s
  | next _ hround ih =>
    exact ih.trans (ends_follows_round hC (allowed_anyAnswer _) _ _ _ hround)

/-- So does a call of `session_process`. -/
theorem follows_process (hC : C.Receives) {ans' : Answers Call} {r : Int}
    (h : sessionProcess.run ans s = (.ret r, ans', t)) : C.Follows s t := by
  obtain ⟨ans₁, u, hrounds, hexit⟩ := sessionProcess_exits h
  exact (follows_rounds hC hrounds).trans
    (ends_follows_round hC (allowed_anyAnswer _) _ _ _ hexit)

end Acts

end Course

end Yamux
