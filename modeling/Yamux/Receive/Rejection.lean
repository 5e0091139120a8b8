import Yamux.Readiness.Calls
import Yamux.Receive.Draining
import Yamux.Native.Sends

/-!
# Frames that break the protocol

A frame for which the session goes away with a protocol error: a SYN for a stream that
exists, a FIN in the wrong state, or a payload for which there is no window. The first
two leave the streams as they were. The check of the window comes after the flags,
which keep their effect.
-/

namespace Yamux

open Core Prog Session

/-! ## What is queued -/

/-- The go away that reports a broken protocol. -/
def protoError : Bytes := hdrEncode TYPE_GO_AWAY 0 0 GO_AWAY_PROTO_ERR

/-- A protocol error was reported last. -/
def Session.Blames (s t : Session) : Prop := ∃ w, t.sendBuf = s.sendBuf ++ w ++ protoError

/-- Only headers other than this one were queued. -/
def Session.Spares (s t : Session) : Prop :=
  ∃ hs : List Bytes, (∀ h ∈ hs, h.length = hdrSize ∧ h ≠ protoError) ∧
    t.sendBuf = s.sendBuf ++ hs.flatten

variable {s t u : Session} {id : UInt32}

theorem spares_of_eq (h : t.sendBuf = s.sendBuf) : Spares s t := Sends.of_eq h

theorem Session.Spares.refl (s : Session) : Spares s s := Sends.refl s

theorem Session.Spares.trans (h : Spares s t) (h' : Spares t u) : Spares s u := Sends.trans h h'

/-- What was spared was not blamed. -/
theorem Session.Spares.not_blames (h : Spares s t) : ¬ Blames s t := by
  rintro ⟨w, hw⟩
  obtain ⟨hs, hne, he⟩ := h
  rw [hw, List.append_assoc, List.append_cancel_left_eq] at he
  have hlen : protoError.length = hdrSize := length_hdrEncode _ _ _ _
  rcases List.eq_nil_or_concat hs with rfl | ⟨front, last, rfl⟩
  · have hz := congrArg List.length he
    rw [List.flatten_nil, List.length_append, hlen] at hz
    exact absurd hz (by simp [hdrSize])
  · rw [List.concat_eq_append] at he hne
    obtain ⟨hl, hlast⟩ := hne last (List.mem_append_right _ List.mem_cons_self)
    rw [List.flatten_append, List.flatten_singleton] at he
    exact hlast (List.append_inj_right' he (hlen.trans hl.symm)).symm

theorem refusal_ne (id : UInt32) : hdrEncode TYPE_WINDOW_UPDATE FLAG_RST id 0 ≠ protoError := by
  intro he
  have htype := congrArg hdrType he
  rw [protoError, hdrType_hdrEncode, hdrType_hdrEncode] at htype
  exact absurd htype (by decide)

theorem pong_ne (len : UInt32) : hdrEncode TYPE_PING FLAG_ACK 0 len ≠ protoError := by
  intro he
  have htype := congrArg hdrType he
  rw [protoError, hdrType_hdrEncode, hdrType_hdrEncode] at htype
  exact absurd htype (by decide)

theorem internalError_ne : hdrEncode TYPE_GO_AWAY 0 0 GO_AWAY_INTERNAL_ERR ≠ protoError := by
  decide

/-! ## Parts of the handlers that report nothing -/

/-- A header that reports no broken protocol. -/
theorem spared_header {type : UInt8} {flags : UInt16} {i len : UInt32}
    (h : hdrEncode type flags i len ≠ protoError) :
    (hdrEncode type flags i len).length = hdrSize ∧ hdrEncode type flags i len ≠ protoError :=
  ⟨length_hdrEncode _ _ _ _, h⟩

section Acts

variable {α : Type} {ok : Call → Bool → Prop}

theorem spares_startPayload (live : Bool) (len : UInt32) :
    Acts ok Spares (startPayload id live len) :=
  sends_startPayload (spared_header internalError_ne) live len

theorem spares_handlePayload (live : Bool) : Acts ok Spares (handlePayload id live) :=
  sends_handlePayload (spared_header internalError_ne) live

theorem spares_internalError {p : Op α} (hp : Acts ok Spares p) :
    Acts ok Spares (sessionGoAwayForReason GO_AWAY_INTERNAL_ERR >>= fun _ => p) :=
  sends_goAway_then (spared_header internalError_ne) hp

end Acts

/-! ## The flags of a frame, whatever fails -/

/-- The stream is in another state, and may be marked as ready. -/
def Stream.Marked (st : Stream) (state : StreamState) (quiet : Prop) (st' : Stream) : Prop :=
  ∃ readable writeable, st' = { st with
      state := state
      readable := readable
      writeable := writeable } ∧ (quiet → readable = st.readable ∧ writeable = st.writeable)

theorem Stream.Marked.same (st : Stream) (quiet : Prop) : st.Marked st.state quiet st :=
  ⟨st.readable, st.writeable, rfl, fun _ => ⟨rfl, rfl⟩⟩

theorem Stream.Marked.trans {st st₁ st₂ : Stream} {state state' : StreamState}
    {quiet quiet' : Prop} (h : st.Marked state quiet st₁) (h' : st₁.Marked state' quiet' st₂) :
    st.Marked state' (quiet ∧ quiet') st₂ := by
  obtain ⟨r, w, rfl, hsame⟩ := h
  obtain ⟨r', w', rfl, hsame'⟩ := h'
  refine ⟨r', w', rfl, fun hq => ?_⟩
  rw [(hsame' hq.2).1, (hsame' hq.2).2]
  exact hsame hq.1

/-- What the flags of a frame do to a stream when notifications may fail. -/
def Stream.Flagged (st : Stream) (flags : UInt16) (st' : Stream) : Prop :=
  ∃ st₁, st.processFlags flags = some st₁ ∧ st.Marked st₁.state
    (hasFlag flags FLAG_FIN = false ∧ hasFlag flags FLAG_RST = false) st'

section Ends

variable {ok : Call → Bool → Prop} {ans : Answers Call} {st : Stream} {flags : UInt16}

theorem ends_notify {Q : Unit → Answers Call → Session → Prop} (h : s.streams id = some st)
    (hQ : ∀ st' ans', st.Marked st.state False st' → Q () ans' (s.setStream id st')) :
    Ends ok Q (streamNotifyWaiting id) ans s := by
  have hwrite {Q : Int → Answers Call → Session → Prop}
      (hQ : ∀ r w ans', Q r ans' (s.setStream id { st with writeable := w })) :
      Ends ok Q (streamWriteableNotify id) ans s := by
    refine .seq (.query fun _ => .seq (.query fun _ => ends_onStream fun st' hst' => ?_))
    obtain rfl := Option.some.inj (h.symm.trans hst')
    split
    · exact hQ _ st.writeable _
    · split
      · exact hQ _ st.writeable _
      · split
        · exact hQ _ st.writeable _
        · exact hQ _ true _
  refine .seq (hwrite fun _ w ans₁ => .seq (.seq (.query fun _ => ends_onStream fun st' hst' => ?_)))
  rw [setStream_same] at hst'
  obtain rfl := Option.some.inj hst'
  have hend (r : Bool) (ans' : Answers Call) :
      Ends ok Q (pure () : Op Unit) ans' ((s.setStream id { st with writeable := w }).setStream id
        { st with writeable := w, readable := r }) := by
    rw [setStream_setStream]
    exact .pure (hQ _ _ ⟨r, w, rfl, False.elim⟩)
  split
  · exact hend st.readable _
  · split
    · exact hend st.readable _
    · exact hend true _

theorem ends_processFin {Q : Bool → Answers Call → Session → Prop} (h : s.streams id = some st)
    (hno : st.processFin flags = none → ∀ ans', Q false ans' s)
    (hyes : ∀ st₁ st' ans', st.processFin flags = some st₁ →
      st.Marked st₁.state (hasFlag flags FLAG_FIN = false) st' →
      Q true ans' (s.setStream id st')) :
    Ends ok Q (streamProcessFin id flags) ans s := by
  have close (state : StreamState) (hstate : st.processFin flags =
      some { st.woken with state := state }) (hfin : ¬ hasFlag flags FLAG_FIN = false) :
      Ends ok Q (do
        modifyStream [] id fun st => { st with state := state }
        streamNotifyWaiting id
        pure true) ans s := by
    refine .seq (ends_onStream fun st' hst' => .seq ?_)
    obtain rfl := Option.some.inj (h.symm.trans hst')
    refine ends_notify (s.setStream_same id _) fun st₂ ans₂ hst₂ => .pure ?_
    rw [setStream_setStream]
    obtain ⟨r, w, rfl, -⟩ := hst₂
    exact hyes _ _ _ hstate ⟨r, w, rfl, fun hc => absurd hc hfin⟩
  unfold streamProcessFin
  split
  · rename_i hf
    have hfin : ¬ hasFlag flags FLAG_FIN = false := by rw [hf]; decide
    refine .seq (ends_readStream fun st' hst' => ?_)
    obtain rfl := Option.some.inj (h.symm.trans hst')
    cases hst : st.state with
    | synSent | synReceived | established =>
      exact close .remoteClose (by rw [Stream.processFin, if_pos hf, hst]) hfin
    | localClose => exact close .closed (by rw [Stream.processFin, if_pos hf, hst]) hfin
    | init | remoteClose | closed | reset =>
      exact .pure (hno (by rw [Stream.processFin, if_pos hf, hst]) _)
  · rename_i hf
    rw [← setStream_eq_self h]
    exact .pure (hyes st st _ (if_neg hf) (.same st _))

theorem ends_processRst {Q : Unit → Answers Call → Session → Prop} (h : s.streams id = some st)
    (hQ : ∀ st' ans', st.Marked (st.processRst flags).state (hasFlag flags FLAG_RST = false) st' →
      Q () ans' (s.setStream id st')) :
    Ends ok Q (streamProcessRst id flags) ans s := by
  unfold streamProcessRst
  split
  · rename_i hf
    refine .seq (ends_onStream fun st' hst' => ?_)
    obtain rfl := Option.some.inj (h.symm.trans hst')
    refine ends_notify (s.setStream_same id _) fun st₂ ans₂ hst₂ => ?_
    rw [setStream_setStream]
    obtain ⟨r, w, rfl, -⟩ := hst₂
    refine hQ _ _ ⟨r, w, ?_, fun hc => absurd hc (by rw [hf]; decide)⟩
    rw [Stream.processRst, if_pos hf]
  · rename_i hf
    have hsame : st.processRst flags = st := if_neg hf
    rw [hsame] at hQ
    rw [← setStream_eq_self h]
    exact .pure (hQ st _ (.same st _))

/-- The flags of a frame take effect or leave the session as it was. -/
theorem ends_processFlags {Q : Int → Answers Call → Session → Prop} (h : s.streams id = some st)
    (hno : st.processFlags flags = none → ∀ ans', Q (-1) ans' s)
    (hyes : ∀ st' ans', st.Flagged flags st' → Q 0 ans' (s.setStream id st')) :
    Ends ok Q (streamProcessFlags id flags) ans s := by
  have hack {Q : Unit → Answers Call → Session → Prop}
      (hQ : Q () ans (s.setStream id (st.processAck flags))) :
      Ends ok Q (streamProcessAck id flags) ans s := by
    unfold streamProcessAck
    unfold Stream.processAck at hQ
    split
    · rename_i hf
      refine ends_onStream fun st' hst' => ?_
      obtain rfl := Option.some.inj (h.symm.trans hst')
      simpa only [hf, true_and] using hQ
    · rename_i hf
      rw [if_neg (fun hc => hf hc.1), setStream_eq_self h] at hQ
      exact .pure hQ
  have hmark : st.Marked (st.processAck flags).state True (st.processAck flags) := by
    unfold Stream.processAck
    split
    · exact ⟨st.readable, st.writeable, rfl, fun _ => ⟨rfl, rfl⟩⟩
    · exact .same st _
  refine .seq (.acquire (.seq (hack (.seq ?_))))
  refine ends_processFin (s.setStream_same id _) (fun hfin ans₁ => ?_)
    fun st₁ st₂ ans₁ hfin hst₂ => ?_
  · rw [Stream.processAck_of_processFin hfin, setStream_eq_self h]
    refine .seq (.release (.pure (hno ?_ _)))
    rw [Stream.processFlags, hfin, Option.map_none]
  · rw [setStream_setStream]
    refine .seq (ends_processRst (s.setStream_same id st₂) fun st₃ ans₂ hst₃ =>
      .seq (.release ?_))
    rw [setStream_setStream]
    refine .pure (hyes _ _ ⟨st₁.processRst flags, ?_, ?_⟩)
    · rw [Stream.processFlags, hfin, Option.map_some]
    · have hstate : (st₂.processRst flags).state = (st₁.processRst flags).state := by
        obtain ⟨r, w, rfl, -⟩ := hst₂
        unfold Stream.processRst
        split
        · rfl
        · rfl
      rw [hstate] at hst₃
      obtain ⟨r, w, heq, hq⟩ := (hmark.trans hst₂).trans hst₃
      exact ⟨r, w, heq, fun hc => hq ⟨⟨trivial, hc.1⟩, hc.2⟩⟩

/-- A header is queued, or there is no memory for it. -/
theorem ends_sendHeader {type : UInt8} {i len : UInt32} {Q : Int → Answers Call → Session → Prop}
    (hno : ∀ ans', Q (-1) ans' s)
    (hyes : ∀ ans', Q 0 ans' (s.queue (hdrEncode type flags i len))) :
    Ends ok Q (sessionSendBufWrite (hdrEncode type flags i len)) ans s := by
  intro _ r ans' t hrun
  obtain ⟨ans₁, hsend, -⟩ := run_sendHeader type flags i len ans s
  rw [hsend] at hrun
  split at hrun
  · cases hrun
    exact hyes _
  · cases hrun
    exact hno _

/-- Going away changes no stream. -/
theorem ends_goAway {Q : Int → Answers Call → Session → Prop} {reason : UInt32}
    (hQ : ∀ ans' t, t.streams = s.streams → t.accepts = s.accepts →
      t.sendBuf = s.sendBuf ∨ t.sendBuf = s.sendBuf ++ hdrEncode TYPE_GO_AWAY 0 0 reason →
      Q (-1) ans' t) :
    Ends ok Q (do
      let _ ← sessionGoAwayForReason reason
      pure (-1) : Op Int) ans s := by
  refine .seq (.seq (.modify (.seq (ends_sendHeader (fun ans₁ => .pure (.pure ?_))
    fun ans₁ => .pure (.pure ?_)))))
  · exact hQ _ _ rfl rfl (.inl rfl)
  · exact hQ _ _ rfl rfl (.inr rfl)

/-- The headers of `incoming_stream` where it creates no stream and finds none. -/
def Declines (h : Bytes) : Prop :=
  h = hdrEncode TYPE_GO_AWAY 0 0 GO_AWAY_INTERNAL_ERR ∨
    ∃ id, h = hdrEncode TYPE_WINDOW_UPDATE FLAG_RST id 0

theorem Declines.spared {h : Bytes} (hd : Declines h) : h.length = hdrSize ∧ h ≠ protoError := by
  rcases hd with rfl | ⟨id, rfl⟩
  · exact spared_header internalError_ne
  · exact spared_header (refusal_ne id)

theorem declines_of_internal (h : t.sendBuf = s.sendBuf ∨
    t.sendBuf = s.sendBuf ++ hdrEncode TYPE_GO_AWAY 0 0 GO_AWAY_INTERNAL_ERR) :
    Sends Declines s t := by
  rcases h with h | h
  · exact .of_eq h
  · exact .of_header (.inl rfl) h

/-- What happens to a stream that could not be announced to the application. -/
theorem ends_notifyAccept {Q : Int → Answers Call → Session → Prop}
    (hyes : ∀ ans', Q 0 ans' { s with accepts := s.accepts ++ [id] })
    (hno : ∀ ans' t, t.streams = s.streams → t.accepts = s.accepts → t.hdr = s.hdr →
      Sends Declines s t → Q (-1) ans' t) : Ends ok Q (notifyAccept id) ans s := by
  refine .seq (.query fun _ => ?_)
  split
  · exact .seq (.modify (.pure (hyes _)))
  · refine .seq (.seq (.modify (.seq (ends_sendHeader (fun ans₁ => .pure (.pure ?_))
      fun ans₁ => .pure (.pure ?_)))))
    · exact hno _ _ rfl rfl rfl (.of_eq rfl)
    · exact hno _ _ rfl rfl rfl (declines_of_internal (.inr rfl))

/-- A SYN of a stream that exists is an error while the session stays. Otherwise no broken
protocol is reported, and the streams are as they were or have one more. -/
theorem ends_syn {Q : Int → Answers Call → Session → Prop}
    (hdup : (s.streams (hdrStreamId s.hdr)).isSome → ∀ ans' t, t.streams = s.streams →
      t.accepts = s.accepts →
      t.sendBuf = s.sendBuf ∨ t.sendBuf = s.sendBuf ++ protoError → Q (-1) ans' t)
    (hfail : ∀ ans' t, Sends Declines s t → t.streams = s.streams → t.accepts = s.accepts →
      Q (-1) ans' t)
    (hpass : ∀ ans' t, Sends Declines s t → t.streams = s.streams → t.accepts = s.accepts →
      t.hdr = s.hdr → s.localGoAway = true ∨ s.streams (hdrStreamId s.hdr) = none → Q 0 ans' t)
    (henroll : s.localGoAway = false → s.streams (hdrStreamId s.hdr) = none → ∀ ans',
      Q 0 ans' (s.enroll (hdrStreamId s.hdr))) :
    Ends ok Q incomingStream ans s := by
  refine .seq (.read (.seq (.check fun _ => .seq (.read (.seq (.read ?_))))))
  cases hleaving : s.localGoAway with
  | true =>
    refine .seq (ends_sendHeader (fun ans₁ => .pure ?_) fun ans₁ => .pure ?_)
    · exact hfail _ _ (.refl s) rfl rfl
    · exact hpass _ _ (.of_header (.inr ⟨_, rfl⟩) rfl) rfl rfl rfl (.inl hleaving)
  | false =>
    rw [if_neg Bool.false_ne_true]
    refine .seq (.read ?_)
    cases hlive : (s.streams (hdrStreamId s.hdr)).isSome with
    | true =>
      exact ends_goAway fun ans₁ t hstreams haccepts hsent => hdup hlive _ _ hstreams haccepts hsent
    | false =>
      rw [if_neg Bool.false_ne_true]
      refine .seq (ends_streamNew (fun ans₁ => ?_) fun hnone ans₁ _ => ?_)
      · exact ends_goAway fun ans₂ t hstreams haccepts hsent =>
          hfail _ _ (declines_of_internal hsent) hstreams haccepts
      · rw [if_pos rfl]
        refine .seq (ends_notifyAccept (fun ans₂ => ?_) fun ans₂ t hstreams haccepts hhdr hsp => ?_)
        · rw [if_neg (by decide)]
          exact .pure (henroll hleaving hnone _)
        · rw [if_pos (by decide)]
          refine .seq (.seq (.crit (.check fun _ => .pure ?_)))
          refine hpass _ _ hsp ?_ haccepts hhdr (.inr hnone)
          change Function.update t.streams _ none = s.streams
          rw [hstreams, setStream, Function.update_idem, ← hnone, Function.update_eq_self]

end Ends

/-! ## Rejected frames -/

/-- The stream that takes a frame, and the ids that wait for `session_accept` then: it
exists, or the SYN of the frame has just created it. -/
def Session.TakenBy (s : Session) (hdr : Bytes) (st : Stream) (accepts : List UInt32) : Prop :=
  (s.streams (hdrStreamId hdr) = some st ∧ accepts = s.accepts) ∨
  (hasFlag (hdrFlags hdr) FLAG_SYN = true ∧ s.streams (hdrStreamId hdr) = none ∧
    st = Stream.fresh .synReceived s.rcvbuf ∧ accepts = s.accepts ++ [hdrStreamId hdr])

/-- Why a frame was rejected, and what it has left behind. -/
inductive Session.Rejected (s : Session) (hdr : Bytes) (t : Session) : Prop where
  /-- A SYN of a stream that exists. -/
  | duplicate (hsyn : hasFlag (hdrFlags hdr) FLAG_SYN = true)
      (hlive : (s.streams (hdrStreamId hdr)).isSome) (hstreams : t.streams = s.streams)
      (haccepts : t.accepts = s.accepts)
  /-- A FIN in the wrong state. -/
  | fin {st : Stream} (hst : s.streams (hdrStreamId hdr) = some st)
      (hfin : st.processFlags (hdrFlags hdr) = none) (hstreams : t.streams = s.streams)
      (haccepts : t.accepts = s.accepts)
  /-- A payload for which there is no window. The flags keep their effect. -/
  | window {st st' : Stream} (htype : hdrType hdr = TYPE_DATA) (htakes : s.TakenBy hdr st t.accepts)
      (hover : st.recvWindow < hdrLength hdr) (hflags : st.Flagged (hdrFlags hdr) st')
      (hstreams : t.streams = Function.update s.streams (hdrStreamId hdr) (some st'))

section Handlers

variable {ok : Call → Bool → Prop} {ans : Answers Call} {hdr : Bytes}

/-- A new stream takes every FIN. -/
theorem processFlags_fresh (padding : UInt32) (flags : UInt16) :
    (Stream.fresh .synReceived padding).processFlags flags ≠ none := by
  unfold Stream.processFlags Stream.processFin
  have hstate : ((Stream.fresh .synReceived padding).processAck flags).state = .synReceived := by
    unfold Stream.processAck
    split
    · rename_i hc
      cases hc.2
    · rfl
  split
  · rw [hstate]
    exact Option.some_ne_none _
  · exact Option.some_ne_none _

/-- The session after the SYN flag of a frame. -/
inductive Session.Settles (s : Session) (hdr : Bytes) : Session → Prop where
  | same {t : Session} (hspares : Spares s t) (hstreams : t.streams = s.streams)
      (haccepts : t.accepts = s.accepts) (hhdr : t.hdr = hdr) : Settles s hdr t
  | enrolled (hsyn : hasFlag (hdrFlags hdr) FLAG_SYN = true)
      (hnone : s.streams (hdrStreamId hdr) = none) (hhdr : s.hdr = hdr) :
      Settles s hdr (s.enroll (hdrStreamId hdr))

namespace Session.Settles

variable {st st' : Stream}

theorem header (h : s.Settles hdr t) : t.hdr = hdr := by
  cases h with
  | same _ _ _ hhdr => exact hhdr
  | enrolled _ _ hhdr => exact hhdr

theorem spares (h : s.Settles hdr t) : Spares s t := by
  cases h with
  | same hspares => exact hspares
  | enrolled => exact spares_of_eq rfl

/-- A FIN that is refused now was one in the wrong state before. -/
theorem fin (h : s.Settles hdr t) (hst : t.streams (hdrStreamId hdr) = some st)
    (hfin : st.processFlags (hdrFlags hdr) = none) (hstreams : u.streams = t.streams)
    (haccepts : u.accepts = t.accepts) : s.Rejected hdr u := by
  cases h with
  | same _ hs ha => exact .fin (hs ▸ hst) hfin (hstreams.trans hs) (haccepts.trans ha)
  | enrolled =>
    obtain rfl := Option.some.inj ((s.setStream_same _ _).symm.trans hst)
    exact absurd hfin (processFlags_fresh _ _)

/-- A payload that does not fit now did not fit before. -/
theorem window (h : s.Settles hdr t) (htype : hdrType hdr = TYPE_DATA)
    (hst : t.streams (hdrStreamId hdr) = some st) (hover : st.recvWindow < hdrLength hdr)
    (hflags : st.Flagged (hdrFlags hdr) st')
    (hstreams : u.streams = (t.setStream (hdrStreamId hdr) st').streams)
    (haccepts : u.accepts = t.accepts) : s.Rejected hdr u := by
  cases h with
  | same _ hs ha =>
    refine .window htype (.inl ⟨hs ▸ hst, haccepts.trans ha⟩) hover hflags ?_
    rw [hstreams, setStream, hs]
  | enrolled hsyn hnone =>
    obtain rfl := Option.some.inj ((s.setStream_same _ _).symm.trans hst)
    refine .window htype (.inr ⟨hsyn, hnone, rfl, haccepts⟩) hover hflags ?_
    rw [hstreams]
    exact Function.update_idem _ _ _

end Session.Settles

/-- What reports nothing rejects nothing. -/
theorem rejects_spares {p : Op Int} (ht : Spares s t) (hp : Acts ok Spares p) :
    Ends ok (fun r _ u => r ≠ 0 → Blames s u → s.Rejected hdr u) p ans t :=
  (Ends.acts .refl .trans hp).mono fun _ _ _ hu _ hb => absurd hb (ht.trans hu).not_blames

/-- A DATA header after its SYN flag. -/
theorem rejects_handleDataHeader (ht : s.Settles hdr t) (hdata : hdrType hdr = TYPE_DATA) :
    Ends ok (fun r _ u => r ≠ 0 → Blames s u → s.Rejected hdr u) handleDataHeader ans t := by
  refine .seq (.read (.seq (.read ?_)))
  rw [ht.header]
  cases hst : t.streams (hdrStreamId hdr) with
  | none => exact rejects_spares ht.spares (spares_startPayload _ _)
  | some st =>
    rw [if_pos (show (some st).isSome = true from rfl)]
    refine .seq (ends_processFlags hst (fun hno ans₁ => ?_) fun st' ans₁ hst' => ?_)
    · rw [if_pos (by decide)]
      exact ends_goAway fun ans₂ u hstreams haccepts _ _ _ => ht.fin hst hno hstreams haccepts
    · rw [if_neg (by decide)]
      split
      · exact .pure fun h => absurd h (by decide)
      · refine .seq (.acquire (.seq (ends_readStream fun st₂ hst₂ => ?_)))
        rw [setStream_same] at hst₂
        obtain rfl := Option.some.inj hst₂
        split
        · rename_i hover
          have hwindow : st'.recvWindow = st.recvWindow := by
            obtain ⟨_, _, r, w, rfl, -⟩ := hst'
            rfl
          rw [hwindow] at hover
          refine .seq (.seq (.modify (.seq (ends_sendHeader (fun ans₂ => .pure ?_)
            fun ans₂ => .pure ?_))))
          · exact .seq (.release (.pure fun _ _ => ht.window hdata hst hover hst' rfl rfl))
          · exact .seq (.release (.pure fun _ _ => ht.window hdata hst hover hst' rfl rfl))
        · exact .seq (.release (rejects_spares (ht.spares.trans (spares_of_eq rfl))
            (spares_startPayload _ _)))

/-- A WINDOW_UPDATE header after its SYN flag. -/
theorem rejects_updateHeader (ht : s.Settles hdr t) :
    Ends ok (fun r _ u => r ≠ 0 → Blames s u → s.Rejected hdr u) (do
      let live ← sessionFindStream (hdrStreamId hdr)
      if live then do
        let r ← streamProcessFlags (hdrStreamId hdr) (hdrFlags hdr)
        if r ≠ 0 then do
          let _ ← sessionGoAwayForReason GO_AWAY_PROTO_ERR
          pure (-1)
        else if hdrLength hdr = 0 then pure 0
        else do
          modifyStream [.send (hdrStreamId hdr)] (hdrStreamId hdr) fun st =>
            { st with sendWindow := st.sendWindow + hdrLength hdr }
          let woken ← streamWriteableNotify (hdrStreamId hdr)
          if woken ≠ 0 then do
            let _ ← sessionGoAwayForReason GO_AWAY_INTERNAL_ERR
            pure (-1)
          else pure 0
      else pure 0 : Op Int) ans t := by
  refine .seq (.read ?_)
  cases hst : t.streams (hdrStreamId hdr) with
  | none => exact .pure fun h => absurd h (by decide)
  | some st =>
    rw [if_pos (show (some st).isSome = true from rfl)]
    refine .seq (ends_processFlags hst (fun hno ans₁ => ?_) fun st' ans₁ hst' => ?_)
    · rw [if_pos (by decide)]
      exact ends_goAway fun ans₂ u hstreams haccepts _ _ _ => ht.fin hst hno hstreams haccepts
    · rw [if_neg (by decide)]
      split
      · exact .pure fun h => absurd h (by decide)
      · refine rejects_spares (ht.spares.trans (spares_of_eq rfl)) ?_
        refine .bind sends_onStream fun _ => .bind sends_streamWriteableNotify fun woken => ?_
        split
        · exact spares_internalError (.pure _)
        · exact .pure _

/-- The SYN flag, and the rest of the frame after it. -/
theorem rejects_syn {p : Op Int} (hhdr : s.hdr = hdr)
    (hp : ∀ ans' t, s.Settles hdr t →
      Ends ok (fun r _ u => r ≠ 0 → Blames s u → s.Rejected hdr u) p ans' t) :
    Ends ok (fun r _ u => r ≠ 0 → Blames s u → s.Rejected hdr u) (do
      let r ← (if hasFlag (hdrFlags hdr) FLAG_SYN then incomingStream else pure 0)
      if r ≠ 0 then pure (-1) else p : Op Int) ans s := by
  by_cases hsyn : hasFlag (hdrFlags hdr) FLAG_SYN = true
  · rw [if_pos hsyn]
    refine .seq (ends_syn (fun hlive ans₁ t hstreams haccepts _ => ?_) (fun ans₁ t hsent _ _ => ?_)
      (fun ans₁ t hsent hstreams haccepts hhdr' _ => ?_) fun _ hnone ans₁ => ?_)
    · rw [if_pos (by decide)]
      exact .pure fun _ _ => .duplicate hsyn (hhdr ▸ hlive) hstreams haccepts
    · rw [if_pos (by decide)]
      have hspares : Spares s t := hsent.mono fun _ => Declines.spared
      exact .pure fun _ hb => absurd hb hspares.not_blames
    · rw [if_neg (by decide)]
      exact hp _ _ (.same (hsent.mono fun _ => Declines.spared) hstreams haccepts
        (hhdr'.trans hhdr))
    · rw [if_neg (by decide)]
      rw [hhdr] at hnone ⊢
      exact hp _ _ (.enrolled hsyn hnone hhdr)
  · rw [if_neg hsyn]
    refine .seq (.pure ?_)
    rw [if_neg (by decide)]
    exact hp _ _ (.same (.refl s) rfl rfl hhdr)

theorem rejects_sessionHandle (hnew : s.newFrame = true) (hhdr : s.hdr = hdr) :
    Ends ok (fun r _ u => r ≠ 0 → Blames s u → s.Rejected hdr u) sessionHandle ans s := by
  refine .seq (.read ?_)
  rw [hhdr]
  split
  · rename_i hdata
    refine .seq (.read (.seq (.read ?_)))
    rw [if_pos hnew, hhdr]
    exact rejects_syn hhdr fun ans' t ht => rejects_handleDataHeader ht hdata
  · split
    · refine .seq (.read (.seq (.check fun _ => .seq (.read ?_))))
      rw [hhdr]
      exact rejects_syn hhdr fun ans' t ht => rejects_updateHeader ht
    · split
      · exact rejects_spares (.refl s) (sends_sessionHandlePing
          (spared_header internalError_ne) fun _ => spared_header (pong_ne _))
      · split
        · exact rejects_spares (.refl s) sends_sessionHandleGoAway
        · exact rejects_spares (.refl s) (.pure _)

/-- In the middle of a frame nothing is reported. -/
theorem spares_sessionHandle (hmid : s.newFrame = false) :
    Ends ok (fun _ _ u => Spares s u) sessionHandle ans s := by
  have hstop {g : Unit → Op Int} : Ends ok (fun _ _ u => Spares s u)
      (check s.newFrame >>= g) ans s :=
    .seq (.check fun h => absurd h (by rw [hmid]; decide))
  refine .seq (.read ?_)
  split
  · refine .seq (.read (.seq (.read ?_)))
    rw [if_neg (by rw [hmid]; decide)]
    exact .seq (.read (Ends.acts .refl .trans (spares_handlePayload _)))
  · split
    · exact .seq (.read hstop)
    · split
      · exact .seq (.read hstop)
      · split
        · exact .seq (.read hstop)
        · exact .pure (.refl s)

/-- A round that ends the call and reports a broken protocol has rejected a frame. -/
theorem rejects_processRound :
    Ends ok (fun r _ t => r = some (-1) → Blames s t →
      s.newFrame = true ∧ s.Rejected (s.recvBuf.take hdrSize) t) processRound ans s := by
  refine .seq (.read (.seq (.read ?_)))
  split
  · exact .pure fun h => absurd h (by decide)
  · split
    · exact .pure fun h => absurd h (by decide)
    · cases hnew : s.newFrame with
      | false =>
        rw [if_neg Bool.false_ne_true]
        refine .seq (.pure ?_)
        rw [if_pos rfl]
        refine .bind (spares_sessionHandle hnew) fun r ans₁ t ht => .pure fun _ hb => ?_
        exact absurd hb ht.not_blames
      | true =>
        rw [if_pos rfl]
        refine .seq (.seq (.crit (.seq (.check fun hlen => .pure ?_))))
        split
        · refine .bind (rejects_sessionHandle hnew rfl) fun r ans₁ t ht => .pure fun hr hb => ?_
          have hne : r ≠ 0 := by
            rintro rfl
            cases hr
          refine ⟨rfl, ?_⟩
          cases ht hne hb with
          | duplicate hsyn hlive hstreams haccepts =>
            exact .duplicate hsyn hlive hstreams haccepts
          | fin hst hfin hstreams haccepts => exact .fin hst hfin hstreams haccepts
          | window htype htakes hover hflags hstreams =>
            exact .window htype htakes hover hflags hstreams
        · exact .pure fun _ hb => absurd hb (spares_of_eq rfl).not_blames

end Handlers

/-- What a frame leaves behind for which `session_process` reports a broken protocol and
returns -1: a SYN of a stream that exists and a FIN in the wrong state leave every stream
and the ids to accept as they were. A payload that is larger than the window leaves the
effect of the flags on its own stream, which a SYN has created, and nothing else. -/
theorem process_rejects {ans ans' : Answers Call}
    (h : sessionProcess.run ans s = (.ret (-1), ans', t)) :
    ∃ ans₁ x, Rounds processRound ans s ans₁ x ∧
      processRound.run ans₁ x = (.ret (some (-1)), ans', t) ∧
      (Blames x t → x.newFrame = true ∧ x.Rejected (x.recvBuf.take hdrSize) t) := by
  obtain ⟨ans₁, x, hx, hexit⟩ := sessionProcess_exits h
  exact ⟨ans₁, x, hx, hexit, rejects_processRound (allowed_anyAnswer ans₁) _ _ _ hexit rfl⟩

/-- A new session with a frame that opens a stream with more bytes than it takes. -/
def oversized : Session := (sessionInit true 4096).more (hdrEncode TYPE_DATA FLAG_SYN 2 262145)

/-- The frame is rejected. -/
theorem process_rejects_oversized : ∃ ans' t ans₁ x, Rounds processRound noFail oversized ans₁ x ∧
    processRound.run ans₁ x = (.ret (some (-1)), ans', t) ∧
    (Blames x t → x.newFrame = true ∧ x.Rejected (x.recvBuf.take hdrSize) t) := by
  have hret : (sessionProcess.exec oversized).1 = .ret (-1) := by decide +kernel
  have hrun : sessionProcess.run noFail oversized =
      (.ret (-1), noFail, (sessionProcess.exec oversized).2) := by
    rw [run_noFail, hret]
  exact ⟨_, _, process_rejects hrun⟩

/-- Its stream stays, and waits to be accepted. -/
theorem oversized_stays : Api.Leads true 4096 oversized ∧
    (oversized.streams 2).isSome = false ∧ oversized.accepts = [] ∧
    (sessionProcess.exec oversized).1 = .ret (-1) ∧
    (sessionProcess.exec oversized).2.sendBuf = oversized.sendBuf ++ protoError ∧
    ((sessionProcess.exec oversized).2.streams 2).isSome = true ∧
    (sessionProcess.exec oversized).2.accepts = [2] := by
  refine ⟨leads_more _, ?_⟩
  decide +kernel

end Yamux
