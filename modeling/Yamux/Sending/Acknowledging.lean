import Yamux.Receive.Accepting
import Yamux.Receive.Replies

/-!
# Acknowledging accepted streams

A stream that the peer has opened is acknowledged with the first frame that is sent for
it. The flag is read off the state of the stream, and a FIN that arrives before that
frame takes the stream out of `SYN_RECEIVED`. Where no FIN does, `session_accept` queues
the one ACK of each stream.
-/

namespace Yamux

open Core Prog Session

/-! ## ACKs among the bytes queued -/

/-- A frame for a stream that carries ACK. -/
def isAck (id : UInt32) (h : Bytes) : Bool :=
  (hdrType h == TYPE_DATA || hdrType h == TYPE_WINDOW_UPDATE) && hasFlag (hdrFlags h) FLAG_ACK &&
    hdrStreamId h == id

/-- How many ACKs for a stream a call has queued. -/
def acksIn (s t : Session) (id : UInt32) : Nat :=
  (headers (t.sendBuf.drop s.sendBuf.length)).countP (isAck id)

/-- A header without payload that acknowledges no stream. -/
def NotAck (h : Bytes) : Prop :=
  h.length = hdrSize ∧ Frame.payloadSize h = 0 ∧ ∀ id, isAck id h = false

theorem headers_frame {h rest : Bytes} (hlen : h.length = hdrSize) :
    headers (h ++ rest) = h :: headers (rest.drop (Frame.payloadSize h)) := by
  rw [headers_cons (by rw [List.length_append]; omega), List.take_left' hlen, ← List.drop_drop,
    List.drop_left' hlen]

theorem headers_flatten {hs : List Bytes}
    (h : ∀ x ∈ hs, x.length = hdrSize ∧ Frame.payloadSize x = 0) : headers hs.flatten = hs := by
  induction hs with
  | nil => rfl
  | cons x hs ih =>
    obtain ⟨hlen, hsize⟩ := h x List.mem_cons_self
    rw [List.flatten_cons, headers_frame hlen, hsize, List.drop_zero,
      ih fun y hy => h y (List.mem_cons_of_mem x hy)]

theorem acksIn_of_append {s t : Session} {w : Bytes} (h : t.sendBuf = s.sendBuf ++ w)
    (id : UInt32) : acksIn s t id = (headers w).countP (isAck id) := by
  rw [acksIn, h, List.drop_left' rfl]

theorem countP_notAck {hs : List Bytes} (h : ∀ x ∈ hs, NotAck x) (id : UInt32) :
    (headers hs.flatten).countP (isAck id) = 0 := by
  rw [headers_flatten fun x hx => ⟨(h x hx).1, (h x hx).2.1⟩, List.countP_eq_zero]
  intro x hx
  rw [(h x hx).2.2 id]
  exact Bool.false_ne_true

theorem Session.Sends.acksIn {s t : Session} (h : Sends NotAck s t) (id : UInt32) :
    acksIn s t id = 0 := by
  obtain ⟨hs, hP, he⟩ := h
  rw [acksIn_of_append he, countP_notAck hP]

/-- Frames without payload that are no ACKs of streams. -/
theorem notAck_header {type : UInt8} {flags : UInt16} {i len : UInt32} (h : type ≠ TYPE_DATA)
    (hack : type = TYPE_WINDOW_UPDATE → hasFlag flags FLAG_ACK = false) :
    NotAck (hdrEncode type flags i len) := by
  refine ⟨length_hdrEncode _ _ _ _, ?_, fun id => ?_⟩
  · rw [Frame.payloadSize, hdrType_hdrEncode, if_neg h]
  · rw [isAck, hdrType_hdrEncode, hdrFlags_hdrEncode, beq_false_of_ne h, Bool.false_or]
    by_cases htype : type = TYPE_WINDOW_UPDATE
    · rw [hack htype, Bool.and_false, Bool.false_and]
    · rw [beq_false_of_ne htype, Bool.false_and, Bool.false_and]

theorem notAck_goAway (reason : UInt32) : NotAck (hdrEncode TYPE_GO_AWAY 0 0 reason) :=
  notAck_header (by decide) (by decide)

theorem notAck_pong (len : UInt32) : NotAck (hdrEncode TYPE_PING FLAG_ACK 0 len) :=
  notAck_header (by decide) (by decide)

theorem notAck_refusal (id : UInt32) : NotAck (hdrEncode TYPE_WINDOW_UPDATE FLAG_RST id 0) :=
  notAck_header (by decide) fun _ => by decide

/-! ## How the states of streams move on -/

/-- A stream leaves `SYN_RECEIVED` by a reset only and does not come back to it; a reset
is for good. -/
structure StreamState.Ages (a b : StreamState) : Prop where
  waiting : a = .synReceived → b = .synReceived ∨ b = .reset
  beyond : a ≠ .synReceived → b ≠ .synReceived
  reset : a = .reset → b = .reset

theorem StreamState.Ages.refl (a : StreamState) : a.Ages a := ⟨.inl, id, id⟩

theorem StreamState.Ages.trans {a b c : StreamState} (h : a.Ages b) (h' : b.Ages c) : a.Ages c := by
  refine ⟨fun ha => ?_, fun ha => h'.beyond (h.beyond ha), fun ha => h'.reset (h.reset ha)⟩
  rcases h.waiting ha with hb | hb
  · exact h'.waiting hb
  · exact .inr (h'.reset hb)

/-- All streams move on, and new ones wait or are reset. -/
structure Session.Older (s t : Session) : Prop where
  states : ∀ i st, s.streams i = some st → ∃ st', t.streams i = some st' ∧ st.state.Ages st'.state
  newborn : ∀ i st', s.streams i = none → t.streams i = some st' →
    st'.state = .synReceived ∨ st'.state = .reset

/-- The stream is there and does not wait for its ACK. -/
def Session.Beyond (s : Session) (id : UInt32) : Prop :=
  ∃ st, s.streams id = some st ∧ st.state ≠ .synReceived

namespace Session.Older

variable {s t u : Session} {id : UInt32}

theorem of_streams (h : t.streams = s.streams) : Older s t := by
  refine ⟨fun i st hst => ⟨st, by rw [h]; exact hst, .refl _⟩, fun i st' hnone hst' => ?_⟩
  rw [h, hnone] at hst'
  cases hst'

theorem trans (h : Older s t) (h' : Older t u) : Older s u := by
  refine ⟨fun i st hst => ?_, fun i st'' hnone hst'' => ?_⟩
  · obtain ⟨st', hst', hage⟩ := h.states i st hst
    obtain ⟨st'', hst'', hage'⟩ := h'.states i st' hst'
    exact ⟨st'', hst'', hage.trans hage'⟩
  · cases ht : t.streams i with
    | none => exact h'.newborn i st'' ht hst''
    | some st' =>
      obtain ⟨st₂, hst₂, hage⟩ := h'.states i st' ht
      obtain rfl := Option.some.inj (hst₂.symm.trans hst'')
      rcases h.newborn i st' hnone ht with hs | hs
      · exact hage.waiting hs
      · exact .inr (hage.reset hs)

/-- One stream moves on. -/
theorem setStream {st st' : Stream} (hst : s.streams id = some st)
    (hage : st.state.Ages st'.state) : Older s (s.setStream id st') := by
  refine ⟨fun i st₁ hst₁ => ?_, fun i st₁ hnone hst₁ => ?_⟩
  · by_cases hi : i = id
    · subst hi
      obtain rfl := Option.some.inj (hst.symm.trans hst₁)
      exact ⟨st', s.setStream_same i st', hage⟩
    · exact ⟨st₁, by rw [Session.setStream_of_ne _ _ _ hi]; exact hst₁, .refl _⟩
  · by_cases hi : i = id
    · subst hi
      rw [hst] at hnone
      cases hnone
    · rw [Session.setStream_of_ne _ _ _ hi, hnone] at hst₁
      cases hst₁

theorem beyond (h : Older s t) (hb : s.Beyond id) : t.Beyond id := by
  obtain ⟨st, hst, hs⟩ := hb
  obtain ⟨st', hst', hage⟩ := h.states id st hst
  exact ⟨st', hst', hage.beyond hs⟩

end Session.Older

/-- All streams move on, and only headers with `P` are queued. -/
structure Session.Ages (P : Bytes → Prop) (s t : Session) : Prop extends Session.Older s t where
  sends : Sends P s t

namespace Session.Ages

variable {P : Bytes → Prop} {s t u : Session}

theorem of_streams (h : t.streams = s.streams) (hs : Sends P s t) : Ages P s t :=
  ⟨.of_streams h, hs⟩

theorem refl (s : Session) : Ages P s s := .of_streams rfl (.refl s)

theorem trans (h : Ages P s t) (h' : Ages P t u) : Ages P s u :=
  ⟨h.toOlder.trans h'.toOlder, h.sends.trans h'.sends⟩

theorem setStream {id : UInt32} {st st' : Stream} (hst : s.streams id = some st)
    (hage : st.state.Ages st'.state) : Ages P s (s.setStream id st') :=
  ⟨.setStream hst hage, .of_eq rfl⟩

end Session.Ages

/-- What works on streams without touching their states. -/
def SameState (st st' : Stream) : Prop := st'.state = st.state

theorem Touches.sameState {P : Bytes → Prop} {id : UInt32} {s t : Session}
    (h : Touches id SameState s t) (hs : Sends P s t) : Ages P s t := by
  cases h with
  | none => exact .of_streams rfl hs
  | send => exact .of_streams rfl hs
  | leave => exact .of_streams rfl hs
  | stream hst h =>
    apply Session.Ages.setStream hst
    rw [show _ = _ from h]
    exact .refl _

theorem Pays.sameState {P : Bytes → Prop} {id : UInt32} {s t : Session}
    (h : Pays id Stream.Delivered s t) (hs : Sends P s t) : Ages P s t := by
  cases h with
  | touch h =>
    refine (h.mono ?_).sameState hs
    rintro st st' (_ | _)
    · rfl
    · rfl
  | input => exact .of_streams rfl hs

/-! ## What a round does -/

/-- A FIN that no RST in the same frame overrides. -/
def cutsFlags (flags : UInt16) : Bool :=
  hasFlag flags FLAG_FIN && !hasFlag flags FLAG_RST

/-- Away from a FIN in `SYN_RECEIVED` the flags move a stream on. -/
theorem Stream.processFlags_ages {st st' : Stream} {flags : UInt16}
    (h : st.processFlags flags = some st')
    (hcut : st.state = .synReceived → cutsFlags flags = false) :
    st.state.Ages st'.state := by
  have hack : st.state.Ages (st.processAck flags).state ∧
      (st.state = .synReceived → (st.processAck flags).state = .synReceived) := by
    unfold Stream.processAck
    split
    · rename_i hc
      rw [hc.2]
      exact ⟨⟨nofun, nofun, nofun⟩, nofun⟩
    · exact ⟨.refl _, id⟩
  obtain ⟨st₁, hfin, rfl⟩ := Option.map_eq_some_iff.mp h
  unfold Stream.processRst
  split
  · exact ⟨fun _ => .inr rfl, fun _ => nofun, fun _ => rfl⟩
  rename_i hrst
  have hfin₁ : (st.processAck flags).state.Ages st₁.state := by
    unfold Stream.processFin at hfin
    split at hfin
    · rename_i hf
      cases hst : (st.processAck flags).state with
      | synReceived =>
        -- the stream was in this state before, which the FIN has to leave alone
        have hwas : st.state = .synReceived := by
          unfold Stream.processAck at hst
          split at hst
          · cases hst
          · exact hst
        have hcuts : cutsFlags flags = true := by
          rw [cutsFlags, hf, Bool.eq_false_of_not_eq_true hrst]
          rfl
        rw [hcut hwas] at hcuts
        cases hcuts
      | synSent | established | localClose =>
        rw [hst] at hfin
        cases hfin
        exact ⟨nofun, nofun, nofun⟩
      | init | remoteClose | closed | reset =>
        rw [hst] at hfin
        cases hfin
    · cases hfin
      exact .refl _
  exact hack.1.trans hfin₁

/-- The header has a FIN for a stream that waits for its ACK, or one that its SYN creates. -/
def Session.Cuts (s : Session) (hdr : Bytes) : Prop :=
  cutsFlags (hdrFlags hdr) = true ∧
    match s.streams (hdrStreamId hdr) with
    | some st => st.state = .synReceived ∧
        (hasFlag (hdrFlags hdr) FLAG_SYN = true → s.localGoAway = true)
    | none => hasFlag (hdrFlags hdr) FLAG_SYN = true ∧ s.localGoAway = false

/-- The next round takes a FIN for a stream that waits for its ACK. -/
def Session.CutsShort (s : Session) : Prop :=
  s.newFrame = true ∧ hdrSize ≤ s.recvBuf.length ∧
    hdrVersion (s.recvBuf.take hdrSize) = VERSION ∧
    (hdrType (s.recvBuf.take hdrSize) = TYPE_DATA ∨
      hdrType (s.recvBuf.take hdrSize) = TYPE_WINDOW_UPDATE) ∧ s.Cuts (s.recvBuf.take hdrSize)

section Round

variable {ok : Call → Bool → Prop} {ans : Answers Call} {s u : Session} {hdr : Bytes} {id : UInt32}
  {st : Stream}

theorem ends_ages {α : Type} {p : Op α} {P : Bytes → Prop} (hp : Acts ok (Session.Ages P) p) :
    Ends ok (fun _ _ t => Session.Ages P s t) p ans s :=
  Ends.acts .refl .trans hp

/-- Work after a first part that moves the streams on. -/
theorem ends_ages_after {α : Type} {p : Op α} {P : Bytes → Prop} (h : Session.Ages P s u)
    (hp : Acts ok (Session.Ages P) p) : Ends ok (fun _ _ t => Session.Ages P s t) p ans u :=
  (ends_ages hp).mono fun _ _ _ ht => h.trans ht

theorem state_sendWindow (st : Stream) (window : UInt32) :
    ({ st with sendWindow := window } : Stream).state = st.state := rfl

/-- Work on one stream that leaves its state alone. -/
theorem ages_onStream {α : Type} {P : Bytes → Prop} {ms : List Mutex} {g : Stream → α × Stream}
    (hg : ∀ st, (g st).2.state = st.state) : Acts ok (Session.Ages P) (onStream ms id g) :=
  ((touches_onStream (N := SameState) ms g fun st => .inr (hg st)).and sends_onStream).mono
    fun _ _ h => h.1.sameState h.2

theorem ages_sessionGoAwayForReason (reason : UInt32) :
    Acts ok (Session.Ages NotAck) (sessionGoAwayForReason reason) :=
  ((beside_sessionGoAwayForReason reason).and
    (sends_sessionGoAwayForReason (notAck_goAway reason))).mono
      fun _ _ h => .of_streams h.1.streams h.2

theorem ages_goAway_then {α : Type} (reason : UInt32) {p : Op α}
    (hp : Acts ok (Session.Ages NotAck) p) :
    Acts ok (Session.Ages NotAck) (sessionGoAwayForReason reason >>= fun _ => p) :=
  .bind (ages_sessionGoAwayForReason reason) fun _ => hp

theorem ages_flags (hst : u.streams id = some st) {flags : UInt16}
    (hcut : st.state = .synReceived → cutsFlags flags = false) :
    Ends ok (fun _ _ t => Session.Ages NotAck u t) (streamProcessFlags id flags) ans u := by
  refine ends_processFlags hst (fun _ _ => .refl u) fun st' _ hst' => ?_
  obtain ⟨st₁, hflags, r, w, rfl, -⟩ := hst'
  have hage : st.state.Ages st₁.state := Stream.processFlags_ages hflags hcut
  exact Session.Ages.setStream hst hage

theorem ages_handleDataHeader (hhdr : u.hdr = hdr)
    (hcut : ∀ st, u.streams (hdrStreamId hdr) = some st → st.state = .synReceived →
      cutsFlags (hdrFlags hdr) = false) :
    Ends ok (fun _ _ t => Session.Ages NotAck u t) handleDataHeader ans u := by
  have start (live : Bool) (len : UInt32) :
      Acts ok (Session.Ages NotAck) (startPayload (hdrStreamId hdr) live len) :=
    ((pays_startPayload live len).and (sends_startPayload (notAck_goAway _) live len)).mono
      fun _ _ h => h.1.sameState h.2
  refine .seq (.read (.seq (.read ?_)))
  rw [hhdr]
  cases hst : u.streams (hdrStreamId hdr) with
  | none => exact ends_ages (start _ _)
  | some st =>
    rw [if_pos (show (some st).isSome = true from rfl)]
    refine .seq ((ages_flags hst (hcut st hst)).mono fun r ans₁ t ht => ?_)
    split
    · exact ends_ages_after ht (ages_goAway_then _ (.pure _))
    · split
      · exact .pure ht
      · refine ends_ages_after ht (.bind (.acquire _) fun _ => .bind ?_ fun window => ?_)
        · exact ages_onStream fun _ => rfl
        · split
          · exact ages_goAway_then _ (.bind (.release _) fun _ => .pure _)
          · exact .bind (.release _) fun _ => start _ _

theorem ages_updateHeader
    (hcut : ∀ st, u.streams (hdrStreamId hdr) = some st → st.state = .synReceived →
      cutsFlags (hdrFlags hdr) = false) :
    Ends ok (fun _ _ t => Session.Ages NotAck u t) (do
      let id := hdrStreamId hdr
      let live ← sessionFindStream id
      if live then do
        let r ← streamProcessFlags id (hdrFlags hdr)
        if r ≠ 0 then do
          let _ ← sessionGoAwayForReason GO_AWAY_PROTO_ERR
          pure (-1)
        else if hdrLength hdr = 0 then pure 0
        else do
          modifyStream [.send id] id fun st =>
            { st with sendWindow := st.sendWindow + hdrLength hdr }
          let woken ← streamWriteableNotify id
          if woken ≠ 0 then do
            let _ ← sessionGoAwayForReason GO_AWAY_INTERNAL_ERR
            pure (-1)
          else pure 0
      else pure 0 : Op Int) ans u := by
  refine .seq (.read ?_)
  cases hst : u.streams (hdrStreamId hdr) with
  | none => exact .pure (.refl u)
  | some st =>
    rw [if_pos (show (some st).isSome = true from rfl)]
    refine .seq ((ages_flags hst (hcut st hst)).mono fun r ans₁ t ht => ?_)
    split
    · exact ends_ages_after ht (ages_goAway_then _ (.pure _))
    · split
      · exact .pure ht
      · refine ends_ages_after ht (.bind ?_ fun _ => .bind ?_ fun woken => ?_)
        · exact ages_onStream fun st => state_sendWindow st _
        · exact ((touches_streamWriteableNotify (N := SameState) fun _ => rfl).and
            sends_streamWriteableNotify).mono fun _ _ h => h.1.sameState h.2
        · split
          · exact ages_goAway_then _ (.pure _)
          · exact .pure _

theorem Declines.notAck {h : Bytes} (hd : Declines h) : NotAck h := by
  rcases hd with rfl | ⟨id, rfl⟩
  · exact notAck_goAway _
  · exact notAck_refusal id

/-- A new stream waits for its ACK. -/
theorem ages_enroll (h : s.streams id = none) : Session.Ages NotAck s (s.enroll id) := by
  refine ⟨⟨fun i st hst => ⟨st, ?_, .refl _⟩, fun i st' hnone hst' => .inl ?_⟩, .of_eq rfl⟩
  · have hi : i ≠ id := by
      rintro rfl
      rw [h] at hst
      cases hst
    exact (Session.setStream_of_ne _ _ _ hi).trans hst
  · by_cases hi : i = id
    · subst hi
      obtain rfl := Option.some.inj ((s.setStream_same i _).symm.trans hst')
      rfl
    · have hsame : (s.enroll id).streams i = s.streams i := Session.setStream_of_ne _ _ _ hi
      rw [hsame, hnone] at hst'
      cases hst'

/-- The SYN flag and what the handler does then. -/
theorem ages_syn {p : Op Int} (hhdr : s.hdr = hdr) (hcut : ¬ s.Cuts hdr)
    (hp : ∀ ans' u, u.hdr = hdr → (∀ st, u.streams (hdrStreamId hdr) = some st →
      st.state = .synReceived → cutsFlags (hdrFlags hdr) = false) →
      Ends ok (fun _ _ t => Session.Ages NotAck u t) p ans' u) :
    Ends ok (fun _ _ t => Session.Ages NotAck s t) (do
      let r ← (if hasFlag (hdrFlags hdr) FLAG_SYN then incomingStream else pure 0)
      if r ≠ 0 then pure (-1) else p) ans s := by
  have rest {u : Session} {ans₁ : Answers Call} (hu : Session.Ages NotAck s u) (h : u.hdr = hdr)
      (hlive : ∀ st, u.streams (hdrStreamId hdr) = some st → st.state = .synReceived →
        cutsFlags (hdrFlags hdr) = false) :
      Ends ok (fun _ _ t => Session.Ages NotAck s t) p ans₁ u :=
    (hp ans₁ u h hlive).mono fun _ _ _ ht => hu.trans ht
  have nocut {c : Prop} (h : cutsFlags (hdrFlags hdr) = true → ¬ c) (hc : c) :
      cutsFlags (hdrFlags hdr) = false := by
    cases hf : cutsFlags (hdrFlags hdr) with
    | false => rfl
    | true => exact absurd hc (h hf)
  unfold Session.Cuts at hcut
  cases hsyn : hasFlag (hdrFlags hdr) FLAG_SYN with
  | false =>
    rw [if_neg Bool.false_ne_true]
    refine .seq (.pure ?_)
    rw [if_neg (by decide)]
    refine rest (.refl s) hhdr fun st hst => nocut fun hf hs => hcut ⟨hf, ?_⟩
    rw [hst]
    exact ⟨hs, fun h => absurd (hsyn.symm.trans h) (by decide)⟩
  | true =>
    rw [if_pos rfl]
    refine .seq (ends_syn (fun _ ans₁ t hstreams _ hsent => ?_) (fun ans₁ t hsent hstreams _ => ?_)
      (fun ans₁ t hsent hstreams _ hhdr' hwhy => ?_) fun hstays hnone ans₁ => ?_)
    · rw [if_pos (by decide)]
      refine .pure (.of_streams hstreams ?_)
      rcases hsent with h | h
      · exact .of_eq h
      · exact .of_header (notAck_goAway _) h
    · rw [if_pos (by decide)]
      exact .pure (.of_streams hstreams (hsent.mono fun _ => Declines.notAck))
    · rw [if_neg (by decide)]
      refine rest (.of_streams hstreams (hsent.mono fun _ => Declines.notAck))
        (hhdr'.trans hhdr) fun st hst => nocut fun hf hs => hcut ⟨hf, ?_⟩
      rw [hstreams] at hst
      rw [hst]
      refine ⟨hs, fun _ => hwhy.resolve_right ?_⟩
      rw [hhdr, hst]
      exact nofun
    · rw [if_neg (by decide)]
      refine rest (ages_enroll hnone) hhdr fun st hst => nocut fun hf _ => hcut ⟨hf, ?_⟩
      rw [hhdr] at hnone
      rw [hnone]
      exact ⟨hsyn, hstays⟩

theorem ages_sessionHandle (hcut : s.newFrame = true →
    hdrType s.hdr = TYPE_DATA ∨ hdrType s.hdr = TYPE_WINDOW_UPDATE → ¬ s.Cuts s.hdr) :
    Ends ok (fun _ _ t => Session.Ages NotAck s t) sessionHandle ans s := by
  refine .seq (.read ?_)
  split
  · rename_i hdata
    refine .seq (.read (.seq (.read ?_)))
    cases hn : s.newFrame with
    | true =>
      rw [if_pos rfl]
      exact ages_syn rfl (hcut hn (.inl hdata)) fun _ u hu h => ages_handleDataHeader hu h
    | false =>
      rw [if_neg Bool.false_ne_true]
      refine .seq (.read (ends_ages ?_))
      exact ((pays_handlePayload _).and (sends_handlePayload (notAck_goAway _) _)).mono
        fun _ _ h => h.1.sameState h.2
  · split
    · rename_i hupdate
      refine .seq (.read (.seq (.check fun hn => .seq (.read ?_))))
      exact ages_syn rfl (hcut hn (.inr hupdate)) fun _ u _ h => ages_updateHeader h
    · split
      · exact ends_ages ((beside_sessionHandlePing.and (sends_sessionHandlePing (notAck_goAway _)
          notAck_pong)).mono fun _ _ h => .of_streams h.1.streams h.2)
      · split
        · exact ends_ages ((beside_sessionHandleGoAway.and sends_sessionHandleGoAway).mono
            fun _ _ h => .of_streams h.1.streams h.2)
        · exact .pure (.refl s)

/-- A round that does not cut a stream short moves all streams on, and acknowledges none. -/
theorem ages_processRound (hcut : ¬ s.CutsShort) :
    Ends ok (fun _ _ t => Session.Ages NotAck s t) processRound ans s := by
  refine .seq (.read (.seq (.read ?_)))
  split
  · exact .pure (.refl s)
  · split
    · exact .pure (.refl s)
    · cases hn : s.newFrame with
      | false =>
        rw [if_neg Bool.false_ne_true]
        refine .seq (.pure ?_)
        rw [if_pos rfl]
        refine .seq ((ages_sessionHandle fun h => ?_).mono fun r ans₁ t ht => .pure ht)
        rw [hn] at h
        cases h
      | true =>
        rw [if_pos rfl]
        refine .seq (.seq (.crit (.seq (.check fun hlen => .pure ?_))))
        split
        · rename_i hversion
          have hlen' : hdrSize ≤ s.recvBuf.length := by
            have hfull := of_decide_eq_true hlen
            rw [List.length_take] at hfull
            omega
          have hhandle : Ends ok (fun _ _ t => Session.Ages NotAck { s with
              hdr := s.recvBuf.take hdrSize
              recvBuf := s.recvBuf.drop hdrSize } t) sessionHandle ans { s with
              hdr := s.recvBuf.take hdrSize
              recvBuf := s.recvBuf.drop hdrSize } :=
            ages_sessionHandle fun _ htype hc =>
              hcut ⟨hn, hlen', of_decide_eq_true hversion, htype, hc⟩
          exact .seq (hhandle.mono fun r ans₁ t ht => .pure ⟨⟨ht.states, ht.newborn⟩, ht.sends⟩)
        · exact .pure (.of_streams rfl (.of_eq rfl))

end Round

/-! ## What the calls of the application do -/

section Calls

variable {ok : Call → Bool → Prop} {ans : Answers Call} {s : Session} {id : UInt32} {st : Stream}

/-- A stream with a flag to send gets its update. -/
theorem Stream.grant_none {flags : UInt16} (h : (st.grant flags).1 = none) : flags = 0 := by
  unfold Stream.grant at h
  split at h
  · rename_i hc
    exact hc.2
  · cases h

theorem ends_sendWindowUpdate {Q : Int → Answers Call → Session → Prop}
    (hst : s.streams id = some st)
    (hQ : ∀ r ans' st' data, st'.state = st.sendFlags.2.state →
      (data = [] ∨ ∃ delta, data = hdrEncode TYPE_WINDOW_UPDATE st.sendFlags.1 id delta) →
      (r = 0 → st.sendFlags.1 ≠ 0 → data ≠ []) → Q r ans' ((s.setStream id st').queue data)) :
    Ends ok Q (sendWindowUpdate id) ans s := by
  refine .seq (ends_onStream fun st₀ hst₀ => .seq (ends_onStream fun st₁ hst₁ => ?_))
  obtain rfl := Option.some.inj (hst.symm.trans hst₀)
  obtain rfl := Option.some.inj ((s.setStream_same id _).symm.trans hst₁)
  rw [setStream_setStream]
  have hstate : (st.sendFlags.2.grant st.sendFlags.1).2.state = st.sendFlags.2.state := by
    obtain ⟨window, hw⟩ := st.sendFlags.2.grant_window st.sendFlags.1
    rw [hw]
  cases hgrant : (st.sendFlags.2.grant st.sendFlags.1).1 with
  | none =>
    refine .pure ?_
    rw [← Session.queue_nil (s.setStream id _)]
    exact hQ _ _ _ _ hstate (.inl rfl) fun _ hf => absurd (Stream.grant_none hgrant) hf
  | some delta =>
    refine .seq (ends_sendHeader (fun ans₁ => .pure ?_) fun ans₁ => .pure ?_)
    · rw [if_pos (by decide), ← Session.queue_nil (s.setStream id _)]
      exact hQ _ _ _ _ hstate (.inl rfl) fun hr => absurd hr (by decide)
    · exact hQ _ _ _ _ hstate (.inr ⟨delta, rfl⟩) fun _ _ => List.cons_ne_nil _ _

/-- A stream that does not wait for its ACK sends none. -/
theorem Stream.sendFlags_beyond (h : st.state ≠ .synReceived) :
    hasFlag st.sendFlags.1 FLAG_ACK = false ∧ st.state.Ages st.sendFlags.2.state := by
  unfold Stream.sendFlags
  cases hst : st.state with
  | synReceived => exact absurd hst h
  | init => exact ⟨show hasFlag FLAG_SYN FLAG_ACK = false by decide, nofun, nofun, nofun⟩
  | synSent | established | localClose | remoteClose | closed | reset =>
    refine ⟨show hasFlag 0 FLAG_ACK = false by decide, ?_⟩
    change StreamState.Ages _ st.state
    rw [hst]
    exact .refl _

theorem ages_sendWindowUpdate (hb : s.Beyond id) :
    Ends ok (fun _ _ t => Session.Ages NotAck s t) (sendWindowUpdate id) ans s := by
  obtain ⟨st, hst, hs⟩ := hb
  obtain ⟨hack, hage⟩ := Stream.sendFlags_beyond hs
  refine ends_sendWindowUpdate hst fun r ans' st' data hst' hdata _ => ?_
  rw [← hst'] at hage
  refine (Session.Ages.setStream hst hage).trans (.of_streams rfl ?_)
  rcases hdata with rfl | ⟨delta, rfl⟩
  · exact .of_eq (List.append_nil _)
  · exact .of_header (notAck_header (by decide) fun _ => hack) rfl

theorem ages_streamRead (hb : s.Beyond id) (size : Nat) :
    Ends ok (fun _ _ t => Session.Ages NotAck s t) (streamRead id size) ans s := by
  have same {α : Type} {ms : List Mutex} {g : Stream → α} :
      Acts ok (Session.Ages NotAck) (readStream ms id g) := ages_onStream fun _ => rfl
  have hclosed : Acts ok (Session.Ages NotAck) (streamReadClosed id) := by
    refine .bind (.acquire _) fun _ => .bind same fun state =>
      .bind ?_ fun _ => .bind (.release _) fun _ => .pure _
    cases state with
    | localClose | remoteClose | closed => exact .bind same fun _ => .pure _
    | init | synSent | synReceived | established | reset => exact .pure _
  refine .seq ((ends_ages hclosed).mono fun early ans₁ t ht => ?_)
  cases early with
  | some r => exact .pure ht
  | none =>
    refine .seq ((ends_ages_after ht same).mono fun r ans₂ u hu => ?_)
    split
    · refine ends_ages_after hu (.bind same fun nonblock => ?_)
      split
      · exact .pure _
      · refine .bind (.query _) fun selected => ?_
        split
        · exact .bind (.await _) fun _ => trivial
        · exact .pure _
    · have htake : Acts ok (Session.Ages NotAck) (onStream [.recv id] id (Stream.take size)) :=
        ages_onStream fun _ => rfl
      refine .seq ((ends_ages_after hu htake).mono fun taken ans₃ v hv => .seq (.check fun _ => ?_))
      have hwaiting : Acts ok (Session.Ages NotAck)
          (if taken.2.2 = 0 then streamReadableWaiting id else pure 0) := by
        split
        · exact ((touches_streamReadableWaiting (N := SameState) fun _ => rfl).and
            sends_streamReadableWaiting).mono fun _ _ h => h.1.sameState h.2
        · exact .pure _
      refine .seq ((ends_ages_after hv hwaiting).mono fun w ans₄ x hx => ?_)
      split
      · exact .pure hx
      · exact .seq ((ages_sendWindowUpdate (hx.beyond hb)).mono fun _ _ y hy =>
          .pure (hx.trans hy))

/-- All streams move on, and no ACK of a stream is queued. -/
structure Session.Silent (s t : Session) : Prop extends Session.Older s t where
  acks : ∀ i, acksIn s t i = 0

theorem Session.Ages.silent {t : Session} (h : Session.Ages NotAck s t) : s.Silent t :=
  ⟨h.toOlder, h.sends.acksIn⟩

/-- A header, some or all of its payload, and headers that are no ACKs. -/
theorem acksIn_write {t : Session} {flags : UInt16} {max : UInt32} {part : Bytes}
    {hs : List Bytes} (hack : hasFlag flags FLAG_ACK = false) (hP : ∀ x ∈ hs, NotAck x)
    (hlen : part.length = max.toNat ∨ (part.length ≤ max.toNat ∧ hs = []))
    (ht : t.sendBuf = s.sendBuf ++ (hdrEncode TYPE_DATA flags id max ++ (part ++ hs.flatten)))
    (i : UInt32) : acksIn s t i = 0 := by
  have hrest : (part ++ hs.flatten).drop max.toNat = hs.flatten := by
    rcases hlen with h | ⟨h, rfl⟩
    · rw [← h, List.drop_left]
    · rw [List.flatten_nil, List.append_nil, List.drop_eq_nil_iff]
      exact h
  have hsize : Frame.payloadSize (hdrEncode TYPE_DATA flags id max) = max.toNat := by
    rw [Frame.payloadSize, hdrType_hdrEncode, if_pos rfl, hdrLength_hdrEncode]
  rw [acksIn_of_append ht, headers_frame (length_hdrEncode _ _ _ _), hsize, hrest,
    List.countP_cons, countP_notAck hP, isAck, hdrFlags_hdrEncode, hack, Bool.and_false,
    Bool.false_and, if_neg Bool.false_ne_true]

/-- Of the bytes to queue some are queued, and all if nothing fails. -/
theorem ends_sendBytes {data : Bytes} {Q : Int → Answers Call → Session → Prop}
    (hQ : ∀ r ans' w, w.length ≤ data.length → (r ≠ -1 → w = data) → Q r ans' (s.queue w)) :
    Ends ok Q (sessionSendBufWrite data) ans s := by
  have hnodes : Ends ok (fun r _ t => t = s ∧ r.2.flatten <+: data ∧
      (r.1 = true → r.2.flatten = data))
      (Bio.writeNodes data.length data : Op (Bool × List Bytes)) ans s := by
    intro ha r ans' t hrun
    have hwp := (Env.wp_run (Bio.wp_writeNodes (μ := Mutex) ok data.length data (Nat.le_refl _) s) ha).1
    rw [hrun] at hwp
    obtain ⟨rfl, done, nodes, ho, -, hpre, hall, -⟩ := hwp
    cases ho
    exact ⟨rfl, hpre, hall⟩
  refine .seq (.seq (hnodes.mono ?_))
  rintro ⟨done, nodes⟩ ans' t ⟨rfl, hpre, hall⟩
  refine .pure (.seq (.modify (.pure (hQ _ _ _ hpre.length_le fun hr => hall ?_))))
  cases done with
  | true => rfl
  | false => exact absurd rfl hr

theorem ages_streamWriteDebit (max : UInt32) :
    Acts ok (Session.Ages NotAck) (streamWriteDebit id max) := by
  refine .bind (ages_onStream fun st => state_sendWindow st _) fun window => .bind ?_ fun w => ?_
  · split
    · exact ((touches_streamWriteableWaiting (N := SameState) fun _ => rfl).and
        sends_streamWriteableWaiting).mono fun _ _ h => h.1.sameState h.2
    · exact .pure _
  · split
    · exact ages_goAway_then _ (.pure _)
    · exact .pure _

theorem silent_streamWriteFrame (hb : s.Beyond id) (data : Bytes) (window : UInt32) :
    Ends ok (fun _ _ t => s.Silent t) (streamWriteFrame id data window) ans s := by
  obtain ⟨st, hst, hs⟩ := hb
  obtain ⟨hack, hage⟩ := Stream.sendFlags_beyond hs
  have hpart : (data.take (writeMax window data.length).toNat).length =
      (writeMax window data.length).toNat := by
    rw [List.length_take, min_eq_left (writeMax_le window data.length)]
  refine .seq (ends_onStream fun st₀ hst₀ => ?_)
  obtain rfl := Option.some.inj (hst.symm.trans hst₀)
  have hflags (w : Bytes) : s.Older ((s.setStream id st.sendFlags.2).queue w) :=
    (Session.Older.setStream hst hage).trans (.of_streams rfl)
  refine .seq (ends_sendHeader (fun ans₁ => ?_) fun ans₁ => ?_)
  · rw [if_pos rfl]
    exact .pure (Session.Ages.setStream hst hage).silent
  · rw [if_neg (by decide)]
    refine .seq (ends_sendBytes fun r ans₂ w hle hall => ?_)
    rw [hpart] at hle
    have hsent : ((s.setStream id st.sendFlags.2).queue (hdrEncode TYPE_DATA st.sendFlags.1 id
        (writeMax window data.length))).queue w = (s.setStream id st.sendFlags.2).queue
          (hdrEncode TYPE_DATA st.sendFlags.1 id (writeMax window data.length) ++ w) := by
      unfold Session.queue
      rw [List.append_assoc]
    rw [hsent]
    split
    · refine .pure ⟨hflags _, fun i => ?_⟩
      have hnone : ∀ x ∈ ([] : List Bytes), NotAck x := fun _ h => absurd h List.not_mem_nil
      have hbytes : ((s.setStream id st.sendFlags.2).queue (hdrEncode TYPE_DATA st.sendFlags.1 id
          (writeMax window data.length) ++ w)).sendBuf = s.sendBuf ++ (hdrEncode TYPE_DATA
            st.sendFlags.1 id (writeMax window data.length) ++ (w ++ ([] : List Bytes).flatten)) := by
        rw [List.flatten_nil, List.append_nil]
        rfl
      exact acksIn_write hack hnone (.inr ⟨hle, rfl⟩) hbytes i
    · rename_i hr
      obtain rfl := hall hr
      refine (ends_ages (ages_streamWriteDebit _)).mono fun _ _ t ht => ?_
      obtain ⟨hs, hP, he⟩ := ht.sends
      refine ⟨(hflags _).trans ht.toOlder, fun i => ?_⟩
      have hbytes : t.sendBuf = s.sendBuf ++ (hdrEncode TYPE_DATA st.sendFlags.1 id
          (writeMax window data.length) ++ (data.take (writeMax window data.length).toNat ++
            hs.flatten)) := by
        rw [he, ← List.append_assoc _ _ hs.flatten]
        exact List.append_assoc s.sendBuf _ _
      exact acksIn_write hack hP (.inl hpart) hbytes i

theorem silent_streamWrite (hb : s.Beyond id) (data : Bytes) :
    Ends ok (fun _ _ t => s.Silent t) (streamWrite id data) ans s := by
  refine .seq (ends_readStream fun st hst => ?_)
  have live : Ends ok (fun _ _ t => s.Silent t) (do
      let window ← readStream [.send id] id Stream.sendWindow
      if window = 0 then do
        if ← readStream [] id Stream.nonblock then pure (-1)
        else do
          let selected ← query .sock
          if selected then do
            await fun s => (s.streams id).any Stream.writeable
            again
          else pure (-1)
      else streamWriteFrame id data window) ans s := by
    refine .seq (ends_readStream fun st hst => ?_)
    split
    · refine .seq (ends_readStream fun st hst => ?_)
      split
      · exact .pure (Session.Ages.refl s).silent
      · refine .seq (.query fun _ => ?_)
        split
        · exact .seq (.await fun _ => .again)
        · exact .pure (Session.Ages.refl s).silent
    · exact silent_streamWriteFrame hb data _
  cases hstate : st.state with
  | localClose | closed | reset => exact .pure (Session.Ages.refl s).silent
  | init | synSent | synReceived | established | remoteClose => exact live

/-- What a call of `session_accept` does: it takes the oldest id and acknowledges its stream,
with a window update that may fail. -/
inductive Session.Greets (s : Session) : Option UInt32 → Session → Prop where
  | nothing {t : Session} (h : s.Silent t) (hids : SameIds s t) : s.Greets none t
  | stream {id : UInt32} {rest : List UInt32} {st st' : Stream} {data : Bytes} {r : Option UInt32}
      (ha : s.accepts = id :: rest) (hst : s.streams id = some st)
      (hst' : st'.state = st.sendFlags.2.state)
      (hdata : data = [] ∨ ∃ delta, data = hdrEncode TYPE_WINDOW_UPDATE st.sendFlags.1 id delta)
      (hr : r = none ∨ (r = some id ∧ (st.sendFlags.1 ≠ 0 → data ≠ []))) :
      s.Greets r (({ s with accepts := rest }.setStream id st').queue data)

theorem ends_acceptGreets : Ends ok (fun r _ t => s.Greets r t) sessionAccept ans s := by
  refine .seq (.query fun _ => ?_)
  split
  · refine .seq (.await fun _ => .seq (.crit ?_))
    cases ha : s.accepts with
    | nil => exact .again
    | cons id rest =>
      refine .seq (.read (.seq (.check fun hlive => ?_)))
      obtain ⟨st, hst⟩ := Option.isSome_iff_exists.mp hlive
      refine .seq (ends_sendWindowUpdate hst fun r ans₁ st' data hst' hdata hr => .pure ?_)
      refine .stream ha hst hst' hdata ?_
      split
      · exact .inl rfl
      · rename_i hzero
        exact .inr ⟨rfl, hr (Decidable.not_not.mp hzero)⟩
  · have hids : Acts ok SameIds (sessionGoAwayForReason GO_AWAY_INTERNAL_ERR) :=
      (acts_sessionGoAwayForReason _).mono fun _ _ h => h.sameIds
    refine .seq (((ends_ages (ages_sessionGoAwayForReason _)).and (ends_sameIds hids)).mono
      fun r ans₁ t ht => .pure (.nothing ht.1.silent ht.2))

/-- What a call of `session_open` does: its stream does not wait for an ACK. -/
structure Session.Opens (s : Session) (r : Option UInt32) (t : Session) : Prop where
  states : ∀ i st, s.streams i = some st → ∃ st', t.streams i = some st' ∧ st.state.Ages st'.state
  newborn : ∀ i st', s.streams i = none → t.streams i = some st' → st'.state ≠ .synReceived
  accepts : t.accepts = s.accepts
  acks : ∀ i, acksIn s t i = 0
  opened : ∀ id, r = some id → s.streams id = none ∧ t.Beyond id

theorem ends_opens (tries : Nat) :
    Ends ok (fun r _ t => s.Opens r t) (sessionOpen tries) ans s := by
  have fails {ans₁ : Answers Call} {t : Session} (h : Session.Ages NotAck s t)
      (hids : SameIds s t) : Ends ok (fun r _ t => s.Opens r t)
        (pure none : Op (Option UInt32)) ans₁ t := by
    refine .pure ⟨h.states, fun i st' hnone hst' => ?_, hids.accepts, h.silent.acks,
      fun _ h => by cases h⟩
    have hsome := hids.domain i
    rw [hnone, hst'] at hsome
    cases hsome
  refine .seq (.read ?_)
  split
  · exact fails (.refl s) (.refl s)
  · have hages : Acts ok (Session.Ages NotAck) (takeId tries) :=
      changes_takeId .refl (fun _ => .of_streams rfl (.of_eq rfl)) tries
    have hcount : Acts ok SameIds (takeId tries) :=
      changes_takeId .refl (fun _ => .of_streams rfl rfl) tries
    refine .seq (((ends_ages hages).and (ends_sameIds hcount)).mono fun taken ans₁ t ht => ?_)
    obtain ⟨hage, hids⟩ := ht
    cases taken with
    | none => exact fails hage hids
    | some id =>
      refine .seq (ends_streamNew (fun ans₂ => fails hage hids) fun hnone ans₂ _ => ?_)
      rw [if_pos rfl]
      have hbeyond : (t.setStream id (Stream.fresh .init t.rcvbuf)).Beyond id :=
        ⟨_, t.setStream_same id _, fun h => by cases h⟩
      have hupdate : Acts ok SameIds (sendWindowUpdate id) :=
        touches_sendWindowUpdate.mono fun _ _ h => h.streamsOnly.sameIds
      refine .seq (((ages_sendWindowUpdate hbeyond).and (ends_sameIds hupdate)).mono
        fun r ans₃ u hu => ?_)
      obtain ⟨hlater, hstays⟩ := hu
      have hold : ∀ i st, s.streams i = some st →
          i ≠ id ∧ ∃ st', u.streams i = some st' ∧ st.state.Ages st'.state := by
        intro i st hst
        obtain ⟨st₁, hst₁, h₁⟩ := hage.states i st hst
        have hi : i ≠ id := by
          rintro rfl
          rw [hnone] at hst₁
          cases hst₁
        obtain ⟨st₂, hst₂, h₂⟩ := hlater.states i st₁ ((t.setStream_of_ne _ _ hi).trans hst₁)
        exact ⟨hi, st₂, hst₂, h₁.trans h₂⟩
      have hnew : ∀ i, i ≠ id → s.streams i = none → u.streams i = none := by
        intro i hi hs
        rw [← Option.not_isSome_iff_eq_none, hstays.domain]
        rw [show (t.setStream id (Stream.fresh .init t.rcvbuf)).streams i = t.streams i from
          t.setStream_of_ne _ _ hi, hids.domain, hs]
        exact Bool.false_ne_true
      have haccepts : u.accepts = s.accepts := hstays.accepts.trans hids.accepts
      have hacks : Sends NotAck s u := hage.sends.trans hlater.sends
      split
      · refine .seq (.seq (.crit (.check fun _ => .pure ⟨fun i st hst => ?_, fun i st' hs hst' => ?_,
          haccepts, hacks.acksIn, fun _ h => by cases h⟩)))
        · obtain ⟨hi, h⟩ := hold i st hst
          change ∃ st', Function.update u.streams id none i = some st' ∧ _
          rwa [Function.update_of_ne hi]
        · change Function.update u.streams id none i = some st' at hst'
          by_cases hi : i = id
          · subst hi
            rw [Function.update_self] at hst'
            cases hst'
          · rw [Function.update_of_ne hi, hnew i hi hs] at hst'
            cases hst'
      · have hopened : u.Beyond id := hlater.beyond hbeyond
        refine .pure ⟨fun i st hst => (hold i st hst).2, fun i st' hs hst' => ?_, haccepts,
          hacks.acksIn, fun j hj => ?_⟩
        · by_cases hi : i = id
          · subst hi
            obtain ⟨st, hst, hstate⟩ := hopened
            obtain rfl := Option.some.inj (hst.symm.trans hst')
            exact hstate
          · rw [hnew i hi hs] at hst'
            cases hst'
        · obtain rfl := Option.some.inj hj
          refine ⟨?_, hopened⟩
          rw [← Option.not_isSome_iff_eq_none, ← hids.domain, hnone]
          exact Bool.false_ne_true

/-- The calls that neither receive nor open nor accept, on streams of the application. -/
def Api.UsesOnly (handed : List UInt32) : Api → Prop
  | .process | .openStream _ | .acceptStream => False
  | .read id _ | .write id _ => id ∈ handed
  | _ => True

theorem Api.UsesOnly.keepsIds {c : Api} {handed : List UInt32} (h : c.UsesOnly handed) :
    c.KeepsIds := by
  cases c <;> first | exact h | trivial

theorem acksIn_of_prefix {t : Session} (h : t.sendBuf.length ≤ s.sendBuf.length) (i : UInt32) :
    acksIn s t i = 0 := by
  rw [acksIn, List.drop_of_length_le h, headers_short (by decide)]
  rfl

/-- Calls on streams that do not wait for an ACK send none. -/
theorem silent_code {c : Api} {handed : List UInt32} (hc : c.UsesOnly handed)
    (hb : ∀ i ∈ handed, s.Beyond i) : Ends ok (fun _ _ t => s.Silent t) c.code ans s := by
  have forgets {α : Type} {p : Op α} (hp : Ends ok (fun _ _ t => s.Silent t) p ans s) :
      Ends ok (fun _ _ t => s.Silent t) (forget p) ans s :=
    .seq (hp.mono fun _ _ _ ht => .pure ht)
  cases c with
  | recvBufWrite data =>
    have hrecv : Acts ok (Session.Ages NotAck) (sessionRecvBufWrite data) :=
      .bind (acts_bioWrite _) fun _ =>
        .bind (.modify fun _ => .of_streams rfl (.of_eq rfl)) fun _ => .pure _
    exact forgets ((ends_ages hrecv).mono fun _ _ _ ht => ht.silent)
  | sendBufPending | sendBufPeek => exact .seq (.read (.pure (Session.Ages.refl s).silent))
  | sendBufConsume n =>
    refine .seq (.crit (.pure ⟨.of_streams rfl, acksIn_of_prefix ?_⟩))
    rw [List.length_drop]
    omega
  | read id size =>
    exact forgets ((ages_streamRead (hb id hc) size).mono fun _ _ _ ht => ht.silent)
  | write id data => exact forgets (silent_streamWrite (hb id hc) data)
  | goAway =>
    exact forgets ((ends_ages (ages_sessionGoAwayForReason _)).mono fun _ _ _ ht => ht.silent)
  | process | openStream | acceptStream => exact hc.elim

end Calls

/-! ## Runs -/

/-- The streams of a run that the application has, those of them that it has accepted, and
how many ACKs have been queued for each stream. -/
structure AckLog where
  handed : List UInt32
  accepted : List UInt32
  acks : UInt32 → Nat

/-- A new session has queued no ACK. -/
def AckLog.init : AckLog := ⟨[], [], fun _ => 0⟩

/-- The log after a step that queues more ACKs. -/
def AckLog.after (e : AckLog) (s t : Session) : AckLog :=
  { e with acks := fun id => e.acks id + acksIn s t id }

/-- The states that rounds of `session_process` and calls lead to, whatever fails in them,
where `allowed` holds before each round. The application reads and writes the streams that
it has opened or accepted. -/
inductive AckRun (allowed : Session → Prop) (client : Bool) (rcvbuf : UInt32) :
    Session → AckLog → Prop where
  | init : AckRun allowed client rcvbuf (sessionInit client rcvbuf) .init
  | round {s t : Session} {e : AckLog} {ans ans' : Answers Call} {r : Option Int}
      (h : AckRun allowed client rcvbuf s e) (hallowed : allowed s)
      (hrun : processRound.run ans s = (.ret r, ans', t)) :
      AckRun allowed client rcvbuf t (e.after s t)
  | opens {s t : Session} {e : AckLog} {ans ans' : Answers Call} {tries : Nat}
      {r : Option UInt32} (h : AckRun allowed client rcvbuf s e)
      (hrun : (sessionOpen tries).run ans s = (.ret r, ans', t)) :
      AckRun allowed client rcvbuf t { e.after s t with handed := e.handed ++ r.toList }
  | accepts {s t : Session} {e : AckLog} {ans ans' : Answers Call} {r : Option UInt32}
      (h : AckRun allowed client rcvbuf s e)
      (hrun : sessionAccept.run ans s = (.ret r, ans', t)) :
      AckRun allowed client rcvbuf t { e.after s t with
        handed := e.handed ++ r.toList
        accepted := e.accepted ++ r.toList }
  | other {s t : Session} {e : AckLog} {ans ans' : Answers Call} {c : Api}
      (h : AckRun allowed client rcvbuf s e) (hc : c.UsesOnly e.handed)
      (hrun : c.code.run ans s = (.ret (), ans', t)) :
      AckRun allowed client rcvbuf t (e.after s t)

section Run

variable {allowed : Session → Prop} {client : Bool} {rcvbuf : UInt32} {s t : Session} {e : AckLog}

/-- A stream whose id waits has had no ACK; an accepted one has had its ACK, unless it was
reset. -/
structure AckLog.Owes (e : AckLog) (s : Session) : Prop where
  once : s.accepts.Nodup
  waits : ∀ id ∈ s.accepts, id ∉ e.accepted ∧ e.acks id = 0 ∧
    ∃ st, s.streams id = some st ∧ (st.state = .synReceived ∨ st.state = .reset)
  absent : ∀ id, s.streams id = none → e.acks id = 0
  handed : ∀ id ∈ e.handed, s.Beyond id
  accepted : ∀ id ∈ e.accepted, e.acks id ≤ 1 ∧
    ∃ st, s.streams id = some st ∧ (st.state = .reset ∨ e.acks id = 1)

/-- A step that queues no ACKs. -/
theorem AckLog.Owes.silent {ids : List UInt32} (h : e.Owes s) (hs : s.Silent t)
    (ha : Admits s t ids) (hids : ids.Nodup) : (e.after s t).Owes t := by
  have hacks : (e.after s t).acks = e.acks := by
    funext id
    exact congrArg (e.acks id + ·) (hs.acks id)
  refine ⟨?_, fun id hid => ?_, fun id hnone => ?_, fun id hid => hs.beyond (h.handed id hid),
    fun id hid => ?_⟩
  · rw [ha.accepts]
    refine h.once.append hids fun id hid hnew => ?_
    obtain ⟨-, -, st, hst, -⟩ := h.waits id hid
    rw [ha.fresh id hnew] at hst
    cases hst
  · rw [hacks]
    rw [ha.accepts] at hid
    rcases List.mem_append.mp hid with hold | hnew
    · obtain ⟨hout, hzero, st, hst, hstate⟩ := h.waits id hold
      obtain ⟨st', hst', hage⟩ := hs.states id st hst
      refine ⟨hout, hzero, st', hst', ?_⟩
      rcases hstate with hw | hr
      · exact hage.waiting hw
      · exact .inr (hage.reset hr)
    · have hnone := ha.fresh id hnew
      obtain ⟨st', hst'⟩ := Option.isSome_iff_exists.mp ((ha.domain id).mpr (.inr hnew))
      refine ⟨fun hacc => ?_, h.absent id hnone, st', hst', hs.newborn id st' hnone hst'⟩
      obtain ⟨-, st, hst, -⟩ := h.accepted id hacc
      rw [hnone] at hst
      cases hst
  · rw [hacks]
    refine h.absent id ?_
    cases hst : s.streams id with
    | none => rfl
    | some st =>
      obtain ⟨st', hst', -⟩ := hs.states id st hst
      rw [hnone] at hst'
      cases hst'
  · rw [hacks]
    obtain ⟨hle, st, hst, hstate⟩ := h.accepted id hid
    obtain ⟨st', hst', hage⟩ := hs.states id st hst
    exact ⟨hle, st', hst', hstate.imp_left hage.reset⟩

/-- A step that opens a stream. -/
theorem AckLog.Owes.opens {r : Option UInt32} (h : e.Owes s) (ho : s.Opens r t) :
    ({ e.after s t with handed := e.handed ++ r.toList } : AckLog).Owes t := by
  have hacks : (e.after s t).acks = e.acks := by
    funext id
    exact congrArg (e.acks id + ·) (ho.acks id)
  refine ⟨by rw [ho.accepts]; exact h.once, fun id hid => ?_, fun id hnone => ?_, fun id hid => ?_,
    fun id hid => ?_⟩
  · rw [ho.accepts] at hid
    obtain ⟨hout, hzero, st, hst, hstate⟩ := h.waits id hid
    obtain ⟨st', hst', hage⟩ := ho.states id st hst
    refine ⟨hout, (congrFun hacks id).trans hzero, st', hst', ?_⟩
    rcases hstate with hw | hr
    · exact hage.waiting hw
    · exact .inr (hage.reset hr)
  · refine (congrFun hacks id).trans (h.absent id ?_)
    cases hst : s.streams id with
    | none => rfl
    | some st =>
      obtain ⟨st', hst', -⟩ := ho.states id st hst
      rw [hnone] at hst'
      cases hst'
  · rcases List.mem_append.mp hid with hold | hnew
    · obtain ⟨st, hst, hs⟩ := h.handed id hold
      obtain ⟨st', hst', hage⟩ := ho.states id st hst
      exact ⟨st', hst', hage.beyond hs⟩
    · exact (ho.opened id (Option.mem_toList.mp hnew)).2
  · obtain ⟨hle, st, hst, hstate⟩ := h.accepted id hid
    obtain ⟨st', hst', hage⟩ := ho.states id st hst
    change (e.after s t).acks id ≤ 1 ∧ ∃ st, _ ∧ (_ ∨ (e.after s t).acks id = 1)
    rw [hacks]
    exact ⟨hle, st', hst', hstate.imp_left hage.reset⟩

/-- The window update of an accepted stream is an ACK for it alone. -/
theorem isAck_update (i id : UInt32) (flags : UInt16) (delta : UInt32) :
    isAck i (hdrEncode TYPE_WINDOW_UPDATE flags id delta) = (hasFlag flags FLAG_ACK && id == i) := by
  rw [isAck, hdrType_hdrEncode, hdrFlags_hdrEncode, hdrStreamId_hdrEncode]
  rfl

theorem headers_update (flags : UInt16) (id delta : UInt32) :
    headers (hdrEncode TYPE_WINDOW_UPDATE flags id delta) =
      [hdrEncode TYPE_WINDOW_UPDATE flags id delta] := by
  have h := @headers_flatten [hdrEncode TYPE_WINDOW_UPDATE flags id delta] fun x hx => by
    obtain rfl := List.mem_singleton.mp hx
    refine ⟨length_hdrEncode _ _ _ _, ?_⟩
    rw [Frame.payloadSize, hdrType_hdrEncode, if_neg (by decide)]
  rwa [List.flatten_cons, List.flatten_nil, List.append_nil] at h

/-- The ACKs of a window update, if it was sent at all. -/
theorem countP_update {i id : UInt32} {flags : UInt16} {data : Bytes}
    (hdata : data = [] ∨ ∃ delta, data = hdrEncode TYPE_WINDOW_UPDATE flags id delta) :
    (headers data).countP (isAck i) =
      if data ≠ [] ∧ hasFlag flags FLAG_ACK = true ∧ i = id then 1 else 0 := by
  rcases hdata with rfl | ⟨delta, rfl⟩
  · rw [headers_short (by decide), if_neg fun h => h.1 rfl]
    rfl
  · rw [headers_update, List.countP_singleton, isAck_update]
    have hne : hdrEncode TYPE_WINDOW_UPDATE flags id delta ≠ [] := List.cons_ne_nil _ _
    by_cases hi : i = id
    · subst hi
      simp [hne]
    · simp [hi, Ne.symm hi]

/-- A step that accepts a stream, which waited or was reset. -/
theorem AckLog.Owes.accepts {r : Option UInt32} (h : e.Owes s) (ha : s.Greets r t) :
    ({ e.after s t with
        handed := e.handed ++ r.toList
        accepted := e.accepted ++ r.toList } : AckLog).Owes t := by
  cases ha with
  | nothing hs hids =>
    have hsame := h.silent hs hids.admits List.nodup_nil
    rw [Option.toList_none, List.append_nil, List.append_nil]
    exact hsame
  | @stream id rest st st' data r ha hst hst' hdata hr =>
    have hacks (i : UInt32) : acksIn s (({ s with accepts := rest }.setStream id st').queue data) i
        = if data ≠ [] ∧ hasFlag st.sendFlags.1 FLAG_ACK = true ∧ i = id then 1 else 0 :=
      (acksIn_of_append rfl i).trans (countP_update hdata)
    generalize ht : ({ s with accepts := rest }.setStream id st').queue data = t at hacks ⊢
    have hself : t.streams id = some st' := by
      rw [← ht]
      exact Session.setStream_same _ id st'
    have hother (i : UInt32) (hi : i ≠ id) : t.streams i = s.streams i := by
      rw [← ht]
      exact Session.setStream_of_ne _ _ _ hi
    have hnone (i : UInt32) (hi : i ≠ id) : acksIn s t i = 0 := by
      rw [hacks, if_neg fun h => hi h.2.2]
    have honce : id ∉ rest ∧ rest.Nodup := List.nodup_cons.mp (ha ▸ h.once)
    obtain ⟨hout, hzero, st₀, hst₀, hstate⟩ := h.waits id (ha ▸ List.mem_cons_self)
    obtain rfl := Option.some.inj (hst.symm.trans hst₀)
    -- the flags that the state of the stream asks for, and the state that follows
    have hsent : (st'.state = .established ∧ st.sendFlags.1 = FLAG_ACK) ∨
        (st'.state = .reset ∧ st.sendFlags.1 = 0) := by
      rw [hst', Stream.sendFlags]
      rcases hstate with hw | hw
      · rw [hw]
        exact .inl ⟨rfl, rfl⟩
      · rw [hw]
        exact .inr ⟨hw, rfl⟩
    have hbeyond : t.Beyond id := by
      refine ⟨st', hself, ?_⟩
      rcases hsent with ⟨hs, -⟩ | ⟨hs, -⟩
      · rw [hs]
        exact nofun
      · rw [hs]
        exact nofun
    have hstays (i : UInt32) (hb : s.Beyond i) : t.Beyond i := by
      by_cases hi : i = id
      · exact hi ▸ hbeyond
      · obtain ⟨st, hst, hs⟩ := hb
        exact ⟨st, (hother i hi).trans hst, hs⟩
    have hreturned (i : UInt32) (hi : i ∈ r.toList) : i = id ∧
        (st.sendFlags.1 ≠ 0 → data ≠ []) := by
      rcases hr with rfl | ⟨rfl, hne⟩
      · cases hi
      · exact ⟨List.mem_singleton.mp hi, hne⟩
    refine ⟨?_, fun i hi => ?_, fun i hi => ?_, fun i hi => ?_, fun i hi => ?_⟩
    · rw [← ht]
      exact honce.2
    · have hi : i ∈ rest := by
        rw [← ht] at hi
        exact hi
      have hne : i ≠ id := fun h => honce.1 (h ▸ hi)
      obtain ⟨hacc, hz, hlive⟩ := h.waits i (ha ▸ List.mem_cons_of_mem id hi)
      refine ⟨fun hmem => ?_, ?_, by rw [hother i hne]; exact hlive⟩
      · rcases List.mem_append.mp hmem with hold | hnew
        · exact hacc hold
        · exact hne (hreturned i hnew).1
      · exact (congrArg (e.acks i + ·) (hnone i hne)).trans hz
    · have hne : i ≠ id := by
        rintro rfl
        rw [hself] at hi
        cases hi
      rw [hother i hne] at hi
      exact (congrArg (e.acks i + ·) (hnone i hne)).trans (h.absent i hi)
    · rcases List.mem_append.mp hi with hold | hnew
      · exact hstays i (h.handed i hold)
      · exact (hreturned i hnew).1 ▸ hbeyond
    · change e.acks i + acksIn s t i ≤ 1 ∧ ∃ st, _ ∧ (_ ∨ e.acks i + acksIn s t i = 1)
      rcases List.mem_append.mp hi with hold | hnew
      · have hne : i ≠ id := fun h => hout (h ▸ hold)
        rw [hnone i hne, hother i hne]
        exact h.accepted i hold
      · obtain ⟨rfl, hne⟩ := hreturned i hnew
        rw [hzero, hacks, Nat.zero_add]
        refine ⟨by split <;> omega, st', hself, ?_⟩
        rcases hsent with ⟨-, hf⟩ | ⟨hs, -⟩
        · refine .inr (if_pos ⟨hne ?_, ?_, rfl⟩)
          · rw [hf]
            decide
          · rw [hf]
            decide
        · exact .inl hs

theorem AckRun.owes (h : AckRun (fun s => ¬ s.CutsShort) client rcvbuf s e) : e.Owes s := by
  induction h with
  | init =>
    exact ⟨List.nodup_nil, fun _ h => absurd h List.not_mem_nil, fun _ _ => rfl,
      fun _ h => absurd h List.not_mem_nil, fun _ h => absurd h List.not_mem_nil⟩
  | round h hallowed hrun ih =>
    have hages := ages_processRound hallowed (allowed_anyAnswer _) _ _ _ hrun
    exact ih.silent hages.silent (ends_arrived (allowed_anyAnswer _) _ _ _ hrun) nodup_arrived
  | opens h hrun ih => exact ih.opens (ends_opens _ (allowed_anyAnswer _) _ _ _ hrun)
  | accepts h hrun ih => exact ih.accepts (ends_acceptGreets (allowed_anyAnswer _) _ _ _ hrun)
  | other h hc hrun ih =>
    have hsilent := silent_code hc ih.handed (allowed_anyAnswer _) _ _ _ hrun
    have hids := ends_sameIds (sameIds_code hc.keepsIds) (allowed_anyAnswer _) _ _ _ hrun
    exact ih.silent hsilent hids.admits List.nodup_nil

/-- Each stream that the application has accepted has had exactly one ACK, unless it was
reset; and none has had two. -/
structure OneAck (s : Session) (e : AckLog) : Prop where
  one : ∀ id ∈ e.accepted, ∀ st, s.streams id = some st → st.state ≠ .reset → e.acks id = 1
  notTwo : ∀ id ∈ e.accepted, e.acks id ≤ 1

/-- In a run no round of which cuts a stream short, accepted streams get one ACK. -/
theorem accept_acks_once (h : AckRun (fun s => ¬ s.CutsShort) client rcvbuf s e) :
    OneAck s e := by
  refine ⟨fun id hid st hst hlive => ?_, fun id hid => (h.owes.accepted id hid).1⟩
  obtain ⟨-, st', hst', hstate⟩ := h.owes.accepted id hid
  obtain rfl := Option.some.inj (hst.symm.trans hst')
  exact hstate.resolve_left hlive

end Run

/-! ## A SYN with and without a FIN -/

/-- A new session with one header to process. -/
def fedHeader (hdr : Bytes) : Session := (sessionInit true 4096).more hdr

/-- The log after the header was fed and processed, and `session_accept` returned stream 2. -/
def synLog (hdr : Bytes) (t u : Session) : AckLog :=
  { (((AckLog.init.after (sessionInit true 4096) (fedHeader hdr)).after (fedHeader hdr)
        t).after t u) with
    handed := [2]
    accepted := [2] }

theorem run_of_exec {α : Type} {p : Op α} {s : Session} {a : α} (h : (p.exec s).1 = .ret a) :
    p.run noFail s = (.ret a, noFail, (p.exec s).2) := by
  rw [run_noFail, h]

theorem ackRun_syn {allowed : Session → Prop} {hdr : Bytes} {t u : Session}
    (h : allowed (fedHeader hdr))
    (hround : processRound.run noFail (fedHeader hdr) = (.ret none, noFail, t))
    (haccept : sessionAccept.run noFail t = (.ret (some 2), noFail, u)) :
    AckRun allowed true 4096 u (synLog hdr t u) := by
  have hfed : (Api.recvBufWrite hdr).code.run noFail (sessionInit true 4096) =
      (.ret (), noFail, fedHeader hdr) := by
    rw [run_noFail, Api.code, exec_forget (exec_sessionRecvBufWrite _ _)]
    rfl
  have hc : (Api.recvBufWrite hdr).UsesOnly AckLog.init.handed := trivial
  exact ((AckRun.init.other hc hfed).round h hround).accepts haccept

/-- A SYN alone: the stream is accepted with one ACK. -/
theorem accept_acks_once_syn : ∃ (s : Session) (e : AckLog) (st : Stream),
    AckRun (fun s => ¬ s.CutsShort) true 4096 s e ∧ e.accepted = [2] ∧ s.streams 2 = some st ∧
      st.state ≠ .reset ∧ OneAck s e := by
  have hrun := @ackRun_syn (fun s => ¬ s.CutsShort) (hdrEncode TYPE_WINDOW_UPDATE FLAG_SYN 2 0) _ _
    (fun h => absurd h.2.2.2.2.1 (by decide +kernel)) (run_of_exec (by decide +kernel))
    (run_of_exec (by decide +kernel))
  have hstate : (((sessionAccept.exec (processRound.exec (fedHeader (hdrEncode TYPE_WINDOW_UPDATE
      FLAG_SYN 2 0))).2).2.streams 2).map Stream.state) = some .established := by
    decide +kernel
  obtain ⟨st, hst, hstate⟩ := Option.map_eq_some_iff.mp hstate
  exact ⟨_, _, st, hrun, rfl, hst, by rw [hstate]; exact nofun, accept_acks_once hrun⟩

/-- A SYN with a FIN: the stream is accepted without an ACK, though it is not reset. -/
theorem accept_misses_ack : ∃ (s : Session) (e : AckLog) (st : Stream),
    AckRun (fun _ => True) true 4096 s e ∧ 2 ∈ e.accepted ∧ s.streams 2 = some st ∧
      st.state = .remoteClose ∧ e.acks 2 = 0 := by
  have hrun := @ackRun_syn (fun _ => True) (hdrEncode TYPE_WINDOW_UPDATE (FLAG_SYN ||| FLAG_FIN)
    2 0) _ _ trivial (run_of_exec (by decide +kernel)) (run_of_exec (by decide +kernel))
  have hend : (((sessionAccept.exec (processRound.exec (fedHeader (hdrEncode TYPE_WINDOW_UPDATE
      (FLAG_SYN ||| FLAG_FIN) 2 0))).2).2.streams 2).map Stream.state) = some .remoteClose := by
    decide +kernel
  obtain ⟨st, hst, hstate⟩ := Option.map_eq_some_iff.mp hend
  refine ⟨_, _, st, hrun, List.mem_cons_self, hst, hstate, ?_⟩
  decide +kernel

end Yamux
