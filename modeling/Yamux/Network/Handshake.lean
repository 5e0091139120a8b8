import Yamux.Network.Delivery

/-!
# The handshake of a stream

A stream is opened by a SYN and answered by an ACK, each riding on the first frame
that its side sends. The handshake is a machine of its own: two stream states, the
flags on the way, and a place in the accept queue. Every step of a connection is a
step of every handshake, so each opened stream is always in one of four phases.
-/

namespace Yamux

open Core Prog Session

/-! ## The machine -/

/-- What two endpoints and the channels between them know of one stream. -/
structure Handshake where
  /-- The state of the stream where it was opened. -/
  opener : Option StreamState
  /-- Its state at the other end. -/
  acceptor : Option StreamState
  /-- The flags of the frames for it on the way from the opener. -/
  out : List UInt16
  /-- The flags of the frames for it on the way back. -/
  back : List UInt16
  /-- The opener is in the middle of a frame for it. -/
  busy : Bool
  /-- How often it is in the accept queue of the other end. -/
  waiting : Nat

/-- Flags without SYN and ACK. -/
def Plain (flags : UInt16) : Prop :=
  hasFlag flags FLAG_SYN = false ∧ hasFlag flags FLAG_ACK = false

theorem plain_zero : Plain 0 := by
  unfold Plain
  decide

/-- What a side sends with its next frames, of which there is at most one. -/
def Said (state : StreamState) (flags : List UInt16) : Prop :=
  flags = [state.flags] ∨ (flags = [] ∧ state.flags = 0)

theorem Said.plain {state : StreamState} {flags : List UInt16} (h : Said state flags)
    (hs : state.flags = 0) : ∀ f ∈ flags, Plain f := by
  rcases h with rfl | ⟨rfl, -⟩
  · rw [hs]
    exact fun f hf => (List.mem_singleton.mp hf) ▸ plain_zero
  · exact fun f hf => absurd hf List.not_mem_nil

namespace Handshake

/-- Nothing has happened. -/
def unopened : Handshake := ⟨none, none, [], [], false, 0⟩

/-- The steps of the two ends. -/
inductive Step : Handshake → Handshake → Prop where
  /-- The stream is opened and declared. -/
  | start (h : Handshake) (hnew : h.opener = none) :
      Step h { h with opener := some .synSent, out := h.out ++ [FLAG_SYN] }
  | say (h : Handshake) (state : StreamState) (flags : List UInt16)
      (hs : h.opener = some state) (hf : Said state flags) :
      Step h { h with opener := some state.afterFlags, out := h.out ++ flags }
  /-- The other end sends, perhaps because its application has accepted the stream. -/
  | answer (h : Handshake) (state : StreamState) (flags : List UInt16) (waiting : Nat)
      (hs : h.acceptor = some state) (hf : Said state flags) :
      Step h { h with
        acceptor := some state.afterFlags
        back := h.back ++ flags
        waiting := waiting }
  /-- A frame that declares the stream arrives. -/
  | learn (h : Handshake) (flags : UInt16) (rest : List UInt16) (hout : h.out = flags :: rest)
      (hnew : h.acceptor = none) :
      Step h { h with
        acceptor := some (StreamState.synReceived.afterAck flags)
        out := rest
        waiting := h.waiting + 1 }
  /-- Another frame from the opener arrives. -/
  | follow (h : Handshake) (state : StreamState) (flags : UInt16) (rest : List UInt16)
      (hout : h.out = flags :: rest) (hs : h.acceptor = some state) :
      Step h { h with acceptor := some (state.afterAck flags), out := rest }
  /-- A frame from the other end arrives. -/
  | hear (h : Handshake) (state : StreamState) (flags : UInt16) (rest : List UInt16) (busy : Bool)
      (hback : h.back = flags :: rest) (hs : h.opener = some state) :
      Step h { h with opener := some (state.afterAck flags), back := rest, busy := busy }
  /-- The opener ends a frame. -/
  | rest (h : Handshake) : Step h { h with busy := false }

/-- Any number of steps. -/
abbrev Steps : Handshake → Handshake → Prop := Relation.ReflTransGen Step

/-- The phases of an opened stream. -/
inductive Phase where
  | declared
  | queued
  | answered
  | agreed
  deriving DecidableEq, Repr

/-- What holds in a phase. -/
def In (h : Handshake) : Phase → Prop
  /- The SYN is on the way, ahead of everything else. -/
  | .declared => h.opener = some .synSent ∧ h.acceptor = none ∧ h.back = [] ∧ h.busy = false ∧
      h.waiting = 0 ∧ ∃ flags rest, h.out = flags :: rest ∧ hasFlag flags FLAG_SYN = true ∧
        ∀ f ∈ rest, Plain f
  /- The other end has not sent anything yet. -/
  | .queued => h.opener = some .synSent ∧ h.acceptor = some .synReceived ∧ h.waiting = 1 ∧
      (∀ f ∈ h.out, Plain f) ∧ h.back = [] ∧ h.busy = false
  /- The ACK is on the way, ahead of everything else. -/
  | .answered => h.opener = some .synSent ∧ h.acceptor = some .established ∧
      (∀ f ∈ h.out, Plain f) ∧ h.busy = false ∧
      ∃ flags rest, h.back = flags :: rest ∧ hasFlag flags FLAG_SYN = false ∧
        hasFlag flags FLAG_ACK = true ∧ ∀ f ∈ rest, Plain f
  | .agreed => h.opener = some .established ∧ h.acceptor = some .established ∧
      (∀ f ∈ h.out, Plain f) ∧ ∀ f ∈ h.back, Plain f

/-- The stream is not opened, or it is in one of the phases. -/
def Sound (h : Handshake) : Prop := h = unopened ∨ ∃ p, h.In p

theorem afterAck_plain {flags : UInt16} (h : Plain flags) (state : StreamState) :
    state.afterAck flags = state := by
  unfold StreamState.afterAck
  rw [h.2, if_neg]
  exact fun h => Bool.false_ne_true h.1

variable {h h' : Handshake}

/-- The phases exclude each other. -/
theorem In.unique {p q : Phase} (hp : h.In p) (hq : h.In q) : p = q := by
  cases p <;> cases q <;> simp only [In] at hp hq <;> simp_all

/-- Frames sent by the opener go behind the others. -/
theorem In.say {p : Phase} {state : StreamState} {flags : List UInt16} (hp : h.In p)
    (hs : h.opener = some state) (hf : Said state flags) :
    In { h with opener := some state.afterFlags, out := h.out ++ flags } p := by
  have hmore (l : List UInt16) (hl : ∀ f ∈ l, Plain f) (hz : state.flags = 0) :
      ∀ f ∈ l ++ flags, Plain f := by
    intro f hmem
    exact (List.mem_append.mp hmem).elim (hl f) (hf.plain hz f)
  cases p with
  | declared =>
    obtain ⟨ho, ha, hb, hbusy, hw, f, rest, hout, hsyn, hrest⟩ := hp
    obtain rfl := Option.some.inj (hs.symm.trans ho)
    refine ⟨rfl, ha, hb, hbusy, hw, f, rest ++ flags, ?_, hsyn, hmore rest hrest rfl⟩
    simp only [hout, List.cons_append]
  | queued =>
    obtain ⟨ho, ha, hw, hout, hb⟩ := hp
    obtain rfl := Option.some.inj (hs.symm.trans ho)
    exact ⟨rfl, ha, hw, hmore _ hout rfl, hb⟩
  | answered =>
    obtain ⟨ho, ha, hout, hb⟩ := hp
    obtain rfl := Option.some.inj (hs.symm.trans ho)
    exact ⟨rfl, ha, hmore _ hout rfl, hb⟩
  | agreed =>
    obtain ⟨ho, ha, hout, hb⟩ := hp
    obtain rfl := Option.some.inj (hs.symm.trans ho)
    exact ⟨rfl, ha, hmore _ hout rfl, hb⟩

/-- The first frame of the other end is the ACK. -/
theorem In.answer {p : Phase} {state : StreamState} {flags : List UInt16} {waiting : Nat}
    (hp : h.In p) (hs : h.acceptor = some state) (hf : Said state flags) :
    ∃ q, In { h with
      acceptor := some state.afterFlags
      back := h.back ++ flags
      waiting := waiting } q := by
  cases p with
  | declared =>
    obtain ⟨-, ha, -⟩ := hp
    rw [ha] at hs
    cases hs
  | queued =>
    obtain ⟨ho, ha, -, hout, hb, hbusy⟩ := hp
    obtain rfl := Option.some.inj (hs.symm.trans ha)
    rcases hf with rfl | ⟨-, hz⟩
    · refine ⟨.answered, ho, rfl, hout, hbusy, FLAG_ACK, [], ?_, by decide, by decide, ?_⟩
      · rw [hb]
        rfl
      · exact fun f hf => absurd hf List.not_mem_nil
    · exact absurd hz (by decide)
  | answered =>
    obtain ⟨ho, ha, hout, hbusy, f, rest, hb, hsyn, hack, hrest⟩ := hp
    obtain rfl := Option.some.inj (hs.symm.trans ha)
    refine ⟨.answered, ho, rfl, hout, hbusy, f, rest ++ flags, ?_, hsyn, hack, ?_⟩
    · simp only [hb, List.cons_append]
    · exact fun g hg => (List.mem_append.mp hg).elim (hrest g) (hf.plain rfl g)
  | agreed =>
    obtain ⟨ho, ha, hout, hb⟩ := hp
    obtain rfl := Option.some.inj (hs.symm.trans ha)
    exact ⟨.agreed, ho, rfl, hout,
      fun g hg => (List.mem_append.mp hg).elim (hb g) (hf.plain rfl g)⟩

/-- A frame that is not the SYN changes nothing at the other end. -/
theorem In.follow {p : Phase} {state : StreamState} {flags : UInt16} {rest : List UInt16}
    (hp : h.In p) (hout : h.out = flags :: rest) (hs : h.acceptor = some state) :
    In { h with acceptor := some (state.afterAck flags), out := rest } p := by
  have hplain (hall : ∀ f ∈ h.out, Plain f) : Plain flags ∧ ∀ f ∈ rest, Plain f := by
    rw [hout] at hall
    exact List.forall_mem_cons.mp hall
  cases p with
  | declared =>
    obtain ⟨-, ha, -⟩ := hp
    rw [ha] at hs
    cases hs
  | queued =>
    obtain ⟨ho, ha, hw, hall, hb⟩ := hp
    obtain ⟨hf, hrest⟩ := hplain hall
    obtain rfl := Option.some.inj (hs.symm.trans ha)
    exact ⟨ho, congrArg some (afterAck_plain hf _), hw, hrest, hb⟩
  | answered =>
    obtain ⟨ho, ha, hall, hb⟩ := hp
    obtain ⟨hf, hrest⟩ := hplain hall
    obtain rfl := Option.some.inj (hs.symm.trans ha)
    exact ⟨ho, congrArg some (afterAck_plain hf _), hrest, hb⟩
  | agreed =>
    obtain ⟨ho, ha, hall, hb⟩ := hp
    obtain ⟨hf, hrest⟩ := hplain hall
    obtain rfl := Option.some.inj (hs.symm.trans ha)
    exact ⟨ho, congrArg some (afterAck_plain hf _), hrest, hb⟩

/-- The first frame that comes back ends the handshake. -/
theorem In.hear {p : Phase} {state : StreamState} {flags : UInt16} {rest : List UInt16}
    {busy : Bool} (hp : h.In p) (hback : h.back = flags :: rest) (hs : h.opener = some state) :
    In { h with opener := some (state.afterAck flags), back := rest, busy := busy } .agreed := by
  cases p with
  | declared =>
    obtain ⟨-, -, hb, -⟩ := hp
    rw [hb] at hback
    cases hback
  | queued =>
    obtain ⟨-, -, -, -, hb, -⟩ := hp
    rw [hb] at hback
    cases hback
  | answered =>
    obtain ⟨ho, ha, hout, -, f, rest', hb, -, hack, hrest⟩ := hp
    rw [hb] at hback
    cases hback
    obtain rfl := Option.some.inj (hs.symm.trans ho)
    refine ⟨congrArg some ?_, ha, hout, hrest⟩
    exact if_pos ⟨hack, rfl⟩
  | agreed =>
    obtain ⟨ho, ha, hout, hb⟩ := hp
    rw [hback] at hb
    obtain ⟨hf, hrest⟩ := List.forall_mem_cons.mp hb
    obtain rfl := Option.some.inj (hs.symm.trans ho)
    exact ⟨congrArg some (afterAck_plain hf _), ha, hout, hrest⟩

theorem In.rest {p : Phase} (hp : h.In p) : In { h with busy := false } p := by
  cases p with
  | declared =>
    obtain ⟨ho, ha, hb, -, hrest⟩ := hp
    exact ⟨ho, ha, hb, rfl, hrest⟩
  | queued =>
    obtain ⟨ho, ha, hw, hout, hb, -⟩ := hp
    exact ⟨ho, ha, hw, hout, hb, rfl⟩
  | answered =>
    obtain ⟨ho, ha, hout, -, hrest⟩ := hp
    exact ⟨ho, ha, hout, rfl, hrest⟩
  | agreed => exact hp

/-- Every step leads from phase to phase. -/
theorem Step.sound (hstep : Step h h') (hs : h.Sound) : h'.Sound := by
  rcases hs with rfl | ⟨p, hp⟩
  · cases hstep with
    | start =>
      refine .inr ⟨.declared, rfl, rfl, rfl, rfl, rfl, FLAG_SYN, [], rfl, by decide, ?_⟩
      exact fun f hf => absurd hf List.not_mem_nil
    | rest => exact .inl rfl
    | say _ _ hs | answer _ _ _ hs | learn _ _ hs | follow _ _ _ hs | hear _ _ _ _ hs => cases hs
  · cases hstep with
    | start hnew =>
      cases p <;> cases hnew.symm.trans hp.1
    | say state flags hs hf => exact .inr ⟨p, hp.say hs hf⟩
    | answer state flags waiting hs hf => exact .inr (hp.answer hs hf)
    | learn flags rest hout hnew =>
      cases p with
      | declared =>
        obtain ⟨ho, -, hb, hbusy, hw, f, rest', hout', -, hrest⟩ := hp
        rw [hout'] at hout
        cases hout
        refine .inr ⟨.queued, ho, congrArg some ?_, by rw [hw], hrest, hb, hbusy⟩
        exact if_neg fun h => nomatch h.2
      | queued | answered | agreed => cases hnew.symm.trans hp.2.1
    | follow state flags rest hout hs => exact .inr ⟨p, hp.follow hout hs⟩
    | hear state flags rest busy hback hs => exact .inr ⟨.agreed, hp.hear hback hs⟩
    | rest => exact .inr ⟨p, hp.rest⟩

theorem Steps.sound (hsteps : Steps h h') (hs : h.Sound) : h'.Sound := by
  induction hsteps with
  | refl => exact hs
  | tail _ hstep ih => exact hstep.sound ih

end Handshake

/-! ## The handshakes of a connection -/

/-- The flags of the frames for a stream. -/
def Frame.flagsFor (id : UInt32) (fs : List Frame) : List UInt16 :=
  (fs.filter fun f => f.id = id).map Frame.flags

namespace Frame

variable {id : UInt32} {f : Frame} {fs gs : List Frame}

theorem flagsFor_append : flagsFor id (fs ++ gs) = flagsFor id fs ++ flagsFor id gs := by
  simp [flagsFor]

theorem flagsFor_cons_of_ne (h : f.id ≠ id) : flagsFor id (f :: fs) = flagsFor id fs := by
  simp [flagsFor, h]

theorem flagsFor_cons_same : flagsFor f.id (f :: fs) = f.flags :: flagsFor f.id fs := by
  simp [flagsFor]

theorem flagsFor_of_ids (h : ∀ f ∈ fs, f.id = id) : flagsFor id fs = fs.map Frame.flags := by
  rw [flagsFor, List.filter_eq_self.mpr]
  exact fun f hf => decide_eq_true (h f hf)

theorem flagsFor_of_ne {i : UInt32} (h : ∀ f ∈ fs, f.id = id) (hi : i ≠ id) :
    flagsFor i fs = [] := by
  rw [flagsFor, List.map_eq_nil_iff, List.filter_eq_nil_iff]
  intro f hf
  rw [h f hf, decide_eq_true_eq]
  exact hi.symm

end Frame

theorem Speaks.said {state state' : StreamState} {gs : List Frame} (h : Speaks state state' gs) :
    Said state (gs.map Frame.flags) := by
  cases gs with
  | nil => exact .inr ⟨rfl, h.silent rfl⟩
  | cons f gs =>
    have hnil : gs = [] := List.eq_nil_of_length_eq_zero (Nat.le_zero.mp
      (Nat.le_of_succ_le_succ h.single))
    rw [hnil]
    exact .inl (congrArg (fun f => [f]) (h.flags f List.mem_cons_self))

/-- The state of a stream. -/
def Session.stateOf (s : Session) (id : UInt32) : Option StreamState :=
  (s.streams id).map Stream.state

theorem Session.stateOf_some {s : Session} {id : UInt32} {st : Stream}
    (h : s.streams id = some st) : s.stateOf id = some st.state := by
  rw [stateOf, h]
  rfl

namespace Net

/-- The handshake of a stream that `x` opens. -/
def handshake (n : Net) (x : Side) (id : UInt32) : Handshake where
  opener := (n x).session.stateOf id
  acceptor := (n x.peer).session.stateOf id
  out := Frame.flagsFor id (n.frames x)
  back := Frame.flagsFor id (n.frames x.peer)
  busy := !(n x).session.newFrame && hdrStreamId (n x).session.hdr = id
  waiting := (n x.peer).session.accepts.count id

variable {n n' : Net} {x y : Side} {a : Endpoint} {id i : UInt32} {gs : List Frame}

theorem frames_emits (hW : n.Wired) (he : Emits x (n x) a id gs) :
    (n.set x a).frames x = n.frames x ++ gs ∧
      (n.set x a).frames x.peer = n.frames x.peer := by
  obtain ⟨part, fs, hL⟩ := (hW x).1
  obtain ⟨part', fs', hM⟩ := hW.incoming x
  have hL' : Link x (n.set x a x) (n.set x a x.peer) part (fs ++ gs) := by
    simpa using he.link_out hL hM
  have hM' : Link x.peer (n.set x a x.peer) (n.set x a x.peer.peer) part' fs' := by
    simpa using he.link_in hM
  have hMs : Link x.peer (n x.peer) (n x.peer.peer) part' fs' := by rwa [Side.peer_peer]
  exact ⟨by rw [frames_eq hL', frames_eq hL], by rw [frames_eq hM', frames_eq hMs]⟩

/-- Frames that a side sends are a step of the handshake of their stream. -/
theorem steps_emits (hW : n.Wired) (he : Emits x (n x) a id gs) (hown : y.Owns i) :
    Handshake.Steps (n.handshake y i) ((n.set x a).handshake y i) := by
  obtain ⟨hout, hback⟩ := frames_emits hW he
  obtain ⟨st', hst'⟩ := Option.isSome_iff_exists.mp he.present
  by_cases hi : i = id
  · subst hi
    have hgs := Frame.flagsFor_of_ids he.ids
    obtain rfl | rfl := x.eq_or_eq_peer y
    · -- the opener sends
      have hnext : (n.set y a).handshake y i = { n.handshake y i with
          opener := some st'.state
          out := (n.handshake y i).out ++ gs.map Frame.flags } := by
        simp only [handshake, set_same, set_peer, hout, hback, Frame.flagsFor_append, hgs,
          he.hdr, he.newFrame, stateOf_some hst']
      rw [hnext]
      rcases he.declares with ⟨hsome, -, -⟩ | ⟨hnone, -, ⟨f, hf, -⟩, -⟩
      · obtain ⟨st, hst⟩ := Option.isSome_iff_exists.mp hsome
        have hopener : (n.handshake y i).opener = some st.state := stateOf_some hst
        rcases he.state st' hst' with hs | ⟨-, hnil, st₀, hst₀, hsame⟩
        · rw [hst, Option.elim_some] at hs
          rw [hs.next]
          exact .single (.say _ st.state _ hopener hs.said)
        · rw [hst] at hst₀
          obtain rfl := Option.some.inj hst₀
          rw [hnil, List.map_nil, List.append_nil, hsame, ← hopener]
      · have hopener : (n.handshake y i).opener = none := by
          simp only [handshake, stateOf, hnone, Option.map_none]
        rcases he.state st' hst' with hs | ⟨-, hnil, -⟩
        · rw [hnone, Option.elim_none] at hs
          have hflags := hs.flags f (by rw [hf]; exact List.mem_singleton_self f)
          rw [hs.next, hf, List.map_singleton, hflags]
          exact .single (.start _ hopener)
        · rw [hf] at hnil
          cases hnil
    · -- the other end sends
      rcases he.declares with ⟨hsome, -, -⟩ | ⟨-, hown', -⟩
      · obtain ⟨st, hst⟩ := Option.isSome_iff_exists.mp hsome
        have hacceptor : (n.handshake x.peer i).acceptor = some st.state := by
          simp only [handshake, Side.peer_peer]
          exact stateOf_some hst
        have hnext : (n.set x a).handshake x.peer i = { n.handshake x.peer i with
            acceptor := some st'.state
            back := (n.handshake x.peer i).back ++ gs.map Frame.flags
            waiting := a.session.accepts.count i } := by
          simp only [handshake, set_same, set_peer, Side.peer_peer, hout, hback,
            Frame.flagsFor_append, hgs, stateOf_some hst']
        rw [hnext]
        rcases he.state st' hst' with hs | ⟨hacc, hnil, st₀, hst₀, hsame⟩
        · rw [hst, Option.elim_some] at hs
          rw [hs.next]
          exact .single (.answer _ st.state _ _ hacceptor hs.said)
        · rw [hst] at hst₀
          obtain rfl := Option.some.inj hst₀
          have hwaiting : a.session.accepts.count i = (n.handshake x.peer i).waiting := by
            rw [← hacc]
            simp only [handshake, Side.peer_peer]
          rw [hnil, List.map_nil, List.append_nil, hsame, ← hacceptor, hwaiting]
      · exact absurd hown (Side.not_owns_of_peer hown')
  · -- a frame for another stream
    have hgs := Frame.flagsFor_of_ne he.ids hi
    have hstate : a.session.stateOf i = (n x).session.stateOf i := by
      rw [stateOf, he.streams i hi, stateOf]
    have hcount : a.session.accepts.count i = (n x).session.accepts.count i := by
      rcases he.accepts with h | h
      · rw [h]
      · rw [h, List.count_cons_of_ne (Ne.symm hi)]
    have hsame : (n.set x a).handshake y i = n.handshake y i := by
      obtain rfl | rfl := x.eq_or_eq_peer y
      · simp only [handshake, set_same, set_peer, hout, hback, Frame.flagsFor_append, hgs,
          List.append_nil, hstate, he.hdr, he.newFrame]
      · simp only [handshake, set_same, set_peer, Side.peer_peer, hout, hback,
          Frame.flagsFor_append, hgs, List.append_nil, hstate, hcount]
    rw [hsame]

theorem frames_header {t : Session} {f : Frame} {st : Stream} (hW : n.Wired)
    (hM : Link x.peer (n x.peer) (n x) [] (f :: gs))
    (hle : hdrSize ≤ (n x).session.recvBuf.length) (h : (n x).session.Absorbs t f st) :
    (n.put x t).frames x = n.frames x ∧ n.frames x.peer = f :: gs ∧
      (n.put x t).frames x.peer = gs := by
  obtain ⟨part, fs, hL⟩ := (hW x).1
  have hMs : Link x.peer (n x.peer) (n x.peer.peer) [] (f :: gs) := by rwa [Side.peer_peer]
  have hL' : Link x (n.put x t x) (n.put x t x.peer) part fs := by
    simpa [put] using h.link_out hL (hM.known f List.mem_cons_self)
  have hM' : Link x.peer (n.put x t x.peer) (n.put x t x.peer.peer) f.payload gs := by
    simpa [put] using h.link_in hM hle
  exact ⟨by rw [frames_eq hL', frames_eq hL], frames_eq hMs, frames_eq hM'⟩

/-- A header that a side takes is a step of the handshake of its stream. -/
theorem steps_header {t : Session} {f : Frame} {st : Stream} (hW : n.Wired)
    (hM : Link x.peer (n x.peer) (n x) [] (f :: gs))
    (hle : hdrSize ≤ (n x).session.recvBuf.length) (h : (n x).session.Absorbs t f st)
    (hown : y.Owns i) : Handshake.Steps (n.handshake y i) ((n.put x t).handshake y i) := by
  obtain ⟨hout, hback, hback'⟩ := frames_header hW hM hle h
  have hhdr : hdrStreamId t.hdr = f.id := by rw [h.hdr, Frame.id]
  have haccepts := h.puts.accepts
  have hnew : (n x).session.newFrame = true := by
    cases hn : (n x).session.newFrame with
    | true => rfl
    | false => exact absurd rfl (hM.position.mid hn).2.1
  by_cases hi : i = f.id
  · subst hi
    have hst : t.stateOf f.id = some st.state := stateOf_some h.puts.same
    have hflags : Frame.flagsFor f.id (n.frames x.peer) = f.flags :: Frame.flagsFor f.id gs := by
      rw [hback, Frame.flagsFor_cons_same]
    obtain rfl | rfl := x.eq_or_eq_peer y
    · -- the opener hears
      have hnosyn : ¬ f.Syn := fun hsyn =>
        Side.not_owns_of_peer hown (hM.own f List.mem_cons_self hsyn)
      obtain ⟨st₀, hst₀⟩ := Option.isSome_iff_exists.mp
        (not_not.mp (mt hM.ordered.1.mpr hnosyn))
      have hstate := h.takes.state
      rw [hst₀, Option.elim_some] at hstate
      have hnext : (n.put y t).handshake y f.id = { n.handshake y f.id with
          opener := some (st₀.state.afterAck f.flags)
          back := Frame.flagsFor f.id gs
          busy := !t.newFrame && hdrStreamId t.hdr = f.id } := by
        simp only [handshake, hout, hback', ← hstate, ← hst]
        simp only [put, set_same, set_peer]
      rw [hnext]
      exact .single (.hear _ _ _ _ _ hflags (stateOf_some hst₀))
    · -- the other end learns of the stream, or follows
      have hstate := h.takes.state
      have hflags' : (n.handshake x.peer f.id).out = f.flags :: Frame.flagsFor f.id gs := hflags
      have hnext : (n.put x t).handshake x.peer f.id = { n.handshake x.peer f.id with
          acceptor := some st.state
          out := Frame.flagsFor f.id gs
          waiting := t.accepts.count f.id } := by
        simp only [handshake, Side.peer_peer, hout, hback', ← hst]
        simp only [put, set_same, set_peer]
      rw [hnext, hstate, haccepts]
      change Handshake.Steps _ { n.handshake x.peer f.id with
        acceptor := some ((((n x).session.streams f.id).elim .synReceived Stream.state).afterAck
          f.flags)
        out := Frame.flagsFor f.id gs
        waiting := (if ((n x).session.streams f.id).isSome then (n x).session.accepts
          else (n x).session.accepts ++ [f.id]).count f.id }
      have hwaiting : (n.handshake x.peer f.id).waiting = (n x).session.accepts.count f.id := by
        simp only [handshake, Side.peer_peer]
      have hacceptor : (n.handshake x.peer f.id).acceptor = (n x).session.stateOf f.id := by
        simp only [handshake, Side.peer_peer]
      cases hst₀ : (n x).session.streams f.id with
      | none =>
        have hnone : ¬ (none : Option Stream).isSome = true := Bool.false_ne_true
        rw [stateOf, hst₀, Option.map_none] at hacceptor
        rw [if_neg hnone, List.count_append, List.count_singleton_self, ← hwaiting]
        exact .single (.learn _ _ _ hflags' hacceptor)
      | some st₀ =>
        rw [stateOf_some hst₀] at hacceptor
        rw [Option.isSome_some, if_pos rfl, ← hwaiting]
        exact .single (.follow _ _ _ _ hflags' hacceptor)
  · -- a frame for another stream
    have hstate : t.stateOf i = (n x).session.stateOf i := by
      rw [stateOf, h.streams, setStream_of_ne _ _ _ hi, stateOf]
    have hflags : Frame.flagsFor i (n.frames x.peer) = Frame.flagsFor i gs := by
      rw [hback, Frame.flagsFor_cons_of_ne (Ne.symm hi)]
    have hcount : t.accepts.count i = (n x).session.accepts.count i := by
      rw [haccepts]
      change (if _ then (n x).session.accepts else (n x).session.accepts ++ [f.id]).count i = _
      split
      · rfl
      · rw [List.count_append, List.count_cons_of_ne (Ne.symm hi), List.count_nil, Nat.add_zero]
    have hsame : (n.put x t).handshake y i = n.handshake y i := by
      obtain rfl | rfl := x.eq_or_eq_peer y
      · have hid : ¬ hdrStreamId t.hdr = i := by
          rw [hhdr]
          exact Ne.symm hi
        simp only [handshake, hout, hback', ← hflags]
        simp only [put, set_same, set_peer, hstate, hnew, hid, decide_false, Bool.and_false,
          Bool.not_true, Bool.false_and]
      · simp only [handshake, Side.peer_peer, hout, hback', ← hflags]
        simp only [put, set_same, set_peer, hstate, hcount]
    rw [hsame]

theorem frames_payload (hW : n.Wired) (hn : (n x).session.newFrame = false) :
    (n.put x (n x).session.payload).frames x = n.frames x ∧
      (n.put x (n x).session.payload).frames x.peer = n.frames x.peer := by
  obtain ⟨id, k, st, st', part, fs, -, hmoves, -, -, -, hM, hM'⟩ := payload_moved hW hn
  obtain ⟨part', fs', hL⟩ := (hW x).1
  generalize (n x).session.payload = t at hmoves hM'
  have hMs : Link x.peer (n x.peer) (n x.peer.peer) part fs := by rwa [Side.peer_peer]
  have hL' : Link x (n.put x t x) (n.put x t x.peer) part' fs' := by
    simpa [put] using hmoves.link_out hL
  have hM'' : Link x.peer (n.put x t x.peer) (n.put x t x.peer.peer) (part.drop k) fs := by
    simpa [put] using hM'
  exact ⟨by rw [frames_eq hL', frames_eq hL], by rw [frames_eq hM'', frames_eq hMs]⟩

/-- A payload is no step of a handshake, except that it may end a frame. -/
theorem steps_payload (hW : n.Wired) (hn : (n x).session.newFrame = false) :
    Handshake.Steps (n.handshake y i) ((n.put x (n x).session.payload).handshake y i) := by
  obtain ⟨hout, hback⟩ := frames_payload hW hn
  obtain ⟨id, k, st, st', -, -, -, hmoves, -⟩ := payload_moved hW hn
  generalize (n x).session.payload = t at hout hback hmoves
  have hstate : t.stateOf i = (n x).session.stateOf i := by
    by_cases hi : i = id
    · subst hi
      rw [stateOf_some hmoves.same, hmoves.state, stateOf_some hmoves.stream]
    · rw [stateOf, hmoves.streams, setStream_of_ne _ _ _ hi, stateOf]
  obtain rfl | rfl := x.eq_or_eq_peer y
  · cases ht : t.newFrame with
    | true =>
      have hnext : (n.put y t).handshake y i = { n.handshake y i with busy := false } := by
        simp only [handshake, hout, hback]
        simp only [put, set_same, set_peer, hstate, ht, Bool.not_true, Bool.false_and]
      rw [hnext]
      exact .single (.rest _)
    | false =>
      have hnext : (n.put y t).handshake y i = n.handshake y i := by
        simp only [handshake, hout, hback]
        simp only [put, set_same, set_peer, hstate, ht, hn, hmoves.hdr]
      rw [hnext]
  · have hnext : (n.put x t).handshake x.peer i = n.handshake x.peer i := by
      simp only [handshake, Side.peer_peer, hout, hback]
      simp only [put, set_same, set_peer, hstate, hmoves.accepts]
    rw [hnext]

/-- Moving bytes is no step of a handshake. -/
theorem steps_move (hW : n.Wired) (hlike : ∀ x, Alike (n x) (n' x))
    (hbytes : ∀ x, n'.inFlight x = n.inFlight x) :
    Handshake.Steps (n.handshake y i) (n'.handshake y i) := by
  have hframes (x : Side) : n'.frames x = n.frames x := by
    obtain ⟨part, fs, hL⟩ := (hW x).1
    rw [frames_eq hL, frames_eq (link_move hlike hbytes hL)]
  have hsame : n'.handshake y i = n.handshake y i := by
    simp only [handshake, hframes, stateOf, (hlike _).streams, (hlike _).newFrame, (hlike _).hdr,
      (hlike _).accepts]
  rw [hsame]

/-- Every step of a connection is a step of every handshake. -/
theorem Does.handshake (h : Does n n') (hW : n.Wired) (hown : y.Owns i) :
    Handshake.Steps (n.handshake y i) (n'.handshake y i) := by
  cases h with
  | emits he hs hout hin => exact steps_emits hW he hown
  | header hM hle h => exact steps_header hW hM hle h hown
  | payload hn => exact steps_payload hW hn
  | move hlike hbytes hsmall => exact steps_move hW hlike hbytes

/-- The ids that a side has opened are its own, and have a stream there. -/
def Opened (n : Net) : Prop :=
  ∀ x, ∀ id ∈ (n x).opened, x.Owns id ∧ ((n x).session.streams id).isSome

/-- A change of one end that forgets no stream. -/
theorem Opened.set (ho : n.Opened)
    (h : ∀ id ∈ a.opened, id ∈ (n x).opened ∨ (x.Owns id ∧ (a.session.streams id).isSome))
    (hkeep : ∀ id, ((n x).session.streams id).isSome → (a.session.streams id).isSome) :
    (n.set x a).Opened := by
  intro y id hid
  obtain rfl | rfl := x.eq_or_eq_peer y
  · rw [set_same] at hid ⊢
    rcases h id hid with hid | hid
    · obtain ⟨hown, hsome⟩ := ho y id hid
      exact ⟨hown, hkeep id hsome⟩
    · exact hid
  · rw [set_peer] at hid ⊢
    exact ho _ id hid

theorem Does.opened (h : Does n n') (hW : n.Wired) (ho : n.Opened) : n'.Opened := by
  cases h with
  | emits he hs hout hin =>
    refine ho.set (fun j hj => ?_) fun j hj => (he.isSome j).mpr (.inl hj)
    rcases he.declares with ⟨-, -, hsame⟩ | ⟨-, hown, -, hnew⟩
    · exact .inl (hsame ▸ hj)
    · rw [hnew] at hj
      rcases List.mem_append.mp hj with hj | hj
      · exact .inl hj
      · obtain rfl := List.mem_singleton.mp hj
        exact .inr ⟨hown, he.present⟩
  | header hM hle h => exact ho.set (fun _ => .inl) fun j hj => (h.isSome j).mpr (.inl hj)
  | payload hn =>
    obtain ⟨id, k, st, st', -, -, -, hmoves, -⟩ := payload_moved hW hn
    exact ho.set (fun _ => .inl) fun j hj => (hmoves.isSome j).mpr hj
  | move hlike hbytes hsmall =>
    intro x id hid
    rw [(hlike x).opened] at hid
    rw [(hlike x).streams]
    exact ho x id hid

theorem Runs.handshake (h : Runs n n') (hW : n.Wired) (hS : n.Sound) (hown : y.Owns i) :
    Handshake.Steps (n.handshake y i) (n'.handshake y i) := by
  induction h with
  | refl => exact .refl
  | tail hr hd ih => exact ih.trans (hd.handshake (Runs.advance hr hW hS).wired hown)

theorem Runs.opened (h : Runs n n') (hW : n.Wired) (hS : n.Sound) (ho : n.Opened) :
    n'.Opened := by
  induction h with
  | refl => exact ho
  | tail hr hd ih => exact hd.opened (Runs.advance hr hW hS).wired ih

theorem handshake_init (rcvbuf : Side → UInt32) (y : Side) (i : UInt32) :
    (init rcvbuf).handshake y i = .unopened := by
  have hframes (x : Side) : (init rcvbuf).frames x = [] := by
    obtain ⟨part, fs, hL⟩ := (wired_init rcvbuf x).1
    have hbytes : [] = part ++ Frame.encode fs := hL.bytes
    have hnil := List.append_eq_nil_iff.mp hbytes.symm
    have hlen := Frame.length_le_encode fs
    rw [hnil.2] at hlen
    rw [frames_eq hL]
    exact List.length_eq_zero_iff.mp (Nat.le_zero.mp hlen)
  simp only [handshake, hframes]
  rfl

/-- Along a run every handshake goes through steps of its own. -/
theorem Reachable.handshake {rcvbuf : Side → UInt32} (h : Reachable rcvbuf n) (hown : y.Owns i) :
    Handshake.Steps .unopened (n.handshake y i) := by
  induction h with
  | init =>
    rw [handshake_init]
  | step h e he ih =>
    obtain ⟨hW, hS⟩ := h.sound
    exact ih.trans ((step_runs hW hS he).handshake hW hS hown)

theorem Reachable.opened {rcvbuf : Side → UInt32} (h : Reachable rcvbuf n) : n.Opened := by
  induction h with
  | init => exact fun x id hid => absurd hid List.not_mem_nil
  | step h e he ih =>
    obtain ⟨hW, hS⟩ := h.sound
    exact (step_runs hW hS he).opened hW hS ih

/-- A header declares its stream exactly if there is no such stream. -/
theorem syn_iff_new (hW : n.Wired) (hn : (n x).session.newFrame = true)
    (hs : ¬ (n x).session.Starved) :
    hasFlag (hdrFlags (n x).session.header.hdr) FLAG_SYN = true ↔
      (n x).session.streams (hdrStreamId (n x).session.header.hdr) = none := by
  obtain ⟨part, fs, hM⟩ := hW.incoming x
  obtain rfl := hM.position.new hn
  have hbytes := hM.bytes
  rw [List.nil_append, List.append_assoc] at hbytes
  obtain ⟨f, gs, rfl, htake, -⟩ := Frame.encode_eq_cons hbytes (hdrSize_le_of_not_starved hs hn)
  have hhdr : (n x).session.header.hdr = f.hdr := htake
  have hid : hdrStreamId (n x).session.header.hdr = f.id := by rw [hhdr, Frame.id]
  have hflags : hdrFlags (n x).session.header.hdr = f.flags := by rw [hhdr, Frame.flags]
  have hdecl := hM.ordered.1
  rw [Frame.Syn, Option.not_isSome_iff_eq_none] at hdecl
  rw [hid, hflags]
  exact hdecl

/-- Handshake agreement: every id that `session_open` has returned is in exactly one
phase; and no side sees a second SYN, or a frame for a stream that was not declared. -/
theorem handshake_agreement {rcvbuf : Side → UInt32} {n : Net} (h : Reachable rcvbuf n)
    (x : Side) :
    (∀ id ∈ (n x).opened, ∃! p, (n.handshake x id).In p) ∧
    ∀ s, (n x).session.Passes s → s.newFrame = true → ¬ s.Starved →
      (hasFlag (hdrFlags s.header.hdr) FLAG_SYN = true ↔
        s.streams (hdrStreamId s.header.hdr) = none) := by
  obtain ⟨hW, hS⟩ := h.sound
  constructor
  · intro id hid
    obtain ⟨hown, hsome⟩ := h.opened x id hid
    obtain ⟨st, hst⟩ := Option.isSome_iff_exists.mp hsome
    rcases (h.handshake hown).sound (.inl rfl) with hnone | ⟨p, hp⟩
    · have hopener : (n.handshake x id).opener = some st.state := stateOf_some hst
      rw [hnone] at hopener
      cases hopener
    · exact ⟨p, hp, fun q hq => hq.unique hp⟩
  · intro s hp hn hs
    obtain ⟨hW', -⟩ := passes_sound hW hS hp
    have hsyn := syn_iff_new (n := n.put x s) (x := x) hW'
    rw [put_session] at hsyn
    exact hsyn hn hs

theorem handshake_agreement_exchanged : (exchanged .client).opened = [1] ∧
    ∃! p, (exchanged.handshake .client 1).In p := by
  have hopened : (exchanged .client).opened = [1] := by decide +kernel
  exact ⟨hopened, (handshake_agreement reachable_exchanged .client).1 1
    (hopened ▸ List.mem_singleton_self 1)⟩

end Net

end Yamux
