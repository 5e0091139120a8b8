import Yamux.Network.Wiring
import Yamux.Sequential.Extension

/-!
# The steps of a connection

One endpoint sends frames for one stream, takes the header of a frame, moves what
has arrived of a payload, or bytes are moved on their way. Every operation comes
down to these four, and what they keep holds along every run.
-/

namespace Yamux

open Core Prog Session

/-! ## Handshake flags -/

/-- The flags that a stream sends with its next frame. -/
def StreamState.flags : StreamState → UInt16
  | .init => FLAG_SYN
  | .synReceived => FLAG_ACK
  | _ => 0

/-- The state of a stream after that. -/
def StreamState.afterFlags : StreamState → StreamState
  | .init => .synSent
  | .synReceived => .established
  | state => state

/-- The state of a stream after the flags of a frame without FIN and RST. -/
def StreamState.afterAck (flags : UInt16) (state : StreamState) : StreamState :=
  if hasFlag flags FLAG_ACK ∧ state = .synSent then .established else state

theorem Stream.processAck_state (st : Stream) (flags : UInt16) :
    (st.processAck flags).state = st.state.afterAck flags := by
  unfold Stream.processAck StreamState.afterAck
  split <;> rfl

theorem Stream.sendFlags_eq (st : Stream) : st.sendFlags.1 = st.state.flags ∧
    st.sendFlags.2.state = st.state.afterFlags := by
  unfold Stream.sendFlags
  cases h : st.state <;> simp [StreamState.flags, StreamState.afterFlags, h]

/-! ## Sending -/

/-- What sending frames does to the state of a stream: its flags ride on the first
frame, and a stream that has flags to send sends a frame. -/
structure Speaks (state state' : StreamState) (gs : List Frame) : Prop where
  next : state' = state.afterFlags
  flags : ∀ f ∈ gs, f.flags = state.flags
  silent : gs = [] → state.flags = 0
  single : gs.length ≤ 1

/-- Side `x` sends the frames `gs` for one stream and changes nothing but that
stream; a stream that is new is declared. -/
structure Emits (x : Side) (a a' : Endpoint) (id : UInt32) (gs : List Frame) : Prop where
  wire : a'.wire = a.wire
  newFrame : a'.session.newFrame = a.session.newFrame
  frameRemain : a'.session.frameRemain = a.session.frameRemain
  recvBuf : a'.session.recvBuf = a.session.recvBuf
  hdr : a'.session.hdr = a.session.hdr
  sendBuf : a'.session.sendBuf = a.session.sendBuf ++ Frame.encode gs
  present : (a'.session.streams id).isSome
  accepts : a'.session.accepts = a.session.accepts ∨
    a.session.accepts = id :: a'.session.accepts
  streams : ∀ i, i ≠ id → a'.session.streams i = a.session.streams i
  accepted : ∀ i, i ≠ id → a'.accepted i = a.accepted i
  returned : ∀ i, i ≠ id → a'.returned i = a.returned i
  ids : ∀ f ∈ gs, f.id = id
  honest : ∀ f ∈ gs, f.Honest
  declares : ((a.session.streams id).isSome ∧ (∀ f ∈ gs, ¬ f.Syn) ∧ a'.opened = a.opened) ∨
    (a.session.streams id = none ∧ x.Owns id ∧ (∃ f, gs = [f] ∧ f.Syn) ∧
      a'.opened = a.opened ++ [id])
  state : ∀ st', a'.session.streams id = some st' →
    (Speaks ((a.session.streams id).elim .init Stream.state) st'.state gs ∨
      (a.session.accepts = a'.session.accepts ∧ gs = [] ∧
        ∃ st, a.session.streams id = some st ∧ st'.state = st.state))

namespace Emits

variable {x : Side} {a a' b : Endpoint} {id : UInt32} {gs : List Frame}

theorem isSome (h : Emits x a a' id gs) (i : UInt32) :
    (a'.session.streams i).isSome ↔ (a.session.streams i).isSome ∨ i = id := by
  by_cases hi : i = id
  · subst hi
    exact ⟨fun _ => .inr rfl, fun _ => h.present⟩
  · rw [h.streams i hi]
    exact ⟨.inl, fun h => h.resolve_right hi⟩

/-- The peer does not know a stream that is new. -/
theorem not_known {part part' : Bytes} {fs fs' : List Frame} (hout : Link x a b part fs)
    (hin : Link x.peer b a part' fs') (hnew : a.session.streams id = none) (hown : x.Owns id) :
    ¬ ((b.session.streams id).isSome ∨ ∃ f ∈ fs, f.id = id) := by
  have hnone : ¬ (a.session.streams id).isSome := by
    rw [hnew]
    exact Bool.false_ne_true
  rintro (hb | ⟨f, hf, rfl⟩)
  · rcases hin.announced id hb with ha | ⟨f, hf, rfl⟩
    · exact hnone ha
    · obtain ⟨g, hg, hid, hsyn⟩ := hin.ordered.declared hf hnone
      have hpeer := hin.own g hg hsyn
      rw [hid] at hpeer
      exact Side.not_owns_of_peer hown hpeer
  · exact hnone (hout.known f hf)

/-- The outgoing direction has the new frames behind the others. -/
theorem link_out {part part' : Bytes} {fs fs' : List Frame} (h : Emits x a a' id gs)
    (hout : Link x a b part fs) (hin : Link x.peer b a part' fs') :
    Link x a' b part (fs ++ gs) where
  bytes := by
    rw [h.wire, h.sendBuf, ← List.append_assoc, hout.bytes, Frame.encode_append,
      List.append_assoc]
  position := hout.position
  honest f hf := (List.mem_append.mp hf).elim (hout.honest f) (h.honest f)
  known f hf := by
    rw [h.isSome]
    rcases List.mem_append.mp hf with hf | hf
    · exact .inl (hout.known f hf)
    · exact .inr (h.ids f hf)
  own f hf hsyn := by
    rcases List.mem_append.mp hf with hf | hf
    · exact hout.own f hf hsyn
    · rcases h.declares with ⟨-, hno, -⟩ | ⟨-, hown, -⟩
      · exact absurd hsyn (hno f hf)
      · rw [h.ids f hf]
        exact hown
  ordered := by
    refine Frame.ordered_append.mpr ⟨hout.ordered, ?_⟩
    rcases h.declares with ⟨hsome, hno, -⟩ | ⟨hnew, hown, ⟨f, rfl, hsyn⟩, -⟩
    · have hknown := hout.announced id hsome
      have main (known : UInt32 → Prop) (hk : known id) (gs : List Frame)
          (hids : ∀ f ∈ gs, f.id = id) (hno : ∀ f ∈ gs, ¬ f.Syn) : Frame.Ordered known gs := by
        induction gs generalizing known with
        | nil => trivial
        | cons f gs ih =>
          have hf := hids f List.mem_cons_self
          have hkf : known f.id := by rwa [hf]
          exact ⟨iff_of_false (hno f List.mem_cons_self) (not_not_intro hkf),
            ih _ (.inl hk) (fun g hg => hids g (List.mem_cons_of_mem f hg))
              fun g hg => hno g (List.mem_cons_of_mem f hg)⟩
      exact main _ hknown gs h.ids hno
    · have hid := h.ids f List.mem_cons_self
      refine ⟨iff_of_true hsyn ?_, trivial⟩
      rw [hid]
      exact not_known hout hin hnew hown
  announced i hi := by
    rcases (h.isSome i).mp hi with hi | rfl
    · rcases hout.announced i hi with hb | ⟨f, hf, rfl⟩
      · exact .inl hb
      · exact .inr ⟨f, List.mem_append_left gs hf, rfl⟩
    · rcases h.declares with ⟨hsome, -⟩ | ⟨-, -, ⟨f, rfl, -⟩, -⟩
      · rcases hout.announced i hsome with hb | ⟨f, hf, hfi⟩
        · exact .inl hb
        · exact .inr ⟨f, List.mem_append_left gs hf, hfi⟩
      · exact .inr ⟨f, by simp, h.ids f List.mem_cons_self⟩

/-- The incoming direction is as before. -/
theorem link_in {part : Bytes} {fs : List Frame} (h : Emits x a a' id gs)
    (hin : Link x.peer b a part fs) : Link x.peer b a' part fs where
  bytes := by
    rw [h.recvBuf]
    exact hin.bytes
  position := by
    constructor
    · rw [h.newFrame]
      exact hin.position.new
    · rw [h.newFrame, h.hdr, h.frameRemain]
      intro hn
      obtain ⟨htype, hne, hlen, hsome⟩ := hin.position.mid hn
      exact ⟨htype, hne, hlen, (h.isSome _).mpr (.inl hsome)⟩
  honest := hin.honest
  known := hin.known
  own := hin.own
  ordered := by
    refine hin.ordered.mono (fun i hi => (h.isSome i).mpr (.inl hi)) fun f hf hsyn hk => ?_
    rcases (h.isSome f.id).mp hk with hk | hid
    · exact hk
    · rcases h.declares with ⟨hsome, -⟩ | ⟨-, hown, -⟩
      · rw [hid]
        exact hsome
      · have hpeer := hin.own f hf hsyn
        rw [hid] at hpeer
        exact absurd hpeer (Side.not_owns_of_peer hown)
  announced i hi := (hin.announced i hi).imp_left fun ha => (h.isSome i).mpr (.inl ha)

end Emits

/-! ## Taking a header -/

/-- Stream `id` is replaced, and waits to be accepted if it is new; the position in
the frame may have changed. -/
structure Session.Puts (s t : Session) (id : UInt32) (st : Stream) : Prop where
  remoteGoAway : t.remoteGoAway = s.remoteGoAway
  localGoAway : t.localGoAway = s.localGoAway
  nextId : t.nextId = s.nextId
  recvBuf : t.recvBuf = s.recvBuf
  sendBuf : t.sendBuf = s.sendBuf
  hdr : t.hdr = s.hdr
  accepts : t.accepts = if (s.streams id).isSome then s.accepts else s.accepts ++ [id]
  streams : ∀ i, t.streams i = (s.setStream id st).streams i

/-- What a frame leaves of its stream: the flags took effect and credit was added. -/
structure Session.Takes (s : Session) (id : UInt32) (flags : UInt16) (grant : Nat)
    (st : Stream) : Prop where
  isOpen : st.Open
  state : st.state = ((s.streams id).elim .synReceived Stream.state).afterAck flags
  recvBuf : st.recvBuf = s.buffered id
  window : st.recvWindow.toNat = s.window id
  credit : st.sendWindow.toNat = s.credit id + grant

/-- The session `t` that has taken the header of the frame `f`. -/
structure Session.Absorbs (s t : Session) (f : Frame) (st : Stream) : Prop where
  puts : s.header.Puts t f.id st
  takes : s.Takes f.id f.flags (Frame.grant f.id f) st
  hdr : t.hdr = f.hdr
  position : Position t f.payload

namespace Session.Absorbs

variable {x : Side} {a b : Endpoint} {t : Session} {f : Frame} {st : Stream} {gs : List Frame}

theorem streams {s : Session} (h : s.Absorbs t f st) (i : UInt32) :
    t.streams i = (s.setStream f.id st).streams i := h.puts.streams i

theorem isSome {s : Session} (h : s.Absorbs t f st) (i : UInt32) :
    (t.streams i).isSome ↔ (s.streams i).isSome ∨ i = f.id := by
  rw [h.streams, setStream_streams]
  split
  · simp [*]
  · simp [*]

theorem recvBuf {s : Session} (h : s.Absorbs t f st) : t.recvBuf = s.recvBuf.drop hdrSize :=
  h.puts.recvBuf

/-- The rest of the frames, and the payload in front of them. -/
theorem link_in (h : a.session.Absorbs t f st) (hM : Link x.peer b a [] (f :: gs))
    (hle : hdrSize ≤ a.session.recvBuf.length) :
    Link x.peer b { a with session := t } f.payload gs where
  bytes := by
    have hbytes := hM.bytes
    rw [List.nil_append, List.append_assoc] at hbytes
    obtain ⟨f', gs', heq, -, hdrop⟩ := Frame.encode_eq_cons hbytes hle
    cases heq
    simp only [h.recvBuf, List.append_assoc]
    exact hdrop
  position := h.position
  honest g hg := hM.honest g (List.mem_cons_of_mem f hg)
  known g hg := hM.known g (List.mem_cons_of_mem f hg)
  own g hg := hM.own g (List.mem_cons_of_mem f hg)
  ordered := hM.ordered.2.congr fun i => (h.isSome i).symm
  announced i hi := by
    rcases hM.announced i hi with ha | ⟨g, hg, rfl⟩
    · exact .inl ((h.isSome i).mpr (.inl ha))
    · rcases List.mem_cons.mp hg with hg | hg
      · exact .inl ((h.isSome g.id).mpr (.inr (congrArg Frame.id hg)))
      · exact .inr ⟨g, hg, rfl⟩

/-- The outgoing direction has the same frames. -/
theorem link_out {part : Bytes} {fs : List Frame} (h : a.session.Absorbs t f st)
    (hL : Link x a b part fs) (hpeer : (b.session.streams f.id).isSome) :
    Link x { a with session := t } b part fs where
  bytes := by
    simp only [h.puts.sendBuf]
    exact hL.bytes
  position := hL.position
  honest := hL.honest
  known g hg := (h.isSome _).mpr (.inl (hL.known g hg))
  own := hL.own
  ordered := hL.ordered
  announced i hi := by
    rcases (h.isSome i).mp hi with hi | rfl
    · exact hL.announced i hi
    · exact .inl hpeer

end Session.Absorbs

/-- What a session has of a stream when it has one. -/
theorem Steady.gap {x : Side} {a : Endpoint} (h : Steady x a) (i : UInt32) :
    maxWindow - (a.session.buffered i).length - a.session.window i < 131072 := by
  cases hst : a.session.streams i with
  | none =>
    rw [Session.window, hst, Option.elim_none]
    omega
  | some st =>
    rw [buffered_some hst, window_some hst]
    exact (h.streams i st hst).2

/-- A header does not disturb the endpoint. -/
theorem Session.Absorbs.steady {x : Side} {a : Endpoint} {t : Session} {f : Frame} {st : Stream}
    (h : a.session.Absorbs t f st) (hs : Steady x a)
    (hid : (a.session.streams f.id).isSome ∨ ¬ x.Owns f.id) :
    Steady x { a with session := t } where
  remoteGoAway := h.puts.remoteGoAway.trans hs.remoteGoAway
  localGoAway := h.puts.localGoAway.trans hs.localGoAway
  small := by
    simp only [h.recvBuf, List.length_drop]
    exact (Nat.sub_le _ _).trans_lt hs.small
  opens := hs.opens
  counter := by
    simp only [h.puts.nextId]
    exact hs.counter
  fresh i hi hown := by
    simp only [h.puts.nextId]
    rcases (h.isSome i).mp hi with hi | rfl
    · exact hs.fresh i hi hown
    · exact hs.fresh _ (hid.resolve_right (not_not_intro hown)) hown
  streams i st' hi := by
    simp only [h.streams, setStream_streams] at hi
    split at hi
    · obtain rfl := Option.some.inj hi
      refine ⟨h.takes.isOpen, ?_⟩
      rw [Stream.gap, h.takes.recvBuf, h.takes.window]
      exact hs.gap f.id
    · exact hs.streams i st' hi

/-! ## Taking a payload -/

/-- The first `k` bytes of the input have gone to the stream of the frame in
progress. -/
structure Session.Moves (s t : Session) (id : UInt32) (k : Nat) (st st' : Stream) : Prop where
  stream : s.streams id = some st
  streams : ∀ i, t.streams i = (s.setStream id st').streams i
  remoteGoAway : t.remoteGoAway = s.remoteGoAway
  localGoAway : t.localGoAway = s.localGoAway
  nextId : t.nextId = s.nextId
  accepts : t.accepts = s.accepts
  sendBuf : t.sendBuf = s.sendBuf
  hdr : t.hdr = s.hdr
  recvBuf : t.recvBuf = s.recvBuf.drop k
  frameRemain : t.frameRemain = s.frameRemain - UInt32.ofNat k
  newFrame : t.newFrame = if t.frameRemain = 0 then true else s.newFrame
  state : st'.state = st.state
  credit : st'.sendWindow = st.sendWindow
  buffered : st'.recvBuf = st.recvBuf ++ s.recvBuf.take k
  window : st'.recvWindow = st.recvWindow - UInt32.ofNat k

/-- The payload part of a handler moves what has arrived. -/
theorem Session.payload_moves {s : Session} {st : Stream}
    (h : s.streams (hdrStreamId s.hdr) = some st) :
    s.Moves s.payload (hdrStreamId s.hdr) (min s.frameRemain.toNat s.recvBuf.length) st
      (s.received st (min s.frameRemain.toNat s.recvBuf.length)) := by
  rw [payload_live h]
  exact ⟨h, fun _ => rfl, rfl, rfl, rfl, rfl, rfl, rfl, rfl, rfl, rfl, rfl, rfl, rfl, rfl⟩

namespace Session.Moves

variable {x : Side} {a b : Endpoint} {s t : Session} {id : UInt32} {k : Nat} {st st' : Stream}
  {part : Bytes} {fs : List Frame}

theorem same (h : s.Moves t id k st st') : t.streams id = some st' := by
  rw [h.streams, setStream_same]

theorem isSome (h : s.Moves t id k st st') (i : UInt32) :
    (t.streams i).isSome ↔ (s.streams i).isSome := by
  rw [h.streams, setStream_streams]
  split
  · subst i
    simp [h.stream]
  · rfl

/-- The incoming direction, where what is moved is the front of the payload. -/
theorem link_in (h : a.session.Moves t id k st st') (hM : Link x.peer b a part fs)
    (hid : hdrStreamId a.session.hdr = id) (hn : a.session.newFrame = false)
    (hpart : k ≤ part.length) (hrecv : k ≤ a.session.recvBuf.length) :
    a.session.recvBuf.take k = part.take k ∧
      Link x.peer b { a with session := t } (part.drop k) fs := by
  obtain ⟨htype, -, hremain, -⟩ := hM.position.mid hn
  have hbytes := hM.bytes
  rw [List.append_assoc] at hbytes
  have hleft : t.frameRemain.toNat = (part.drop k).length := by
    rw [h.frameRemain, toNat_sub_ofNat (by rw [hremain]; exact hpart), hremain, List.length_drop]
  have hdone : t.frameRemain = 0 ↔ part.drop k = [] := by
    rw [← List.length_eq_zero_iff, ← hleft, ← UInt32.toNat_inj, UInt32.toNat_zero]
  have hnew := h.newFrame
  rw [hn] at hnew
  constructor
  · have := congrArg (List.take k) hbytes
    rwa [List.take_append_of_le_length hrecv, List.take_append_of_le_length hpart] at this
  · constructor
    · have := congrArg (List.drop k) hbytes
      rw [List.drop_append_of_le_length hrecv, List.drop_append_of_le_length hpart] at this
      simp only [h.recvBuf, List.append_assoc]
      exact this
    · constructor
      · intro ht
        rw [hnew] at ht
        split at ht
        · exact hdone.mp ‹_›
        · cases ht
      · intro ht
        rw [hnew] at ht
        split at ht
        · cases ht
        · refine ⟨by rw [h.hdr, htype], mt hdone.mpr ‹_›, hleft, ?_⟩
          rw [h.hdr, hid, h.same]
          rfl
    · exact hM.honest
    · exact hM.known
    · exact hM.own
    · exact hM.ordered.congr fun i => (h.isSome i).symm
    · exact fun i hi => (hM.announced i hi).imp_left (h.isSome i).mpr

/-- The outgoing direction is as before. -/
theorem link_out (h : a.session.Moves t id k st st') (hL : Link x a b part fs) :
    Link x { a with session := t } b part fs where
  bytes := by
    simp only [h.sendBuf]
    exact hL.bytes
  position := hL.position
  honest := hL.honest
  known f hf := (h.isSome _).mpr (hL.known f hf)
  own := hL.own
  ordered := hL.ordered
  announced i hi := hL.announced i ((h.isSome i).mp hi)

/-- A payload that fits the window does not disturb the endpoint. -/
theorem steady (h : a.session.Moves t id k st st') (hs : Steady x a)
    (hwin : k ≤ st.recvWindow.toNat) (hrecv : k ≤ a.session.recvBuf.length) :
    Steady x { a with session := t } where
  remoteGoAway := h.remoteGoAway.trans hs.remoteGoAway
  localGoAway := h.localGoAway.trans hs.localGoAway
  small := by
    simp only [h.recvBuf, List.length_drop]
    exact (Nat.sub_le _ _).trans_lt hs.small
  opens := hs.opens
  counter := by
    simp only [h.nextId]
    exact hs.counter
  fresh i hi hown := by
    simp only [h.nextId]
    exact hs.fresh i ((h.isSome i).mp hi) hown
  streams i st'' hi := by
    simp only [h.streams, setStream_streams] at hi
    split at hi
    · obtain rfl := Option.some.inj hi
      obtain ⟨hopen, hgap⟩ := hs.streams id st h.stream
      rw [Stream.gap] at hgap
      rw [Stream.Open, h.state, Stream.gap, h.buffered, h.window, toNat_sub_ofNat hwin,
        List.length_append, List.length_take]
      exact ⟨hopen, by omega⟩
    · exact hs.streams i st'' hi

/-- What the pipes of the other streams are made of is as before. -/
theorem reads (h : s.Moves t id k st st') {i : UInt32} (hi : i ≠ id) :
    t.buffered i = s.buffered i ∧ t.window i = s.window i ∧ t.credit i = s.credit i :=
  Session.reads_congr (by rw [h.streams, setStream_of_ne _ _ _ hi])

end Session.Moves

/-! ## The steps -/

/-- Two endpoints that differ only in where their bytes are. -/
structure Alike (a a' : Endpoint) : Prop where
  remoteGoAway : a'.session.remoteGoAway = a.session.remoteGoAway
  localGoAway : a'.session.localGoAway = a.session.localGoAway
  nextId : a'.session.nextId = a.session.nextId
  newFrame : a'.session.newFrame = a.session.newFrame
  frameRemain : a'.session.frameRemain = a.session.frameRemain
  streams : a'.session.streams = a.session.streams
  hdr : a'.session.hdr = a.session.hdr
  accepts : a'.session.accepts = a.session.accepts
  opens : a'.opens = a.opens
  opened : a'.opened = a.opened
  accepted : a'.accepted = a.accepted
  returned : a'.returned = a.returned

theorem Alike.refl (a : Endpoint) : Alike a a :=
  ⟨rfl, rfl, rfl, rfl, rfl, rfl, rfl, rfl, rfl, rfl, rfl, rfl⟩

namespace Net

/-- The endpoint whose session is replaced. -/
def put (n : Net) (x : Side) (s : Session) : Net := n.set x { n x with session := s }

theorem put_self (n : Net) (x : Side) : n.put x (n x).session = n := set_self

theorem put_put (n : Net) (x : Side) (s t : Session) : (n.put x s).put x t = n.put x t := by
  simp [put]

theorem put_session (n : Net) (x : Side) (s : Session) : (n.put x s x).session = s := by
  simp [put]

/-- A step of a connection. -/
inductive Does (n : Net) : Net → Prop where
  /-- Frames are sent for a stream, and its two pipes move by their own steps. -/
  | emits {x : Side} {a : Endpoint} {id : UInt32} {gs : List Frame} (he : Emits x (n x) a id gs)
      (hs : Steady x a)
      (hout : Pipe.Steps maxWindow (n.pipe x id) { n.pipe x id with
        sent := a.accepted id
        queue := (n.pipe x id).queue ++ Frame.payloadFor id gs
        credit := a.session.credit id })
      (hin : Pipe.Steps maxWindow (n.pipe x.peer id) { n.pipe x.peer id with
        buf := a.session.buffered id
        taken := a.returned id
        window := a.session.window id
        grants := (n.pipe x.peer id).grants + Frame.grantFor id gs }) :
      Does n (n.set x a)
  /-- The header of the next frame is taken. -/
  | header {x : Side} {t : Session} {f : Frame} {st : Stream} {gs : List Frame}
      (hM : Link x.peer (n x.peer) (n x) [] (f :: gs))
      (hle : hdrSize ≤ (n x).session.recvBuf.length) (h : (n x).session.Absorbs t f st) :
      Does n (n.put x t)
  /-- What has arrived of the payload in progress is moved. -/
  | payload {x : Side} (hn : (n x).session.newFrame = false) : Does n (n.put x (n x).session.payload)
  /-- Bytes are moved on their way. -/
  | move {n' : Net} (hlike : ∀ x, Alike (n x) (n' x)) (hbytes : ∀ x, n'.inFlight x = n.inFlight x)
      (hsmall : ∀ x, (n' x).session.recvBuf.length < 2 ^ 31) : Does n n'

variable {n n' : Net} {x : Side} {a : Endpoint} {id : UInt32} {gs : List Frame}

/-- An operation that sends frames for one stream advances the connection if it
moves the two pipes of that stream by their own steps. -/
theorem advance_emits (hW : n.Wired) (he : Emits x (n x) a id gs) (hs : Steady x a)
    (hout : Pipe.Steps maxWindow (n.pipe x id) { n.pipe x id with
      sent := a.accepted id
      queue := (n.pipe x id).queue ++ Frame.payloadFor id gs
      credit := a.session.credit id })
    (hin : Pipe.Steps maxWindow (n.pipe x.peer id) { n.pipe x.peer id with
      buf := a.session.buffered id
      taken := a.returned id
      window := a.session.window id
      grants := (n.pipe x.peer id).grants + Frame.grantFor id gs }) :
    Advance n (n.set x a) := by
  obtain ⟨part, fs, hL⟩ := (hW x).1
  obtain ⟨part', fs', hM⟩ := hW.incoming x
  have hL' := he.link_out hL hM
  have hM' := he.link_in hM
  -- the links seen from either side
  have hMs : Link x.peer (n x.peer) (n x.peer.peer) part' fs' := by rwa [Side.peer_peer]
  have hL's : Link x (n.set x a x) (n.set x a x.peer) part (fs ++ gs) := by simpa using hL'
  have hM's : Link x.peer (n.set x a x.peer) (n.set x a x.peer.peer) part' fs' := by
    simpa using hM'
  have hpipe (i : UInt32) : (n.set x a).pipe x i = { n.pipe x i with
      sent := a.accepted i
      queue := (n.pipe x i).queue ++ Frame.payloadFor i gs
      credit := a.session.credit i } := by
    simp only [pipe, payload_eq hL, payload_eq hL's, grants_eq hMs, grants_eq hM's, set_same,
      set_peer, Frame.payloadFor_append, List.append_assoc]
  have hpipe' (i : UInt32) : (n.set x a).pipe x.peer i = { n.pipe x.peer i with
      buf := a.session.buffered i
      taken := a.returned i
      window := a.session.window i
      grants := (n.pipe x.peer i).grants + Frame.grantFor i gs } := by
    simp only [pipe, payload_eq hMs, payload_eq hM's, Side.peer_peer, grants_eq hL,
      grants_eq hL's, set_same, set_peer, Frame.grantFor_append, he.hdr]
  refine ⟨wired_set hW hL' hM' hs, fun y i => ?_⟩
  obtain rfl | rfl := x.eq_or_eq_peer y
  · rw [hpipe]
    by_cases hi : i = id
    · subst hi
      exact hout
    · have := (Session.reads_congr (he.streams i hi)).2.2
      rw [he.accepted i hi, this, Frame.payloadFor_of_ne he.ids hi, List.append_nil]
      exact .refl
  · rw [hpipe']
    by_cases hi : i = id
    · subst hi
      exact hin
    · obtain ⟨hb, hw, -⟩ := Session.reads_congr (he.streams i hi)
      rw [he.returned i hi, hb, hw, Frame.grantFor_of_ne he.ids hi, Nat.add_zero]
      have hself : { n.pipe x.peer i with
          buf := (n x).session.buffered i
          taken := (n x).returned i
          window := (n x).session.window i } = n.pipe x.peer i := by
        simp only [pipe, Side.peer_peer]
      rw [hself]

/-- Taking a header is a refill of the outgoing pipe of its stream. -/
theorem pipes_header {t : Session} {f : Frame} {st : Stream} {gs fs : List Frame} {part : Bytes}
    (h : (n x).session.Absorbs t f st) (hW : (n.put x t).Wired)
    (hM : Link x.peer (n x.peer) (n x) [] (f :: gs)) (hL : Link x (n x) (n x.peer) part fs)
    (hM' : Link x.peer (n x.peer) { n x with session := t } f.payload gs)
    (hL' : Link x { n x with session := t } (n x.peer) part fs) (y : Side) (i : UInt32) :
    Pipe.Steps maxWindow (n.pipe y i) ((n.put x t).pipe y i) := by
  have hMs : Link x.peer (n x.peer) (n x.peer.peer) [] (f :: gs) := by rwa [Side.peer_peer]
  have hMs' : Link x.peer (n.put x t x.peer) (n.put x t x.peer.peer) f.payload gs := by
    simpa [put] using hM'
  have hLs' : Link x (n.put x t x) (n.put x t x.peer) part fs := by
    simpa [put] using hL'
  have hid : hdrStreamId t.hdr = f.id := by rw [h.hdr, Frame.id]
  have hreads : t.buffered i = (n x).session.buffered i ∧
      t.window i = (n x).session.window i ∧
      t.credit i = (n x).session.credit i + (if i = f.id then Frame.grant i f else 0) := by
    by_cases hi : i = f.id
    · have hst : t.streams i = some st := by rw [h.streams, hi, setStream_same]
      rw [if_pos hi, buffered_some hst, window_some hst, credit_some hst, h.takes.recvBuf,
        h.takes.window, h.takes.credit, hi]
      exact ⟨rfl, rfl, rfl⟩
    · rw [if_neg hi, Nat.add_zero]
      exact Session.reads_congr (by rw [h.streams, setStream_of_ne _ _ _ hi])
  obtain ⟨hbuf, hwin, hcred⟩ := hreads
  obtain rfl | rfl := x.eq_or_eq_peer y
  · have hpipe : (n.put y t).pipe y i = { n.pipe y i with
        credit := (n.pipe y i).credit + (if i = f.id then Frame.grant i f else 0)
        grants := (n.pipe y i).grants - (if i = f.id then Frame.grant i f else 0) } := by
      have hsub : Frame.grantFor i gs = Frame.grant i f + Frame.grantFor i gs -
          (if i = f.id then Frame.grant i f else 0) := by
        by_cases hi : i = f.id
        · rw [if_pos hi, Nat.add_sub_cancel_left]
        · have : Frame.grant i f = 0 := if_neg fun hf => hi hf.2.symm
          rw [if_neg hi, this, Nat.zero_add, Nat.sub_zero]
      simp only [pipe, payload_eq hL, payload_eq hLs', grants_eq hMs, grants_eq hMs',
        Frame.grantFor_cons, ← hsub]
      simp only [put, set_same, set_peer, hcred]
    rw [hpipe]
    by_cases hi : i = f.id
    · refine .single (Pipe.Step.refill _ _ ?_)
      rw [if_pos hi]
      simp only [pipe, grants_eq hMs, Frame.grantFor_cons]
      exact Nat.le_add_right _ _
    · rw [if_neg hi, Nat.add_zero, Nat.sub_zero]
  · have hpipe : (n.put x t).pipe x.peer i = n.pipe x.peer i := by
      simp only [pipe, payload_eq hMs, payload_eq hMs', Side.peer_peer, grants_eq hL,
        grants_eq hLs']
      simp only [put, set_same, set_peer, hbuf, hwin, Frame.payloadFor_cons]
      rw [hid, ite_self, List.nil_append]
    rw [hpipe]

/-- The frame whose header is taken declares its stream or finds it. -/
theorem advance_header {t : Session} {f : Frame} {st : Stream} {gs : List Frame} (hW : n.Wired)
    (hM : Link x.peer (n x.peer) (n x) [] (f :: gs))
    (hle : hdrSize ≤ (n x).session.recvBuf.length) (h : (n x).session.Absorbs t f st) :
    Advance n (n.put x t) := by
  obtain ⟨part, fs, hL⟩ := (hW x).1
  have hM' := h.link_in hM hle
  have hL' := h.link_out hL (hM.known f List.mem_cons_self)
  have hs : Steady x { n x with session := t } := by
    refine h.steady (hW x).2 ?_
    by_cases hsyn : f.Syn
    · have hown := hM.own f List.mem_cons_self hsyn
      exact .inr fun hown' => Side.not_owns_of_peer hown' hown
    · exact .inl (not_not.mp (mt hM.ordered.1.mpr hsyn))
  have hW' : (n.put x t).Wired := wired_set hW hL' hM' hs
  exact ⟨hW', pipes_header h hW' hM hL hM' hL'⟩

/-- What has arrived of a payload is the front of the part on the way. -/
theorem payload_moved (hW : n.Wired) (hn : (n x).session.newFrame = false) :
    ∃ id k st st' part fs, hdrStreamId (n x).session.hdr = id ∧
      (n x).session.Moves (n x).session.payload id k st st' ∧ k ≤ part.length ∧
      k ≤ (n x).session.recvBuf.length ∧ (n x).session.recvBuf.take k = part.take k ∧
      Link x.peer (n x.peer) (n x) part fs ∧
      Link x.peer (n x.peer) { n x with session := (n x).session.payload } (part.drop k) fs := by
  obtain ⟨part, fs, hM⟩ := hW.incoming x
  obtain ⟨-, -, hremain, hsome⟩ := hM.position.mid hn
  obtain ⟨st, hst⟩ := Option.isSome_iff_exists.mp hsome
  have hmoves := payload_moves hst
  generalize hk : min (n x).session.frameRemain.toNat (n x).session.recvBuf.length = k at hmoves
  have hkpart : k ≤ part.length := by omega
  have hkrecv : k ≤ (n x).session.recvBuf.length := by omega
  obtain ⟨htake, hM'⟩ := hmoves.link_in hM rfl hn hkpart hkrecv
  exact ⟨_, k, st, _, part, fs, rfl, hmoves, hkpart, hkrecv, htake, hM, hM'⟩

/-- The payload of a live stream that has arrived is a delivery on its pipe. -/
theorem advance_payload (hW : n.Wired) (hS : n.Sound)
    (hn : (n x).session.newFrame = false) : Advance n (n.put x (n x).session.payload) := by
  obtain ⟨id, k, st, st', part, fs, hid, hmoves, hkpart, hkrecv, htake, hM, hM'⟩ :=
    payload_moved hW hn
  obtain ⟨part', fs', hL⟩ := (hW x).1
  have hMs : Link x.peer (n x.peer) (n x.peer.peer) part fs := by rwa [Side.peer_peer]
  have hst := hmoves.stream
  generalize (n x).session.payload = t at hmoves hM'
  have hqueue : n.payload x.peer id = part ++ Frame.payloadFor id fs := by
    rw [payload_eq hMs, Side.peer_peer, if_pos hid]
  have hwindow : k ≤ st.recvWindow.toNat := by
    have := (hS x.peer id).queue_le
    simp only [pipe, Side.peer_peer, window_some hst, hqueue, List.length_append] at this
    omega
  have hL' := hmoves.link_out hL
  refine ⟨wired_set hW hL' hM' (hmoves.steady (hW x).2 hwindow hkrecv), fun y i => ?_⟩
  have hMs' : Link x.peer (n.put x t x.peer) (n.put x t x.peer.peer) (part.drop k) fs := by
    simpa [put] using hM'
  have hLs' : Link x (n.put x t x) (n.put x t x.peer) part' fs' := by
    simpa [put] using hL'
  obtain rfl | rfl := x.eq_or_eq_peer y
  · have hpipe : (n.put y t).pipe y i = n.pipe y i := by
      have hc : t.credit i = (n y).session.credit i := by
        by_cases hi : i = id
        · subst hi
          rw [credit_some hmoves.same, hmoves.credit, credit_some hst]
        · exact (hmoves.reads hi).2.2
      simp only [pipe, payload_eq hL, payload_eq hLs', grants_eq hMs, grants_eq hMs']
      simp only [put, set_same, set_peer, hc]
    rw [hpipe]
  · by_cases hi : i = id
    · subst hi
      have hdeliver := @Pipe.Step.deliver _ maxWindow (n.pipe x.peer i) k (by
        simp only [pipe, hqueue, List.length_append]
        omega)
      have hpipe : (n.put x t).pipe x.peer i = { n.pipe x.peer i with
          queue := (n.pipe x.peer i).queue.drop k
          buf := (n.pipe x.peer i).buf ++ (n.pipe x.peer i).queue.take k
          window := (n.pipe x.peer i).window - k } := by
        simp only [pipe, payload_eq hMs', hqueue, Side.peer_peer, grants_eq hL, grants_eq hLs',
          List.drop_append_of_le_length hkpart, List.take_append_of_le_length hkpart]
        simp only [put, set_same, set_peer, hmoves.hdr, hid, if_true, buffered_some hmoves.same,
          window_some hmoves.same, buffered_some hst, window_some hst, hmoves.buffered, htake,
          hmoves.window, toNat_sub_ofNat hwindow]
      rw [hpipe]
      exact .single hdeliver
    · obtain ⟨hb, hw, -⟩ := hmoves.reads hi
      have hne : ¬ id = i := fun h => hi h.symm
      have hpipe : (n.put x t).pipe x.peer i = n.pipe x.peer i := by
        simp only [pipe, payload_eq hMs, payload_eq hMs', Side.peer_peer, grants_eq hL,
          grants_eq hLs']
        simp only [put, set_same, set_peer, hmoves.hdr, hid, if_neg hne, hb, hw]
      rw [hpipe]

/-- Moving bytes on the way leaves the frames as they are. -/
theorem link_move (hlike : ∀ x, Alike (n x) (n' x)) (hbytes : ∀ x, n'.inFlight x = n.inFlight x)
    {x : Side} {part : Bytes} {fs : List Frame} (h : Link x (n x) (n x.peer) part fs) :
    Link x (n' x) (n' x.peer) part fs := by
  obtain ⟨-, -, -, hnew, hremain, hstreams, hhdr, -⟩ := hlike x.peer
  constructor
  · exact (hbytes x).trans h.bytes
  · constructor
    · rw [hnew]
      exact h.position.new
    · rw [hnew, hremain, hhdr, hstreams]
      exact h.position.mid
  · exact h.honest
  · rw [(hlike x).streams]
    exact h.known
  · exact h.own
  · rw [hstreams]
    exact h.ordered
  · rw [(hlike x).streams, hstreams]
    exact h.announced

/-- Moving bytes on the way changes nothing else. -/
theorem advance_move (hW : n.Wired) (hlike : ∀ x, Alike (n x) (n' x))
    (hbytes : ∀ x, n'.inFlight x = n.inFlight x)
    (hsmall : ∀ x, (n' x).session.recvBuf.length < 2 ^ 31) : Advance n n' := by
  have hlink {x : Side} {part : Bytes} {fs : List Frame}
      (h : Link x (n x) (n x.peer) part fs) : Link x (n' x) (n' x.peer) part fs :=
    link_move hlike hbytes h
  constructor
  · intro x
    obtain ⟨⟨part, fs, hL⟩, hs⟩ := hW x
    refine ⟨⟨part, fs, hlink hL⟩, ?_⟩
    obtain ⟨hremote, hlocal, hnext, -, -, hstreams, -, -, hopens, -⟩ := hlike x
    constructor
    · exact hremote.trans hs.remoteGoAway
    · exact hlocal.trans hs.localGoAway
    · exact hsmall x
    · rw [hopens]
      exact hs.opens
    · rw [hnext, hopens]
      exact hs.counter
    · rw [hstreams, hnext]
      exact hs.fresh
    · rw [hstreams]
      exact hs.streams
  · intro x i
    obtain ⟨part, fs, hL⟩ := (hW x).1
    obtain ⟨part', fs', hM⟩ := (hW x.peer).1
    have hpipe : n'.pipe x i = n.pipe x i := by
      simp only [pipe, payload_eq hL, payload_eq (hlink hL), grants_eq hM, grants_eq (hlink hM),
        Session.buffered, Session.window, Session.credit, (hlike x).accepted,
        (hlike x.peer).returned, (hlike x.peer).hdr, (hlike x).streams, (hlike x.peer).streams]
    rw [hpipe]

/-- An operation that finds nothing to do. -/
theorem Does.unchanged (hW : n.Wired) : Does n (n.set x (n x)) := by
  rw [set_self]
  exact .move (fun y => .refl _) (fun _ => rfl) fun y => (hW y).2.small

/-- Every step keeps a connection wired and moves its pipes by their own steps. -/
theorem Does.advance (h : Does n n') (hW : n.Wired) (hS : n.Sound) : Advance n n' := by
  cases h with
  | emits he hs hout hin => exact advance_emits hW he hs hout hin
  | header hM hle h => exact advance_header hW hM hle h
  | payload hn => exact advance_payload hW hS hn
  | move hlike hbytes hsmall => exact advance_move hW hlike hbytes hsmall

/-- Any number of steps. -/
abbrev Runs : Net → Net → Prop := Relation.ReflTransGen Does

theorem Runs.advance (h : Runs n n') (hW : n.Wired) (hS : n.Sound) : Advance n n' := by
  induction h with
  | refl => exact .refl hW
  | tail _ hd ih => exact ih.trans (hd.advance ih.wired (ih.sound hS))

end Net

end Yamux
