import Yamux.Network.Model

/-!
# What holds between two endpoints

The bytes on the way in each direction are the rest of the frame in progress and
a sequence of complete frames, in an order in which each stream is declared
before it is used. A step advances the connection when it keeps this so and moves
every pipe by steps of its own.
-/

namespace Yamux

open Core Prog

/-- The frames that sessions send while nothing fails and nobody leaves. -/
structure Frame.Honest (f : Frame) : Prop where
  version : hdrVersion f.hdr = VERSION
  type : f.type = TYPE_DATA ∨ f.type = TYPE_WINDOW_UPDATE
  fin : hasFlag f.flags FLAG_FIN = false
  rst : hasFlag f.flags FLAG_RST = false

/-- The states of a stream that nobody has closed. -/
def Stream.Open (st : Stream) : Prop :=
  st.state = .synSent ∨ st.state = .synReceived ∨ st.state = .established

/-- Where a receiver stands when `part` of the frame in progress is on the way. -/
structure Position (s : Session) (part : Bytes) : Prop where
  new : s.newFrame = true → part = []
  mid : s.newFrame = false → hdrType s.hdr = TYPE_DATA ∧ part ≠ [] ∧
    s.frameRemain.toNat = part.length ∧ (s.streams (hdrStreamId s.hdr)).isSome

/-- The direction from `a`, which is side `x`, to `b`. -/
structure Link (x : Side) (a b : Endpoint) (part : Bytes) (fs : List Frame) : Prop where
  bytes : b.session.recvBuf ++ a.wire ++ a.session.sendBuf = part ++ Frame.encode fs
  position : Position b.session part
  honest : ∀ f ∈ fs, f.Honest
  known : ∀ f ∈ fs, (a.session.streams f.id).isSome
  own : ∀ f ∈ fs, f.Syn → x.Owns f.id
  ordered : Frame.Ordered (fun i => (b.session.streams i).isSome) fs
  announced : ∀ i, (a.session.streams i).isSome →
    (b.session.streams i).isSome ∨ ∃ f ∈ fs, f.id = i

/-- One end by itself. -/
structure Steady (x : Side) (a : Endpoint) : Prop where
  remoteGoAway : a.session.remoteGoAway = false
  localGoAway : a.session.localGoAway = false
  small : a.session.recvBuf.length < 2 ^ 31
  opens : a.opens < 2 ^ 31 - 1
  counter : a.session.nextId.toNat = x.base + 2 * a.opens
  fresh : ∀ i, (a.session.streams i).isSome → x.Owns i → i.toNat < a.session.nextId.toNat
  streams : ∀ i st, a.session.streams i = some st → st.Open ∧ st.gap < 131072

/-- Both directions and both ends. -/
def Net.Wired (n : Net) : Prop :=
  ∀ x, (∃ part fs, Link x (n x) (n x.peer) part fs) ∧ Steady x (n x)

/-- All pipes are sound. -/
def Net.Sound (n : Net) : Prop := ∀ x i, (n.pipe x i).Sound maxWindow

/-- A step that keeps a connection wired and moves its pipes by their own steps. -/
structure Net.Advance (n n' : Net) : Prop where
  wired : n'.Wired
  pipes : ∀ x i, Pipe.Steps maxWindow (n.pipe x i) (n'.pipe x i)

namespace Net

variable {n n' n'' : Net} {x : Side} {a : Endpoint}

@[simp] theorem set_same : n.set x a x = a := by
  simp [set]

@[simp] theorem set_peer : n.set x a x.peer = n x.peer := by
  simp [set, Side.peer_ne]

@[simp] theorem set_set {b : Endpoint} : (n.set x a).set x b = n.set x b := by
  simp [set]

theorem set_self : n.set x (n x) = n := by
  simp [set]

theorem Advance.refl (h : n.Wired) : Advance n n := ⟨h, fun _ _ => .refl⟩

theorem Advance.unchanged (h : n.Wired) : Advance n (n.set x (n x)) := by
  rw [set_self]
  exact .refl h

theorem Advance.trans (h : Advance n n') (h' : Advance n' n'') : Advance n n'' :=
  ⟨h'.wired, fun x i => (h.pipes x i).trans (h'.pipes x i)⟩

theorem Advance.sound (h : Advance n n') (hs : n.Sound) : n'.Sound :=
  fun x i => (h.pipes x i).sound (hs x i)

/-! ## What is on the way, read off a link -/

section Link

variable {part : Bytes} {fs : List Frame}

theorem partFrame_eq (h : Link x (n x) (n x.peer) part fs) : n.partFrame x = part := by
  unfold partFrame inFlight
  rw [h.bytes]
  cases hn : (n x.peer).session.newFrame with
  | true => rw [if_pos rfl, h.position.new hn]
  | false =>
    rw [if_neg Bool.false_ne_true]
    exact List.take_left' (h.position.mid hn).2.2.1.symm

theorem frames_eq (h : Link x (n x) (n x.peer) part fs) : n.frames x = fs := by
  unfold frames
  rw [partFrame_eq h, inFlight, h.bytes, List.drop_left, Frame.decode_encode]

theorem payload_eq (h : Link x (n x) (n x.peer) part fs) (i : UInt32) :
    n.payload x i = (if hdrStreamId (n x.peer).session.hdr = i then part else []) ++
      Frame.payloadFor i fs := by
  rw [payload, partFrame_eq h, frames_eq h]

theorem grants_eq (h : Link x (n x) (n x.peer) part fs) (i : UInt32) :
    n.grants x i = Frame.grantFor i fs := by
  rw [grants, frames_eq h]

end Link

/-- A change of one end keeps the connection wired if it keeps both directions. -/
theorem wired_set {part part' : Bytes} {fs fs' : List Frame} (hW : n.Wired)
    (hout : Link x a (n x.peer) part fs) (hin : Link x.peer (n x.peer) a part' fs')
    (hs : Steady x a) : (n.set x a).Wired := by
  intro y
  obtain rfl | rfl := x.eq_or_eq_peer y
  · rw [set_same, set_peer]
    exact ⟨⟨part, fs, hout⟩, hs⟩
  · rw [Side.peer_peer, set_same, set_peer]
    exact ⟨⟨part', fs', hin⟩, (hW x.peer).2⟩

/-- The link into a side. -/
theorem Wired.incoming (hW : n.Wired) (x : Side) :
    ∃ part fs, Link x.peer (n x.peer) (n x) part fs := by
  obtain ⟨part, fs, h⟩ := (hW x.peer).1
  rw [Side.peer_peer] at h
  exact ⟨part, fs, h⟩

end Net

namespace Session

/-- What a pipe reads off a session depends on the stream only. -/
theorem reads_congr {s t : Session} {i : UInt32} (h : t.streams i = s.streams i) :
    t.buffered i = s.buffered i ∧ t.window i = s.window i ∧ t.credit i = s.credit i := by
  unfold buffered window credit
  rw [h]
  exact ⟨rfl, rfl, rfl⟩

theorem buffered_some {s : Session} {i : UInt32} {st : Stream} (h : s.streams i = some st) :
    s.buffered i = st.recvBuf := by
  rw [buffered, h]
  rfl

theorem window_some {s : Session} {i : UInt32} {st : Stream} (h : s.streams i = some st) :
    s.window i = st.recvWindow.toNat := by
  rw [window, h]
  rfl

theorem credit_some {s : Session} {i : UInt32} {st : Stream} (h : s.streams i = some st) :
    s.credit i = st.sendWindow.toNat := by
  rw [credit, h]
  rfl

end Session

end Yamux
