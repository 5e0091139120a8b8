import Yamux.Network.Steps

/-!
# The operations of the application advance a connection

Opening, accepting, writing and reading send at most one frame for one stream.
A window update is a grant of the pipe that comes in, a write is a send on the
pipe that goes out.
-/

namespace Yamux

open Core Prog

/-! ## Window updates as frames -/

/-- The frame that announces credit, if any. -/
def announceFrames (flags : UInt16) (id : UInt32) : Option UInt32 → List Frame
  | none => []
  | some delta => [Frame.windowUpdate flags id delta]

/-- The frames that `send_window_update` sends. -/
def Stream.updateFrames (st : Stream) (id : UInt32) : List Frame :=
  announceFrames st.sendFlags.1 id st.update.1

section Update

variable {st : Stream} {id : UInt32}

theorem announce_eq (flags : UInt16) (id : UInt32) (delta : Option UInt32) :
    announce flags id delta = Frame.encode (announceFrames flags id delta) := by
  cases delta with
  | none => rfl
  | some delta =>
    rw [announceFrames, Frame.encode_cons]
    rfl

theorem sendFlags_cases (st : Stream) :
    (st.state = .init ∧ st.sendFlags.1 = FLAG_SYN) ∨
    (st.state ≠ .init ∧ (st.sendFlags.1 = FLAG_ACK ∨ st.sendFlags.1 = 0)) := by
  unfold Stream.sendFlags
  cases st.state <;> simp

/-- No stream sends FIN or RST, and only a new one sends SYN. -/
theorem sendFlags_legal (st : Stream) : hasFlag st.sendFlags.1 FLAG_FIN = false ∧
    hasFlag st.sendFlags.1 FLAG_RST = false ∧
    (hasFlag st.sendFlags.1 FLAG_SYN = true ↔ st.state = .init) := by
  rcases sendFlags_cases st with ⟨hst, hf⟩ | ⟨hst, hf | hf⟩ <;> rw [hf] <;>
    simp only [hst, iff_true, iff_false] <;> decide

/-- A stream that is open or new is open once its flags are sent. -/
theorem sendFlags_open (h : st.Open ∨ st.state = .init) : st.sendFlags.2.Open := by
  unfold Stream.sendFlags Stream.Open at *
  rcases h with (h | h | h) | h <;> simp [h]

theorem windowUpdate_honest (delta : UInt32) :
    (Frame.windowUpdate st.sendFlags.1 id delta).Honest where
  version := rfl
  type := .inr rfl
  fin := by
    rw [Frame.flags, Frame.windowUpdate, Frame.control, hdrFlags_hdrEncode]
    exact (sendFlags_legal st).1
  rst := by
    rw [Frame.flags, Frame.windowUpdate, Frame.control, hdrFlags_hdrEncode]
    exact (sendFlags_legal st).2.1

theorem windowUpdate_id (flags : UInt16) (delta : UInt32) :
    (Frame.windowUpdate flags id delta).id = id := hdrStreamId_hdrEncode _ _ _ _

theorem windowUpdate_syn (delta : UInt32) :
    (Frame.windowUpdate st.sendFlags.1 id delta).Syn ↔ st.state = .init := by
  rw [Frame.Syn, Frame.flags, Frame.windowUpdate, Frame.control, hdrFlags_hdrEncode]
  exact (sendFlags_legal st).2.2

theorem grant_windowUpdate (flags : UInt16) (delta : UInt32) :
    Frame.grant id (Frame.windowUpdate flags id delta) = delta.toNat := by
  have hlen : (Frame.windowUpdate flags id delta).length = delta := hdrLength_hdrEncode _ _ _ _
  rw [Frame.grant, if_pos ⟨rfl, windowUpdate_id flags delta⟩, hlen]

theorem mem_updateFrames {f : Frame} (h : f ∈ st.updateFrames id) :
    ∃ delta, f = Frame.windowUpdate st.sendFlags.1 id delta := by
  unfold Stream.updateFrames at h
  generalize st.update.1 = delta at h
  cases delta with
  | none => cases h
  | some delta => exact ⟨delta, List.mem_singleton.mp h⟩

theorem payloadFor_updateFrames (i : UInt32) :
    Frame.payloadFor i (st.updateFrames id) = [] := by
  unfold Stream.updateFrames
  generalize st.update.1 = delta
  cases delta with
  | none => rfl
  | some delta =>
    rw [announceFrames, Frame.payloadFor_cons]
    split <;> rfl

/-- What an update does to the stream, and the credit that it sends. -/
structure Stream.Updated (st : Stream) (id : UInt32) : Prop where
  recvBuf : st.update.2.recvBuf = st.recvBuf
  sendWindow : st.update.2.sendWindow = st.sendWindow
  state : st.update.2.state = st.sendFlags.2.state
  window : st.update.2.recvWindow.toNat =
    st.recvWindow.toNat + Frame.grantFor id (st.updateFrames id)
  room : st.recvBuf.length + st.recvWindow.toNat + Frame.grantFor id (st.updateFrames id) ≤
    maxWindow
  gap : st.update.2.gap < 131072

theorem Stream.Bounded.updated (h : st.Bounded) (id : UInt32) : st.Updated id := by
  have hb : st.recvBuf.length + st.recvWindow.toNat ≤ maxWindow := h
  rcases st.update_cases h with ⟨hu, -, hgap⟩ | ⟨window, hu, hw⟩
  · have hf : st.updateFrames id = [] := by rw [Stream.updateFrames, hu, announceFrames]
    constructor
    · rw [hu, st.sendFlags_recvBuf]
    · rw [hu, st.sendFlags_sendWindow]
    · rw [hu]
    · rw [hu, hf, st.sendFlags_recvWindow]
      rfl
    · rw [hf]
      exact hb
    · rw [hu, Stream.gap, st.sendFlags_recvBuf, st.sendFlags_recvWindow]
      exact hgap
  · have hf : st.updateFrames id = [Frame.windowUpdate st.sendFlags.1 id st.delta] := by
      rw [Stream.updateFrames, hu, announceFrames]
    have hg : Frame.grantFor id (st.updateFrames id) = st.gap := by
      rw [hf, Frame.grantFor_cons, grant_windowUpdate, st.toNat_delta h]
      rfl
    have hgap : st.gap = maxWindow - st.recvBuf.length - st.recvWindow.toNat := rfl
    constructor
    · rw [hu, st.sendFlags_recvBuf]
    · rw [hu, st.sendFlags_sendWindow]
    · rw [hu]
    · rw [hu, hg]
      exact hw
    · omega
    · rw [hu, Stream.gap, st.sendFlags_recvBuf]
      simp only [hw]
      omega

/-- A new stream is always announced. -/
theorem Stream.Bounded.updateFrames_init (h : st.Bounded) (id : UInt32)
    (hst : st.state = .init) :
    ∃ delta, st.updateFrames id = [Frame.windowUpdate st.sendFlags.1 id delta] := by
  rcases st.update_cases h with ⟨-, hz, -⟩ | ⟨window, hu, -⟩
  · rw [st.sendFlags_eq.1, hst] at hz
    exact absurd hz (by decide)
  · exact ⟨st.delta, by rw [Stream.updateFrames, hu, announceFrames]⟩

/-- The flags of a stream ride on its update. -/
theorem Stream.Bounded.speaks (h : st.Bounded) (id : UInt32) :
    Speaks st.state st.update.2.state (st.updateFrames id) where
  next := by rw [(h.updated id).state, st.sendFlags_eq.2]
  flags f hf := by
    obtain ⟨delta, rfl⟩ := mem_updateFrames hf
    rw [← st.sendFlags_eq.1]
    exact hdrFlags_hdrEncode _ _ _ _
  silent hnil := by
    rcases st.update_cases h with ⟨-, hz, -⟩ | ⟨window, hu, -⟩
    · rw [← st.sendFlags_eq.1, hz]
    · rw [Stream.updateFrames, hu, announceFrames] at hnil
      cases hnil
  single := by
    unfold Stream.updateFrames
    generalize st.update.1 = delta
    cases delta with
    | none => exact Nat.zero_le 1
    | some delta => exact Nat.le_refl 1

end Update

/-! ## Operations that end in a window update -/

section Emits

variable {x : Side} {a a' : Endpoint} {s : Session} {id : UInt32} {st : Stream}

/-- What such an operation may have done to the session before it. -/
structure Before (a s : Session) (id : UInt32) : Prop where
  newFrame : s.newFrame = a.newFrame
  frameRemain : s.frameRemain = a.frameRemain
  recvBuf : s.recvBuf = a.recvBuf
  hdr : s.hdr = a.hdr
  sendBuf : s.sendBuf = a.sendBuf
  accepts : s.accepts = a.accepts ∨ a.accepts = id :: s.accepts
  streams : s.streams = a.streams

theorem updateWindow_stream (s : Session) (id : UInt32) (st : Stream) :
    (s.updateWindow id st).streams id = some st.update.2 := by
  rw [Session.updateWindow, Session.queue_streams, Session.setStream_same]

/-- The stream that an update announces is known, or it is new. -/
def Announces (x : Side) (a a' : Endpoint) (id : UInt32) (st : Stream) : Prop :=
  (∃ st₀, a.session.streams id = some st₀ ∧ st.state = st₀.state ∧ st.state ≠ .init ∧
    a'.opened = a.opened) ∨
  (a.session.streams id = none ∧ x.Owns id ∧ st.state = .init ∧ a'.opened = a.opened ++ [id])

theorem emits_update (hs : Before a.session s id) (hsession : a'.session = s.updateWindow id st)
    (hwire : a'.wire = a.wire) (hacc : a'.accepted = a.accepted)
    (hret : ∀ i, i ≠ id → a'.returned i = a.returned i)
    (hst : st.Bounded) (hdecl : Announces x a a' id st) : Emits x a a' id (st.updateFrames id) where
  wire := hwire
  newFrame := by rw [hsession, ← hs.newFrame]; rfl
  frameRemain := by rw [hsession, ← hs.frameRemain]; rfl
  recvBuf := by rw [hsession, ← hs.recvBuf]; rfl
  hdr := by rw [hsession, ← hs.hdr]; rfl
  sendBuf := by
    rw [hsession, Session.updateWindow, Session.queue_sendBuf, Session.setStream_sendBuf,
      hs.sendBuf, announce_eq]
    rfl
  present := by
    rw [hsession, Session.updateWindow, Session.queue_streams, Session.setStream_same]
    rfl
  accepts := by
    rw [hsession]
    exact hs.accepts
  streams i hi := by
    rw [hsession, Session.updateWindow, Session.queue_streams, Session.setStream_of_ne _ _ _ hi,
      hs.streams]
  accepted i _ := by rw [hacc]
  returned := hret
  ids f hf := by
    obtain ⟨delta, rfl⟩ := mem_updateFrames hf
    exact windowUpdate_id _ _
  honest f hf := by
    obtain ⟨delta, rfl⟩ := mem_updateFrames hf
    exact windowUpdate_honest delta
  declares := by
    rcases hdecl with ⟨st₀, hst₀, -, hne, hopened⟩ | ⟨hnone, hown, hinit, hopened⟩
    · refine .inl ⟨by rw [hst₀]; rfl, fun f hf => ?_, hopened⟩
      obtain ⟨delta, rfl⟩ := mem_updateFrames hf
      exact mt (windowUpdate_syn delta).mp hne
    · obtain ⟨delta, hu⟩ := hst.updateFrames_init id hinit
      exact .inr ⟨hnone, hown, ⟨_, hu, (windowUpdate_syn delta).mpr hinit⟩, hopened⟩
  state st' hst' := by
    rw [hsession, updateWindow_stream] at hst'
    obtain rfl := Option.some.inj hst'
    have hstate : (a.session.streams id).elim .init Stream.state = st.state := by
      rcases hdecl with ⟨st₀, hst₀, h, -⟩ | ⟨hnone, -, hinit, -⟩
      · rw [hst₀, Option.elim_some, h]
      · rw [hnone, Option.elim_none, hinit]
    rw [hstate]
    exact .inl (hst.speaks id)

theorem Stream.Updated.open (h : st.Updated id) (hst : st.Open ∨ st.state = .init) :
    st.update.2.Open := by
  rw [Stream.Open, h.state]
  exact sendFlags_open hst

/-- An endpoint is as steady as the stream that takes the place of another. -/
theorem Steady.setStream {st' : Stream} (h : Steady x a)
    (hst : a.session.streams id = some st)
    (hremote : a'.session.remoteGoAway = a.session.remoteGoAway)
    (hlocal : a'.session.localGoAway = a.session.localGoAway)
    (hnext : a'.session.nextId = a.session.nextId)
    (hrecv : a'.session.recvBuf = a.session.recvBuf) (hopens : a'.opens = a.opens)
    (hstreams : ∀ i, a'.session.streams i = (a.session.setStream id st').streams i)
    (hopen : st'.Open) (hgap : st'.gap < 131072) : Steady x a' where
  remoteGoAway := hremote.trans h.remoteGoAway
  localGoAway := hlocal.trans h.localGoAway
  small := by
    rw [hrecv]
    exact h.small
  opens := by
    rw [hopens]
    exact h.opens
  counter := by
    rw [hnext, hopens]
    exact h.counter
  fresh i hi hown := by
    rw [hnext]
    rw [hstreams, Session.setStream_streams] at hi
    split at hi
    · subst i
      exact h.fresh id (by rw [hst]; rfl) hown
    · exact h.fresh i hi hown
  streams i st'' h' := by
    rw [hstreams, Session.setStream_streams] at h'
    split at h'
    · obtain rfl := Option.some.inj h'
      exact ⟨hopen, hgap⟩
    · exact h.streams i st'' h'

end Emits

namespace Net

variable {n n' : Net} {x : Side} {id : UInt32} {st : Stream}

/-! ## Reading the model -/

theorem call_eq_some {α : Type} {p : Op α} {log : α → Endpoint → Endpoint}
    (h : n.call x p log = some n') : ∃ a s, p.exec (n x).session = (.ret a, s) ∧
      n' = n.set x (log a { n x with session := s }) := by
  unfold call at h
  cases hp : p.exec (n x).session with
  | mk o s =>
    rw [hp] at h
    cases o with
    | ret a => exact ⟨a, s, rfl, (Option.some.inj h).symm⟩
    | abort => cases h
    | hang => cases h

@[simp] theorem record_nil (log : UInt32 → Bytes) (id : UInt32) : record log id [] = log := by
  simp [record]

@[simp] theorem record_same (log : UInt32 → Bytes) (id : UInt32) (b : Bytes) :
    record log id b id = log id ++ b := by
  simp [record]

theorem record_of_ne (log : UInt32 → Bytes) {id i : UInt32} (b : Bytes) (h : i ≠ id) :
    record log id b i = log i := by
  simp [record, h]

/-- The stream at the receiving end of a pipe. -/
theorem pipe_receiver (h : (n x).session.streams id = some st) :
    (n.pipe x.peer id).buf = st.recvBuf ∧ (n.pipe x.peer id).window = st.recvWindow.toNat := by
  simp only [pipe, Side.peer_peer]
  exact ⟨Session.buffered_some h, Session.window_some h⟩

theorem pipe_sender (h : (n x).session.streams id = some st) :
    (n.pipe x id).credit = st.sendWindow.toNat := Session.credit_some h

theorem Sound.bounded (hS : n.Sound) (h : (n x).session.streams id = some st) : st.Bounded := by
  have hroom := (hS x.peer id).room
  obtain ⟨hb, hw⟩ := pipe_receiver h
  rwa [hb, hw] at hroom

/-! ## Opening and accepting -/

/-- An operation that ends in a window update, and leaves the records as they are. -/
theorem does_update {a : Endpoint} {s : Session} (hb : Before (n x).session s id) (ha : a.session = s.updateWindow id st)
    (hwire : a.wire = (n x).wire) (hacc : a.accepted = (n x).accepted)
    (hret : a.returned = (n x).returned) (hs : Steady x a) (hst : st.Bounded)
    (hread : st.recvBuf = (n x).session.buffered id ∧
      st.recvWindow.toNat = (n x).session.window id ∧
      st.sendWindow.toNat = (n x).session.credit id)
    (hdecl : Announces x (n x) a id st) : Does n (n.set x a) := by
  have hu := hst.updated id
  have hstream : a.session.streams id = some st.update.2 := by
    rw [ha, updateWindow_stream]
  obtain ⟨hbuf, hwin, hcred⟩ := hread
  have he : Emits x (n x) a id (st.updateFrames id) :=
    emits_update hb ha hwire hacc (fun i _ => by rw [hret]) hst hdecl
  refine .emits he hs ?_ ?_
  · have : { n.pipe x id with
        sent := a.accepted id
        queue := (n.pipe x id).queue ++ Frame.payloadFor id (st.updateFrames id)
        credit := a.session.credit id } = n.pipe x id := by
      rw [payloadFor_updateFrames, List.append_nil, Session.credit_some hstream, hu.sendWindow,
        hcred, hacc]
      rfl
    rw [this]
  · have hroom := hu.room
    rw [hbuf, hwin] at hroom
    have hgrant := @Pipe.Step.grant _ maxWindow (n.pipe x.peer id)
      (Frame.grantFor id (st.updateFrames id)) (by simpa only [pipe, Side.peer_peer] using hroom)
    rw [Session.buffered_some hstream, Session.window_some hstream, hu.recvBuf, hu.window, hbuf,
      hwin, hret]
    simp only [pipe, Side.peer_peer] at hgrant ⊢
    exact .single hgrant

theorem fresh_bounded (state : StreamState) (padding : UInt32) :
    (Stream.fresh state padding).Bounded := by
  change 0 + MAX_STREAM_WINDOW_SIZE.toNat ≤ maxWindow
  rw [toNat_maxWindow]
  omega

/-- `session_open`. -/
theorem does_open {tries : Nat} (hW : n.Wired)
    (h : n.step (.openStream x tries) = some n') : Does n n' := by
  have hs := (hW x).2
  simp only [step] at h
  split at h
  · rename_i hopens
    obtain ⟨r, s, hexec, rfl⟩ := call_eq_some h
    have hcount := hs.counter
    have hbase : x.base ≤ 2 := by cases x <;> decide
    have hid : (n x).session.nextId < 4294967295 := by
      rw [UInt32.lt_iff_toNat_lt]
      change _ < 4294967295
      omega
    have hown : x.Owns (n x).session.nextId := by
      unfold Side.Owns
      omega
    have hfree : (n x).session.streams (n x).session.nextId = none := by
      cases hst : (n x).session.streams (n x).session.nextId with
      | none => rfl
      | some st => exact absurd (hs.fresh _ (by rw [hst]; rfl) hown) (lt_irrefl _)
    cases tries with
    | zero =>
      have := exec_sessionOpen_zero hs.remoteGoAway
      rw [hexec] at this
      cases this
    | succ tries =>
      have hopen := exec_sessionOpen (Nat.succ_pos tries) hs.remoteGoAway hid hfree
      rw [hopen] at hexec
      cases hexec
      generalize hst : Stream.fresh .init (n x).session.rcvbuf = st
      have hbounded : st.Bounded := hst ▸ fresh_bounded _ _
      have hinit : st.state = .init := by rw [← hst]; rfl
      have hu := hbounded.updated (n x).session.nextId
      have hnext : ((n x).session.nextId + 2).toNat = (n x).session.nextId.toNat + 2 := by
        rw [UInt32.toNat_add, Nat.mod_eq_of_lt]
        · rfl
        · change _ + 2 < _
          omega
      refine does_update (s := { (n x).session with nextId := (n x).session.nextId + 2 })
        ⟨rfl, rfl, rfl, rfl, rfl, .inl rfl, rfl⟩ rfl rfl rfl rfl ?_ hbounded ?_
        (.inr ⟨hfree, hown, hinit, rfl⟩)
      · constructor
        · exact hs.remoteGoAway
        · exact hs.localGoAway
        · exact hs.small
        · exact hopens
        · change ((n x).session.nextId + 2).toNat = _
          rw [hnext]
          change _ = _ + 2 * ((n x).opens + 1)
          omega
        · intro i hi hown'
          change i.toNat < ((n x).session.nextId + 2).toNat
          rw [hnext]
          change (((n x).session.setStream _ _).streams i).isSome = true at hi
          rw [Session.setStream_streams] at hi
          split at hi
          · subst i
            omega
          · have := hs.fresh i hi hown'
            omega
        · intro i st' h'
          change ((n x).session.setStream _ _).streams i = some st' at h'
          rw [Session.setStream_streams] at h'
          split at h'
          · obtain rfl := Option.some.inj h'
            exact ⟨hu.open (.inr hinit), hu.gap⟩
          · exact hs.streams i st' h'
      · simp only [Session.buffered, Session.window, Session.credit, hfree, ← hst, Stream.fresh,
          toNat_maxWindow, Option.elim_none, and_self]
  · cases h

/-- `session_accept`. -/
theorem does_accept (hW : n.Wired) (hS : n.Sound)
    (h : n.step (.acceptStream x) = some n') : Does n n' := by
  have hs := (hW x).2
  simp only [step] at h
  obtain ⟨r, s, hexec, rfl⟩ := call_eq_some h
  cases ha : (n x).session.accepts with
  | nil =>
    rw [exec_sessionAccept_nil ha] at hexec
    cases hexec
  | cons id rest =>
    cases hst : (n x).session.streams id with
    | none =>
      have := exec_sessionAccept_dead ha hst
      rw [hexec] at this
      cases this
    | some st =>
      rw [exec_sessionAccept ha hst] at hexec
      cases hexec
      have hbounded := hS.bounded hst
      have hu := hbounded.updated id
      have hopen := (hs.streams id st hst).1
      have hne : st.state ≠ .init := by
        rcases hopen with h | h | h <;> rw [h] <;> nofun
      refine does_update (s := { (n x).session with accepts := rest })
        ⟨rfl, rfl, rfl, rfl, rfl, .inr ha, rfl⟩ rfl rfl rfl rfl ?_ hbounded ?_
        (.inl ⟨st, hst, rfl, hne, rfl⟩)
      · exact hs.setStream hst rfl rfl rfl rfl rfl (fun _ => rfl) (hu.open (.inl hopen)) hu.gap
      · rw [Session.buffered_some hst, Session.window_some hst, Session.credit_some hst]
        exact ⟨rfl, rfl, rfl⟩

end Net

end Yamux
