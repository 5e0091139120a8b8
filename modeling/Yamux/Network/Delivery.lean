import Yamux.Network.Receiving

/-!
# Delivery, credit and progress between two endpoints

Every reachable state of two honest endpoints is wired, and all its pipes are
sound. So every byte that a write accepts is returned, buffered or on the way, in
order; the receive window accounts for all credit; and a writer without credit
waits for a reader that has data.
-/

namespace Yamux

open Core Prog Session

namespace Net

variable {n n' : Net} {x : Side}

/-! ## Moving bytes -/

theorem exec_transmit (k : Nat) {s : Session} (h : s.sendBuf.length < 2 ^ 31) :
    (transmit k).exec s =
      (.ret (s.sendBuf.take k), { s with sendBuf := s.sendBuf.drop k }) := by
  have hlen : toInt32 (min k s.sendBuf.length) = (min k s.sendBuf.length : Nat) :=
    toInt32_eq (by omega)
  have hdrop : s.sendBuf.drop (min k s.sendBuf.length) = s.sendBuf.drop k := by
    by_cases hk : k ≤ s.sendBuf.length
    · rw [min_eq_left hk]
    · rw [min_eq_right (by omega), List.drop_length, List.drop_eq_nil_of_le (by omega)]
  have hall : (s.sendBuf.take k).take (min k s.sendBuf.length) = s.sendBuf.take k := by
    rw [← List.length_take, List.take_length]
  simp only [transmit, sessionSendBufPeek, sessionSendBufConsume, exec_bind, exec_read,
    andThen_ret, exec_crit, exec_pure, List.length_take, hlen, Int.toNat_natCast, hall, hdrop]

theorem does_send {k : Nat} (hW : n.Wired) (h : n.step (.send x k) = some n') :
    Does n n' := by
  simp only [step] at h
  split at h
  · rename_i hsmall
    obtain ⟨r, s, hexec, rfl⟩ := call_eq_some h
    rw [exec_transmit k hsmall] at hexec
    cases hexec
    refine .move (fun y => ?_) (fun y => ?_) fun y => ?_
    · obtain rfl | rfl := x.eq_or_eq_peer y
      · rw [set_same]
        exact ⟨rfl, rfl, rfl, rfl, rfl, rfl, rfl, rfl, rfl, rfl, rfl, rfl⟩
      · rw [set_peer]
        exact .refl _
    · obtain rfl | rfl := x.eq_or_eq_peer y
      · simp only [inFlight, set_same, set_peer, List.append_assoc, List.take_append_drop]
      · simp only [inFlight, set_same, set_peer, Side.peer_peer]
    · obtain rfl | rfl := x.eq_or_eq_peer y
      · rw [set_same]
        exact (hW y).2.small
      · rw [set_peer]
        exact (hW x.peer).2.small
  · cases h

theorem does_receive {k : Nat} (hW : n.Wired) (h : n.step (.receive x k) = some n') :
    Does n n' := by
  simp only [step] at h
  split at h
  · rename_i hsmall
    obtain ⟨r, s, hexec, rfl⟩ := call_eq_some h
    rw [exec_sessionRecvBufWrite] at hexec
    cases hexec
    have hne : x ≠ x.peer := (Side.peer_ne x).symm
    refine .move (fun y => ?_) (fun y => ?_) fun y => ?_
    · obtain rfl | rfl := x.eq_or_eq_peer y
      · simp only [set_same]
        simp only [set, Function.update_of_ne hne]
        exact ⟨rfl, rfl, rfl, rfl, rfl, rfl, rfl, rfl, rfl, rfl, rfl, rfl⟩
      · simp only [set_peer, set_same]
        exact ⟨rfl, rfl, rfl, rfl, rfl, rfl, rfl, rfl, rfl, rfl, rfl, rfl⟩
    · obtain rfl | rfl := x.eq_or_eq_peer y
      · simp only [inFlight, set_same, set_peer]
        simp only [set, Function.update_of_ne hne, Session.more]
      · simp only [inFlight, set_same, set_peer, Side.peer_peer]
        simp only [set, Function.update_of_ne hne, Session.more, List.append_assoc]
        rw [← List.append_assoc ((n x.peer).wire.take k), List.take_append_drop]
    · obtain rfl | rfl := x.eq_or_eq_peer y
      · simp only [set_same]
        simp only [set, Function.update_of_ne hne, Session.more]
        exact hsmall
      · simp only [set_peer, set_same]
        exact (hW x.peer).2.small
  · cases h

/-! ## All runs -/

/-- Every event is a run of the connection. -/
theorem step_runs {e : Event} (hW : n.Wired) (hS : n.Sound) (h : n.step e = some n') :
    Runs n n' := by
  cases e with
  | openStream x tries => exact .single (does_open hW h)
  | acceptStream x => exact .single (does_accept hW hS h)
  | write x id data => exact .single (does_write hW hS h)
  | read x id size => exact .single (does_read hW hS h)
  | setNonblock x id nonblock => exact .single (does_setNonblock hW h)
  | send x k => exact .single (does_send hW h)
  | receive x k => exact .single (does_receive hW h)
  | process x =>
    simp only [step] at h
    obtain ⟨r, s, hexec, rfl⟩ := call_eq_some h
    obtain ⟨t, hexec', hruns⟩ := exec_process (x := x) hW hS
    rw [hexec'] at hexec
    cases hexec
    exact hruns

theorem wired_init (rcvbuf : Side → UInt32) : (init rcvbuf).Wired := by
  intro x
  refine ⟨⟨[], [], ?_⟩, ?_⟩
  · constructor
    · rfl
    · exact ⟨fun _ => rfl, fun h => by cases h⟩
    · exact fun f hf => absurd hf List.not_mem_nil
    · exact fun f hf => absurd hf List.not_mem_nil
    · exact fun f hf => absurd hf List.not_mem_nil
    · trivial
    · exact fun i hi => by cases hi
  · constructor
    · rfl
    · rfl
    · exact Nat.two_pow_pos 31
    · change 0 < 2 ^ 31 - 1
      omega
    · cases x <;> rfl
    · exact fun i hi => by cases hi
    · exact fun i st hi => by cases hi

theorem pipe_init (rcvbuf : Side → UInt32) (x : Side) (i : UInt32) :
    (init rcvbuf).pipe x i = .empty maxWindow := by
  obtain ⟨part, fs, hL⟩ := (wired_init rcvbuf x).1
  unfold pipe payload grants frames partFrame
  simp only [init, sessionInit, Session.buffered, Session.window, Session.credit, inFlight,
    if_true, Option.elim_none, List.append_nil, List.length_nil, List.drop_zero, ite_self]
  rfl

/-- Every reachable state is wired, and every pipe is sound. -/
theorem Reachable.sound {rcvbuf : Side → UInt32} (h : Reachable rcvbuf n) :
    n.Wired ∧ n.Sound := by
  induction h with
  | init =>
    refine ⟨wired_init rcvbuf, fun x i => ?_⟩
    rw [pipe_init]
    exact Pipe.sound_empty
  | step _ e he ih =>
    have hadv := (step_runs ih.1 ih.2 he).advance ih.1 ih.2
    exact ⟨hadv.wired, hadv.sound ih.2⟩

/-- Along a run every pipe moves by steps of its own. -/
theorem Reachable.pipes {rcvbuf : Side → UInt32} (h : Reachable rcvbuf n) (x : Side)
    (i : UInt32) : Pipe.Steps maxWindow (.empty maxWindow) (n.pipe x i) := by
  induction h with
  | init =>
    rw [pipe_init]
  | step h e he ih =>
    have hs := h.sound
    exact ih.trans (((step_runs hs.1 hs.2 he).advance hs.1 hs.2).pipes x i)

/-! ## Delivery -/

/-- End-to-end delivery: for every stream and direction, what the receiver's reads
have returned, what it has buffered and what is on the way is what the sender's
writes have accepted, in order. -/
theorem delivery {rcvbuf : Side → UInt32} {n : Net} (h : Reachable rcvbuf n) (x : Side)
    (id : UInt32) :
    (n x.peer).returned id ++ (n x.peer).session.buffered id ++ n.payload x id =
      (n x).accepted id :=
  (h.sound.2 x id).order.symm

/-- The client opens a stream and writes three bytes, of which the server reads two. -/
def exchange : List Event :=
  [.openStream .client 1, .write .client 1 [97, 98, 99], .send .client 64, .receive .server 64,
    .process .server, .acceptStream .server, .read .server 1 2]

/-- The state in which that exchange ends. -/
def exchanged : Net := ((init fun _ => 4096).run exchange).getD (init fun _ => 4096)

theorem reachable_exchanged : Reachable (fun _ => 4096) exchanged := by
  have hsome : ((init fun _ => 4096).run exchange).isSome := by decide +kernel
  obtain ⟨n, hn⟩ := Option.isSome_iff_exists.mp hsome
  rw [exchanged, hn]
  exact Reachable.init.run hn

theorem delivery_exchanged : (exchanged .server).returned 1 = [97, 98] ∧
    (exchanged .server).returned 1 ++ (exchanged .server).session.buffered 1 ++
      exchanged.payload .client 1 = (exchanged .client).accepted 1 :=
  ⟨by decide +kernel, delivery reachable_exchanged .client 1⟩

/-! ## Credit -/

/-- The states in which the loop of `session_process` starts a round are wired and
sound as well. -/
theorem passes_sound {s : Session} (hW : n.Wired) (hS : n.Sound)
    (h : (n x).session.Passes s) : (n.put x s).Wired ∧ (n.put x s).Sound := by
  induction h with
  | start =>
    rw [put_self]
    exact ⟨hW, hS⟩
  | next _ hr ih =>
    rcases does_round (x := x) ih.1 ih.2 with ⟨-, hround⟩ | ⟨t, hround, hruns⟩
    · rw [put_session, hr] at hround
      cases hround
    · rw [put_session, hr] at hround
      cases hround
      have hadv := hruns.advance ih.1 ih.2
      rw [put_put] at hadv
      exact ⟨hadv.wired, hadv.sound ih.2⟩

/-- A DATA header never announces more than the window of its stream. -/
theorem window_not_exceeded {st : Stream} (hW : n.Wired) (hS : n.Sound)
    (hn : (n x).session.newFrame = true) (hs : ¬ (n x).session.Starved)
    (htype : hdrType (n x).session.header.hdr = TYPE_DATA)
    (hst : (n x).session.streams (hdrStreamId (n x).session.header.hdr) = some st) :
    hdrLength (n x).session.header.hdr ≤ st.recvWindow := by
  obtain ⟨part, fs, hM⟩ := hW.incoming x
  obtain rfl := hM.position.new hn
  have hbytes := hM.bytes
  rw [List.nil_append, List.append_assoc] at hbytes
  obtain ⟨f, gs, rfl, htake, -⟩ := Frame.encode_eq_cons hbytes (hdrSize_le_of_not_starved hs hn)
  have hMs : Link x.peer (n x.peer) (n x.peer.peer) [] (f :: gs) := by rwa [Side.peer_peer]
  have hhdr : (n x).session.header.hdr = f.hdr := htake
  have hid : hdrStreamId (n x).session.header.hdr = f.id := by rw [hhdr, Frame.id]
  have hlen : hdrLength (n x).session.header.hdr = f.length := by rw [hhdr, Frame.length]
  have hdata : f.type = TYPE_DATA := by rw [Frame.type, ← hhdr, htype]
  rw [hid] at hst
  rw [hlen, UInt32.le_iff_toNat_le, ← Frame.length_payload hdata]
  have hroom := (hS x.peer f.id).queue_le
  rw [(pipe_receiver hst).2] at hroom
  simp only [pipe, payload_eq hMs, Side.peer_peer, Frame.payloadFor_cons, if_true,
    List.length_append] at hroom
  omega

/-- Credit conservation: for every stream present at both ends, the receive window
is the send window, the payload on the way, and the credit on the way back. So no
DATA header exceeds the window, no send window exceeds its maximum, and
`session_process` returns 0. -/
theorem credit_conserved {rcvbuf : Side → UInt32} {n : Net} (h : Reachable rcvbuf n) (x : Side) :
    (∀ id st st', (n x).session.streams id = some st →
      (n x.peer).session.streams id = some st' →
      st'.recvWindow.toNat =
        st.sendWindow.toNat + (n.payload x id).length + n.grants x.peer id) ∧
    (∀ s st, (n x).session.Passes s → s.newFrame = true → ¬ s.Starved →
      hdrType s.header.hdr = TYPE_DATA → s.streams (hdrStreamId s.header.hdr) = some st →
      hdrLength s.header.hdr ≤ st.recvWindow) ∧
    (∀ id st, (n x).session.streams id = some st → st.sendWindow.toNat ≤ 262144) ∧
    ∃ t, sessionProcess.exec (n x).session = (.ret 0, t) := by
  obtain ⟨hW, hS⟩ := h.sound
  refine ⟨?_, ?_, ?_, ?_⟩
  · intro id st st' hst hst'
    have hcredit := (hS x id).credit
    rw [pipe_sender hst] at hcredit
    simp only [pipe, window_some hst'] at hcredit
    exact hcredit
  · intro s st hp hn hs htype hst
    obtain ⟨hW', hS'⟩ := passes_sound hW hS hp
    have hput := put_session n x s
    have hwindow := @window_not_exceeded (n.put x s) x st hW' hS'
    rw [hput] at hwindow
    exact hwindow hn hs htype hst
  · intro id st hst
    have hcredit := (hS x id).credit_le
    rw [pipe_sender hst] at hcredit
    unfold maxWindow at hcredit
    omega
  · obtain ⟨t, hexec, -⟩ := exec_process (x := x) hW hS
    exact ⟨t, hexec⟩

theorem credit_conserved_exchanged :
    (exchanged .server).session.window 1 = 262141 ∧
      ∃ t, sessionProcess.exec (exchanged .client).session = (.ret 0, t) :=
  ⟨by decide +kernel, (credit_conserved reachable_exchanged .client).2.2.2⟩

/-! ## Progress -/

/-- Nothing is on the way in either direction. -/
def Quiescent (n : Net) : Prop :=
  ∀ x, (n x).session.sendBuf = [] ∧ (n x).wire = [] ∧ (n x).session.recvBuf = []

/-- No flow-control deadlock: when nothing is on the way and a send window is 0,
the receiver has more than 131072 bytes to read; and the credit that reads have
freed and nobody has granted again is always below that. -/
theorem no_deadlock {rcvbuf : Side → UInt32} {n : Net} (h : Reachable rcvbuf n) (x : Side)
    (id : UInt32) (st : Stream) (hst : (n x).session.streams id = some st) :
    (n.Quiescent → st.sendWindow = 0 → ∃ st', (n x.peer).session.streams id = some st' ∧
      131072 < st'.recvBuf.length) ∧
    262144 - st.recvBuf.length - st.recvWindow.toNat < 131072 := by
  obtain ⟨hW, hS⟩ := h.sound
  refine ⟨fun hq hz => ?_, ((hW x).2.streams id st hst).2⟩
  have hnone (y : Side) : n.inFlight y = [] := by
    simp only [inFlight, (hq y).1, (hq y).2.1, (hq y.peer).2.2, List.append_nil]
  have hempty (y : Side) {part : Bytes} {fs : List Frame}
      (hL : Link y (n y) (n y.peer) part fs) : part = [] ∧ fs = [] := by
    have hbytes : n.inFlight y = part ++ Frame.encode fs := hL.bytes
    rw [hnone, eq_comm, List.append_eq_nil_iff] at hbytes
    have hlen := Frame.length_le_encode fs
    rw [hbytes.2] at hlen
    exact ⟨hbytes.1, List.length_eq_zero_iff.mp (Nat.le_zero.mp hlen)⟩
  obtain ⟨part, fs, hL⟩ := (hW x).1
  obtain ⟨part', fs', hM⟩ := (hW x.peer).1
  obtain ⟨rfl, rfl⟩ := hempty x hL
  obtain ⟨rfl, rfl⟩ := hempty x.peer hM
  have hpeer : ((n x.peer).session.streams id).isSome := by
    rcases hL.announced id (by rw [hst]; rfl) with h | ⟨f, hf, -⟩
    · exact h
    · exact absurd hf List.not_mem_nil
  obtain ⟨st', hst'⟩ := Option.isSome_iff_exists.mp hpeer
  refine ⟨st', hst', ?_⟩
  have hwindow := (hS x id).stalled
  rw [pipe_sender hst, hz] at hwindow
  simp only [pipe, payload_eq hL, grants_eq hM, window_some hst', Frame.payloadFor_nil,
    Frame.grantFor_nil, ite_self, List.append_nil, UInt32.toNat_zero, true_implies] at hwindow
  have hgap := ((hW x.peer).2.streams id st' hst').2
  unfold Stream.gap maxWindow at hgap
  omega

/-- What the server holds back after the exchange is below half of the capacity. -/
theorem no_deadlock_exchanged : ∃ st, (exchanged .server).session.streams 1 = some st ∧
    262144 - st.recvBuf.length - st.recvWindow.toNat < 131072 := by
  have hsome : ((exchanged .server).session.streams 1).isSome := by decide +kernel
  obtain ⟨st, hst⟩ := Option.isSome_iff_exists.mp hsome
  exact ⟨st, hst, (no_deadlock reachable_exchanged .server 1 st hst).2⟩

end Net

end Yamux
