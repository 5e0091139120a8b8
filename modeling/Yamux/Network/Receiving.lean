import Yamux.Network.Application

/-!
# Receiving advances a connection

A round of the receive loop takes the header of the next frame, which moves
nothing but credit, and then as much of its payload as has arrived. A frame of an
honest peer never fails: its stream is known or declared by it, its flags are
legal, and its payload fits the window because the pipe is sound.
-/

namespace Yamux

open Core Prog Session

/-! ## The header of a frame -/

section Header

variable {s t : Session} {id len : UInt32} {flags : UInt16} {st st' : Stream}

namespace Session

theorem Puts.refl (h : s.streams id = some st) : Puts s s id st := by
  refine ⟨rfl, rfl, rfl, rfl, rfl, rfl, ?_, fun i => by rw [setStream_eq_self h]⟩
  rw [h, Option.isSome_some, if_pos rfl]

theorem Puts.same (h : Puts s t id st) : t.streams id = some st := by
  rw [h.streams, setStream_same]

theorem Puts.setStream (h : Puts s t id st) (st' : Stream) :
    Puts s (t.setStream id st') id st' where
  remoteGoAway := h.remoteGoAway
  localGoAway := h.localGoAway
  nextId := h.nextId
  recvBuf := h.recvBuf
  sendBuf := h.sendBuf
  hdr := h.hdr
  accepts := h.accepts
  streams i := by
    simp only [setStream_streams, h.streams]
    split
    · rfl
    · rfl

theorem Puts.beginFrame (h : Puts s t id st) (len : UInt32) :
    Puts s (t.beginFrame len) id st :=
  ⟨h.remoteGoAway, h.localGoAway, h.nextId, h.recvBuf, h.sendBuf, h.hdr, h.accepts, h.streams⟩

/-- An open stream, or one that a frame declares. -/
def Declared (s : Session) (id : UInt32) (st : Stream) : Prop :=
  (s.streams id = some st ∧ st.Open) ∨
    (s.streams id = none ∧ st = Stream.fresh .synReceived s.rcvbuf)

theorem Declared.takes (h : s.Declared id st) : Takes s id 0 0 st := by
  have hack (state : StreamState) : state = state.afterAck 0 := rfl
  rcases h with ⟨h, hopen⟩ | ⟨h, rfl⟩
  · refine ⟨hopen, ?_, (buffered_some h).symm, (window_some h).symm, (credit_some h).symm⟩
    rw [h, Option.elim_some]
    exact hack st.state
  · have hw : maxWindow = s.window id := by rw [window, h, Option.elim_none]
    have hc : maxWindow = s.credit id := by rw [credit, h, Option.elim_none]
    refine ⟨.inr (.inl rfl), ?_, ?_, toNat_maxWindow.trans hw, toNat_maxWindow.trans hc⟩
    · rw [h, Option.elim_none]
      exact hack .synReceived
    · rw [buffered, h, Option.elim_none]
      rfl

end Session

/-- The SYN flag of a frame declares a stream that is new. -/
theorem syn_declared (hid : hdrStreamId s.hdr = id) (hlocal : s.localGoAway = false)
    (hsyn : hasFlag (hdrFlags s.hdr) FLAG_SYN = true ↔ ¬ (s.streams id).isSome)
    (hopen : ∀ st, s.streams id = some st → st.Open) :
    ∃ st, s.syn.1 = 0 ∧ Puts s s.syn.2 id st ∧ s.Declared id st := by
  have hstay : ¬ s.localGoAway = true := by
    rw [hlocal]
    exact Bool.false_ne_true
  unfold syn
  dsimp only
  rw [hid]
  cases hst : s.streams id with
  | none =>
    have hnone : ¬ (none : Option Stream).isSome = true := Bool.false_ne_true
    have hf : hasFlag (hdrFlags s.hdr) FLAG_SYN = true := hsyn.mpr (by rwa [hst])
    rw [if_pos hf, if_neg hstay, if_neg hnone]
    refine ⟨Stream.fresh .synReceived s.rcvbuf, rfl, ?_, .inr ⟨hst, rfl⟩⟩
    refine ⟨rfl, rfl, rfl, rfl, rfl, rfl, ?_, fun _ => rfl⟩
    rw [hst, if_neg hnone]
    rfl
  | some st =>
    have hf : ¬ hasFlag (hdrFlags s.hdr) FLAG_SYN = true :=
      fun h => hsyn.mp h (by rw [hst]; rfl)
    rw [if_neg hf]
    exact ⟨st, rfl, .refl hst, .inl ⟨hst, hopen st hst⟩⟩

/-- Flags without FIN and RST are legal. -/
theorem processFlags_ack (hfin : hasFlag flags FLAG_FIN = false)
    (hrst : hasFlag flags FLAG_RST = false) (st : Stream) :
    st.processFlags flags = some (st.processAck flags) := by
  simp only [Stream.processFlags, Stream.processFin, hfin, Bool.false_eq_true, if_false,
    Option.map_some, Stream.processRst, hrst]

theorem Session.Takes.processAck {grant : Nat} (h : s.Takes id 0 grant st) (flags : UInt16) :
    s.Takes id flags grant (st.processAck flags) := by
  have hstate : (st.processAck flags).state =
      ((s.streams id).elim .synReceived Stream.state).afterAck flags := by
    rw [st.processAck_state, h.state]
    rfl
  unfold Stream.processAck at hstate ⊢
  split at hstate
  · rw [if_pos ‹_›]
    exact ⟨.inr (.inr rfl), hstate, h.recvBuf, h.window, h.credit⟩
  · rw [if_neg ‹_›]
    exact ⟨h.isOpen, hstate, h.recvBuf, h.window, h.credit⟩

/-- A DATA header that its stream has room for. -/
theorem handle_data (hn : s.newFrame = true) (htype : hdrType s.hdr = TYPE_DATA)
    (hid : hdrStreamId s.hdr = id) (hlen : hdrLength s.hdr = len)
    (hfin : hasFlag (hdrFlags s.hdr) FLAG_FIN = false)
    (hrst : hasFlag (hdrFlags s.hdr) FLAG_RST = false) (hlocal : s.localGoAway = false)
    (hsyn : hasFlag (hdrFlags s.hdr) FLAG_SYN = true ↔ ¬ (s.streams id).isSome)
    (hopen : ∀ st, s.streams id = some st → st.Open) (hroom : len.toNat ≤ s.window id) :
    ∃ t st, Puts s t id st ∧ Takes s id (hdrFlags s.hdr) 0 st ∧
      ((len = 0 ∧ s.handle = .done 0 t ∧ t.newFrame = true) ∨
        (len ≠ 0 ∧ s.handle = .payload t ∧ t.newFrame = false ∧ t.frameRemain = len)) := by
  obtain ⟨st, hzero, hputs, hdecl⟩ := syn_declared hid hlocal hsyn hopen
  have hnz : ¬ s.syn.1 ≠ 0 := not_not_intro hzero
  have hid' : hdrStreamId s.syn.2.hdr = id := by rw [syn_hdr, hid]
  have htakes := hdecl.takes.processAck (hdrFlags s.hdr)
  have hflagged := processFlags_ack hfin hrst st
  generalize st.processAck (hdrFlags s.hdr) = st' at htakes hflagged
  have hhandle : s.handle = s.syn.2.admitData len st' := by
    rw [handle, if_pos htype, handleData, if_pos hn, if_neg hnz, dataHeader, hid', hputs.same]
    dsimp only
    rw [syn_hdr, hflagged, hlen]
  by_cases hz : len = 0
  · refine ⟨s.syn.2.setStream id st', st', hputs.setStream st', htakes, .inl ⟨hz, ?_, ?_⟩⟩
    · rw [hhandle, admitData, if_pos hz, hid']
    · rw [setStream_newFrame, syn_newFrame, hn]
  · have hfits : ¬ st'.recvWindow < len := by
      rw [UInt32.lt_iff_toNat_lt, htakes.window]
      omega
    refine ⟨(s.syn.2.setStream id st').beginFrame len, st', (hputs.setStream st').beginFrame len,
      htakes, .inr ⟨hz, ?_, rfl, rfl⟩⟩
    rw [hhandle, admitData, if_neg hz, if_neg hfits, hid']

/-- A WINDOW_UPDATE header whose credit does not overflow. -/
theorem handle_update (hn : s.newFrame = true) (htype : hdrType s.hdr = TYPE_WINDOW_UPDATE)
    (hid : hdrStreamId s.hdr = id) (hlen : hdrLength s.hdr = len)
    (hfin : hasFlag (hdrFlags s.hdr) FLAG_FIN = false)
    (hrst : hasFlag (hdrFlags s.hdr) FLAG_RST = false) (hlocal : s.localGoAway = false)
    (hsyn : hasFlag (hdrFlags s.hdr) FLAG_SYN = true ↔ ¬ (s.streams id).isSome)
    (hopen : ∀ st, s.streams id = some st → st.Open)
    (hcredit : s.credit id + len.toNat ≤ maxWindow) :
    ∃ t st, Puts s t id st ∧ Takes s id (hdrFlags s.hdr) len.toNat st ∧
      s.handle = .done 0 t ∧ t.newFrame = true := by
  obtain ⟨st, hzero, hputs, hdecl⟩ := syn_declared hid hlocal hsyn hopen
  have hnz : ¬ s.syn.1 ≠ 0 := not_not_intro hzero
  have hnotdata : ¬ hdrType s.hdr = TYPE_DATA := by
    rw [htype]
    decide
  have hid' : hdrStreamId s.syn.2.hdr = id := by rw [syn_hdr, hid]
  have htakes := hdecl.takes.processAck (hdrFlags s.hdr)
  have hflagged := processFlags_ack hfin hrst st
  generalize st.processAck (hdrFlags s.hdr) = st' at htakes hflagged
  have hhandle : s.handle = .done 0 (s.syn.2.addCredit id len st') := by
    rw [handle, if_neg hnotdata, if_pos htype, handleUpdate, if_neg hnz, updateHeader, hid',
      hputs.same]
    dsimp only
    rw [syn_hdr, hflagged, hlen]
  obtain ⟨hst', hstate, hbuf, hwin, hcred⟩ := htakes
  have hsum : (st'.sendWindow + len).toNat = s.credit id + len.toNat := by
    rw [UInt32.toNat_add, hcred, Nat.add_zero, Nat.mod_eq_of_lt]
    unfold maxWindow at hcredit
    omega
  refine ⟨_, _, hputs.setStream _, ?_, hhandle, ?_⟩
  · by_cases hz : len = 0
    · rw [if_pos hz]
      refine ⟨hst', hstate, hbuf, hwin, ?_⟩
      rw [hcred, hz, UInt32.toNat_zero]
    · rw [if_neg hz]
      exact ⟨hst', hstate, hbuf, hwin, hsum⟩
  · rw [setStream_newFrame, syn_newFrame, hn]

/-- The handler of an honest frame takes the header, and goes on to the payload if
there is one. -/
theorem handle_frame {f : Frame} (hn : s.newFrame = true) (hhdr : s.hdr = f.hdr)
    (hf : f.Honest) (hlocal : s.localGoAway = false)
    (hsyn : f.Syn ↔ ¬ (s.streams f.id).isSome)
    (hopen : ∀ st, s.streams f.id = some st → st.Open)
    (hroom : f.payload.length ≤ s.window f.id)
    (hcredit : s.credit f.id + Frame.grant f.id f ≤ maxWindow) :
    ∃ t st, Puts s t f.id st ∧ Takes s f.id f.flags (Frame.grant f.id f) st ∧
      ((f.payload = [] ∧ s.handle = .done 0 t ∧ t.newFrame = true) ∨
        (f.payload ≠ [] ∧ s.handle = .payload t ∧ t.newFrame = false ∧
          t.frameRemain.toNat = f.payload.length)) := by
  have hid : hdrStreamId s.hdr = f.id := by rw [hhdr, Frame.id]
  have hlen : hdrLength s.hdr = f.length := by rw [hhdr, Frame.length]
  have hflags : hdrFlags s.hdr = f.flags := by rw [hhdr, Frame.flags]
  have htype : hdrType s.hdr = f.type := by rw [hhdr, Frame.type]
  have hfin := hf.fin
  have hrst := hf.rst
  rw [Frame.Syn] at hsyn
  rw [← hflags] at hfin hrst hsyn
  rcases hf.type with hdata | hupdate
  · have hgrant : Frame.grant f.id f = 0 := Frame.grant_data hdata f.id
    have hpay := Frame.length_payload hdata
    obtain ⟨t, st, hputs, htakes, hend⟩ := handle_data hn (htype.trans hdata) hid hlen hfin hrst
      hlocal hsyn hopen (by rw [← hpay]; exact hroom)
    rw [hflags] at htakes
    rw [hgrant]
    refine ⟨t, st, hputs, htakes, ?_⟩
    rcases hend with ⟨hz, hhandle, hnew⟩ | ⟨hz, hhandle, hnew, hremain⟩
    · refine .inl ⟨?_, hhandle, hnew⟩
      rw [← List.length_eq_zero_iff, hpay, hz, UInt32.toNat_zero]
    · refine .inr ⟨?_, hhandle, hnew, by rw [hremain, hpay]⟩
      intro h
      rw [h, List.length_nil] at hpay
      exact hz (UInt32.toNat_inj.mp hpay.symm)
  · have hgrant := Frame.grant_update hupdate
    have hnot : f.type ≠ TYPE_DATA := by
      rw [hupdate]
      decide
    rw [hgrant] at hcredit ⊢
    obtain ⟨t, st, hputs, htakes, hhandle, hnew⟩ := handle_update hn (htype.trans hupdate) hid
      hlen hfin hrst hlocal hsyn hopen hcredit
    rw [hflags] at htakes
    exact ⟨t, st, hputs, htakes, .inl ⟨Frame.payload_eq_nil hnot, hhandle, hnew⟩⟩

end Header

namespace Net

variable {n : Net} {x : Side}

/-- The header of the next frame. -/
theorem does_header (hW : n.Wired) (hS : n.Sound) (hn : (n x).session.newFrame = true)
    (hs : ¬ (n x).session.Starved) : ∃ t, Does n (n.put x t) ∧
      ((n x).session.front = some (.done 0 t) ∨ (n x).session.front = some (.payload t)) := by
  obtain ⟨part, fs, hM⟩ := hW.incoming x
  have hst := (hW x).2
  obtain rfl := hM.position.new hn
  have hle := hdrSize_le_of_not_starved hs hn
  have hbytes := hM.bytes
  rw [List.nil_append, List.append_assoc] at hbytes
  obtain ⟨f, gs, rfl, htake, -⟩ := Frame.encode_eq_cons hbytes hle
  have hf := hM.honest f List.mem_cons_self
  -- the pipe from the peer has room for the payload, the pipe to it for the credit
  have hMs : Link x.peer (n x.peer) (n x.peer.peer) [] (f :: gs) := by rwa [Side.peer_peer]
  have hroom : f.payload.length ≤ (n x).session.window f.id := by
    have := (hS x.peer f.id).queue_le
    simp only [pipe, payload_eq hMs, Side.peer_peer, Frame.payloadFor_cons, if_true,
      List.length_append] at this
    omega
  have hcredit : (n x).session.credit f.id + Frame.grant f.id f ≤ maxWindow := by
    have := (hS x f.id).credit_le
    simp only [pipe, grants_eq hMs, Frame.grantFor_cons] at this
    omega
  obtain ⟨t, st, hputs, htakes, hend⟩ := handle_frame (s := (n x).session.header) (f := f) hn
    htake hf hst.localGoAway hM.ordered.1 (fun st h => (hst.streams f.id st h).1) hroom hcredit
  have hver : hdrVersion (n x).session.header.hdr = VERSION := by
    change hdrVersion ((n x).session.recvBuf.take hdrSize) = VERSION
    rw [htake]
    exact hf.version
  have hfront := front_new hs hn
  rw [if_pos hver] at hfront
  have h : (n x).session.Absorbs t f st := by
    have hhdr : t.hdr = f.hdr := hputs.hdr.trans htake
    refine ⟨hputs, ⟨htakes.isOpen, htakes.state, htakes.recvBuf, htakes.window, htakes.credit⟩,
      hhdr, ?_⟩
    rcases hend with ⟨hnil, -, hnew⟩ | ⟨hne, hpay, hnew, hremain⟩
    · refine ⟨fun _ => hnil, fun h => ?_⟩
      rw [hnew] at h
      cases h
    · refine ⟨fun h => ?_, fun _ => ?_⟩
      · rw [hnew] at h
        cases h
      · obtain ⟨-, htype, hheader, -⟩ := handle_payload hpay
        have hid : hdrStreamId t.hdr = f.id := by rw [hhdr, Frame.id]
        refine ⟨by rw [hheader, htype], hne, hremain, ?_⟩
        rw [hid, hputs.same]
        rfl
  refine ⟨t, .header hM hle h, ?_⟩
  rcases hend with ⟨-, h, -⟩ | ⟨-, h, -⟩
  · exact .inl (hfront.trans (congrArg some h))
  · exact .inr (hfront.trans (congrArg some h))

/-! ## Payloads and rounds -/

/-- A round goes on, or stops to wait for more input; it never fails. -/
theorem does_round (hW : n.Wired) (hS : n.Sound) :
    ((n x).session.Starved ∧ (n x).session.round = (some 0, (n x).session)) ∨
    (∃ t, (n x).session.round = (none, t) ∧ Runs n (n.put x t)) := by
  by_cases hs : (n x).session.Starved
  · exact .inl ⟨hs, round_starved hs⟩
  · right
    cases hn : (n x).session.newFrame with
    | true =>
      obtain ⟨t, hdoes, hfront | hfront⟩ := does_header hW hS hn hs
      · exact ⟨t, by rw [round_some hfront]; rfl, .single hdoes⟩
      · refine ⟨t.payload, by rw [round_some hfront]; rfl, ?_⟩
        have hmid : (n.put x t x).session.newFrame = false := by
          rw [put_session]
          exact (front_payload hfront).1
        have hpay := Does.payload hmid
        rw [put_session, put_put] at hpay
        exact .tail (.single hdoes) hpay
    | false =>
      obtain ⟨part, fs, hM⟩ := hW.incoming x
      have htype := (hM.position.mid hn).1
      have hfront : (n x).session.front = some (.payload (n x).session) := by
        rw [front_mid hs hn, handle, if_pos htype, handleData, hn, if_neg Bool.false_ne_true]
      exact ⟨_, by rw [round_some hfront]; rfl, .single (.payload hn)⟩

theorem Wired.rxOk (hW : n.Wired) (x : Side) : (n x).session.RxOk := by
  intro hn
  obtain ⟨part, fs, hM⟩ := hW.incoming x
  obtain ⟨htype, hne, hremain, -⟩ := hM.position.mid hn
  refine ⟨htype, fun hz => hne ?_⟩
  rw [← List.length_eq_zero_iff, ← hremain, hz, UInt32.toNat_zero]

/-- A call of `session_process` is a run of the connection and succeeds. -/
theorem does_processes {r : Int} {s t : Session} (h : Processes s r t) :
    ∀ {n : Net}, (n x).session = s → n.Wired → n.Sound → r = 0 ∧ Runs n (n.put x t) := by
  induction h with
  | @exit s t r hr =>
    intro n hs hW hS
    subst hs
    rcases does_round (x := x) hW hS with ⟨-, hround⟩ | ⟨u, hround, -⟩
    · rw [hround] at hr
      cases hr
      rw [put_self]
      exact ⟨rfl, .refl⟩
    · rw [hround] at hr
      cases hr
  | @next s t u r hr _ ih =>
    intro n hs hW hS
    subst hs
    rcases does_round (x := x) hW hS with ⟨-, hround⟩ | ⟨v, hround, hruns⟩
    · rw [hround] at hr
      cases hr
    · rw [hround] at hr
      cases hr
      have hadv := hruns.advance hW hS
      obtain ⟨hz, hruns'⟩ := ih (put_session n x t) hadv.wired (hadv.sound hS)
      rw [put_put] at hruns'
      exact ⟨hz, hruns.trans hruns'⟩

/-- In a wired connection `session_process` returns 0. -/
theorem exec_process (hW : n.Wired) (hS : n.Sound) :
    ∃ t, sessionProcess.exec (n x).session = (.ret 0, t) ∧ Runs n (n.put x t) := by
  obtain ⟨r, t, hexec, hp⟩ := exec_sessionProcess (hW.rxOk x) (hW x).2.small
  obtain ⟨rfl, hruns⟩ := does_processes (x := x) hp rfl hW hS
  exact ⟨t, hexec, hruns⟩

end Net

end Yamux
