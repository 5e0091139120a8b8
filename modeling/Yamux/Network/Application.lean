import Yamux.Network.Sending

/-!
# Writing, reading and moving bytes advance a connection

A write is a send on the pipe that goes out, and a read is a take on the pipe that
comes in followed by a grant. Moving bytes from a send buffer to a channel, or
from a channel to a receive buffer, changes nothing that a pipe is made of.
-/

namespace Yamux

open Core Prog

/-! ## Pointers to streams that do not exist -/

theorem exec_onStream_none {α : Type} {ms : List Mutex} {id : UInt32} {g : Stream → α × Stream}
    {s : Session} (h : s.streams id = none) : (onStream ms id g).exec s = (.abort, s) := by
  simp [onStream, Prog.exec, h]

theorem exec_streamWrite_dead {s : Session} {id : UInt32} (h : s.streams id = none)
    (data : Bytes) : (streamWrite id data).exec s = (.abort, s) := by
  simp [streamWrite, readStream, exec_onStream_none h]

theorem exec_streamRead_dead {s : Session} {id : UInt32} (h : s.streams id = none)
    (size : Nat) : (streamRead id size).exec s = (.abort, s) := by
  simp [streamRead, streamReadClosed, readStream, exec_onStream_none h]

theorem Stream.Open.not_closed {st : Stream} (h : st.Open) :
    st.state ≠ .localClose ∧ st.state ≠ .remoteClose ∧ st.state ≠ .closed ∧
      st.state ≠ .reset ∧ st.state ≠ .init := by
  rcases h with h | h | h <;> rw [h] <;> simp

namespace Net

variable {n n' : Net} {x : Side} {id : UInt32} {st : Stream}

/-! ## Writing -/

theorem afterWrite_spec (st : Stream) (k : Nat) :
    (st.afterWrite k).recvBuf = st.recvBuf ∧ (st.afterWrite k).recvWindow = st.recvWindow ∧
      (st.afterWrite k).state = st.sendFlags.2.state ∧
      (st.afterWrite k).sendWindow = st.sendWindow - writeMax st.sendWindow k :=
  ⟨st.sendFlags_recvBuf, st.sendFlags_recvWindow, rfl, rfl⟩

/-- The frame of a write. -/
theorem writeFrame_eq (st : Stream) (id : UInt32) (data : Bytes) : ∃ f : Frame,
    Frame.encode [f] = st.writeFrame id data ∧ f.id = id ∧ f.type = TYPE_DATA ∧
      f.flags = st.sendFlags.1 ∧ hdrVersion f.hdr = VERSION ∧
      f.payload = data.take (writeMax st.sendWindow data.length).toNat := by
  have hle := writeMax_le st.sendWindow data.length
  have hlen : (data.take (writeMax st.sendWindow data.length).toNat).length =
      (writeMax st.sendWindow data.length).toNat := by
    rw [List.length_take]
    omega
  have hmax := (writeMax st.sendWindow data.length).toNat_lt
  refine ⟨Frame.data st.sendFlags.1 id (data.take (writeMax st.sendWindow data.length).toNat)
    (by rw [hlen]; exact hmax), ?_, hdrStreamId_hdrEncode _ _ _ _, rfl,
    hdrFlags_hdrEncode _ _ _ _, rfl, rfl⟩
  rw [Frame.encode_cons, Frame.encode_nil, List.append_nil]
  simp only [Frame.data, hlen, UInt32.ofNat_toNat]
  rfl

theorem does_write {data : Bytes} (hW : n.Wired) (hS : n.Sound)
    (h : n.step (.write x id data) = some n') : Does n n' := by
  have hs := (hW x).2
  simp only [step] at h
  obtain ⟨r, s, hexec, rfl⟩ := call_eq_some h
  cases hst : (n x).session.streams id with
  | none =>
    rw [exec_streamWrite_dead hst] at hexec
    cases hexec
  | some st =>
    obtain ⟨hopen, hgap⟩ := hs.streams id st hst
    obtain ⟨hlocal, -, hclosed, hreset, hinit⟩ := hopen.not_closed
    by_cases hw : st.sendWindow = 0
    · rw [exec_streamWrite_wait hst data ⟨hlocal, hclosed, hreset⟩ hw] at hexec
      cases hb : st.nonblock <;> rw [hb] at hexec <;> cases hexec
      have hnone : data.take (-1 : Int).toNat = [] := rfl
      simp only [hnone, record_nil]
      exact Does.unchanged hW
    · have hcredit : st.sendWindow.toNat ≤ maxWindow := by
        have := (hS x id).credit_le
        rw [pipe_sender hst] at this
        omega
      have hmax := writeMax_eq st.sendWindow data.length
      unfold maxWindow at hcredit
      rw [exec_streamWrite_data hst data ⟨hlocal, hclosed, hreset⟩ hw (by omega)] at hexec
      cases hexec
      obtain ⟨f, hf, hid, htype, hflags, hver, hpay⟩ := writeFrame_eq st id data
      obtain ⟨hbuf, hwin, hstate, hsend⟩ := afterWrite_spec st data.length
      obtain ⟨hfin, hrst, hsyn⟩ := sendFlags_legal st
      generalize hst' : st.afterWrite data.length = st' at hbuf hwin hstate hsend
      have hopen' : st'.Open := by
        rw [Stream.Open, hstate]
        exact sendFlags_open (.inl hopen)
      have hgap' : st'.gap < 131072 := by rwa [Stream.gap, hbuf, hwin]
      have hlen : f.payload.length = (writeMax st.sendWindow data.length).toNat := by
        rw [hpay, List.length_take]
        omega
      rw [Int.toNat_natCast, ← hpay]
      have hpresent : (((n x).session.setStream id st').queue (st.writeFrame id data)).streams id =
          some st' := (n x).session.setStream_same id st'
      refine @Does.emits n x _ id [f] ?_ ?_ ?_ ?_
      · constructor
        · rfl
        · rfl
        · rfl
        · rfl
        · rfl
        · rw [hf]
          rfl
        · rw [hpresent]
          rfl
        · exact .inl rfl
        · exact fun i hi => (n x).session.setStream_of_ne id st' hi
        · exact fun i hi => record_of_ne _ _ hi
        · exact fun i _ => rfl
        · exact fun g hg => (List.mem_singleton.mp hg) ▸ hid
        · intro g hg
          obtain rfl := List.mem_singleton.mp hg
          exact ⟨hver, .inl htype, hflags ▸ hfin, hflags ▸ hrst⟩
        · refine .inl ⟨by rw [hst]; rfl, fun g hg hg' => ?_, rfl⟩
          obtain rfl := List.mem_singleton.mp hg
          rw [Frame.Syn, hflags] at hg'
          exact hinit (hsyn.mp hg')
        · intro st'' hst''
          rw [hpresent] at hst''
          obtain rfl := Option.some.inj hst''
          rw [hst, Option.elim_some]
          refine .inl ⟨by rw [hstate, st.sendFlags_eq.2], fun g hg => ?_, (fun h => by cases h),
            Nat.le_refl 1⟩
          obtain rfl := List.mem_singleton.mp hg
          rw [hflags, st.sendFlags_eq.1]
      · exact hs.setStream hst rfl rfl rfl rfl rfl (fun _ => rfl) hopen' hgap'
      · -- the write is a send
        have hsend' := @Pipe.Step.send _ maxWindow (n.pipe x id) f.payload (by
          rw [pipe_sender hst]
          omega)
        have hcredit' : ((((n x).session.setStream id st').queue
            (st.writeFrame id data)).credit id) = st.sendWindow.toNat - f.payload.length := by
          rw [Session.credit_some hpresent, hsend, hlen, UInt32.toNat_sub_of_le]
          rw [UInt32.le_iff_toNat_le]
          omega
        simp only [hcredit', record_same, Frame.payloadFor_cons, if_pos hid, Frame.payloadFor_nil,
          List.append_nil]
        rw [pipe_sender hst] at hsend'
        exact .single hsend'
      · have hgrant : Frame.grantFor id [f] = 0 := by
          rw [Frame.grantFor_cons, Frame.grant_data htype]
          rfl
        obtain ⟨hb, hw'⟩ := pipe_receiver hst
        have hself : { n.pipe x.peer id with
            buf := (((n x).session.setStream id st').queue (st.writeFrame id data)).buffered id
            taken := (n x).returned id
            window := (((n x).session.setStream id st').queue (st.writeFrame id data)).window id
            grants := (n.pipe x.peer id).grants + Frame.grantFor id [f] } = n.pipe x.peer id := by
          rw [Session.buffered_some hpresent, Session.window_some hpresent,
            hbuf, hwin, hgrant, ← hb, ← hw']
          simp only [pipe, Side.peer_peer, Nat.add_zero]
        rw [hself]

/-! ## Reading -/

theorem does_read {size : Nat} (hW : n.Wired) (hS : n.Sound)
    (h : n.step (.read x id size) = some n') : Does n n' := by
  have hs := (hW x).2
  simp only [step] at h
  split at h
  · rename_i hsize
    obtain ⟨r, s, hexec, rfl⟩ := call_eq_some h
    cases hst : (n x).session.streams id with
    | none =>
      rw [exec_streamRead_dead hst] at hexec
      cases hexec
    | some st =>
      obtain ⟨hopen, hgap⟩ := hs.streams id st hst
      obtain ⟨hlocal, hremote, hclosed, hreset, hinit⟩ := hopen.not_closed
      have hbounded := hS.bounded hst
      by_cases he : st.recvBuf = []
      · rw [exec_streamRead_wait hst size he ⟨hlocal, hremote, hclosed, hreset⟩] at hexec
        cases hb : st.nonblock <;> rw [hb] at hexec <;> cases hexec
        simp only [List.take_nil, record_nil]
        exact Does.unchanged hW
      · have hlen : st.recvBuf.length < 2 ^ 31 := by
          unfold Stream.Bounded maxWindow at hbounded
          omega
        rw [exec_streamRead_data hst hsize he hlen hreset] at hexec
        cases hexec
        have hall : (st.recvBuf.take size).take
            ((st.recvBuf.take size).length : Int).toNat = st.recvBuf.take size := by
          rw [Int.toNat_natCast, List.take_length]
        simp only [hall]
        have hb' : (st.afterTake size).Bounded := by
          unfold Stream.Bounded at hbounded ⊢
          simp only [Stream.afterTake, List.length_drop]
          omega
        have hu := hb'.updated id
        have hstream := updateWindow_stream (n x).session id (st.afterTake size)
        have hstate : (st.afterTake size).state = st.state := rfl
        have hbuf : (n x).session.buffered id = st.recvBuf := Session.buffered_some hst
        refine @Does.emits n x _ id ((st.afterTake size).updateFrames id) ?_ ?_ ?_ ?_
        · exact emits_update ⟨rfl, rfl, rfl, rfl, rfl, .inl rfl, rfl⟩ rfl rfl rfl
            (fun i hi => record_of_ne _ _ hi) hb' (.inl ⟨st, hst, rfl, hinit, rfl⟩)
        · exact hs.setStream hst rfl rfl rfl rfl rfl (fun _ => rfl) (hu.open (.inl hopen)) hu.gap
        · have hself : { n.pipe x id with
              sent := (n x).accepted id
              queue := (n.pipe x id).queue ++
                Frame.payloadFor id ((st.afterTake size).updateFrames id)
              credit := ((n x).session.updateWindow id (st.afterTake size)).credit id } =
              n.pipe x id := by
            rw [payloadFor_updateFrames, List.append_nil, Session.credit_some hstream,
              hu.sendWindow]
            change { n.pipe x id with credit := st.sendWindow.toNat } = _
            rw [← pipe_sender hst]
          rw [hself]
        · -- the read is a take and a grant
          have htake := @Pipe.Step.take _ maxWindow (n.pipe x.peer id) size
          refine .head htake ?_
          have hroom := hu.room
          obtain ⟨hb, hw⟩ := pipe_receiver hst
          have hwin : (st.afterTake size).recvWindow.toNat = (n.pipe x.peer id).window := hw.symm
          have hdrop : (st.afterTake size).recvBuf = (n.pipe x.peer id).buf.drop size := by
            rw [hb]
            rfl
          rw [hwin, hdrop] at hroom
          have hgrant := @Pipe.Step.grant _ maxWindow { n.pipe x.peer id with
            buf := (n.pipe x.peer id).buf.drop size
            taken := (n.pipe x.peer id).taken ++ (n.pipe x.peer id).buf.take size }
            (Frame.grantFor id ((st.afterTake size).updateFrames id)) hroom
          have htaken : (n.pipe x.peer id).taken = (n x).returned id := by
            simp only [pipe, Side.peer_peer]
          rw [Session.buffered_some hstream, Session.window_some hstream, hu.recvBuf, hu.window,
            hwin, hdrop]
          simp only [record_same, ← htaken, ← hb]
          exact .single hgrant
  · cases h

/-! ## Descriptors and channels -/

theorem does_setNonblock {b : Bool} (hW : n.Wired)
    (h : n.step (.setNonblock x id b) = some n') : Does n n' := by
  have hs := (hW x).2
  simp only [step] at h
  obtain ⟨r, s, hexec, rfl⟩ := call_eq_some h
  cases hst : (n x).session.streams id with
  | none =>
    rw [modifyStream, exec_onStream_none hst] at hexec
    cases hexec
  | some st =>
    rw [exec_modifyStream hst] at hexec
    cases hexec
    obtain ⟨hopen, hgap⟩ := hs.streams id st hst
    have hpresent := (n x).session.setStream_same id { st with nonblock := b }
    obtain ⟨hb, hw⟩ := pipe_receiver hst
    refine @Does.emits n x _ id [] ?_ ?_ ?_ ?_
    · constructor
      · rfl
      · rfl
      · rfl
      · rfl
      · rfl
      · rw [Frame.encode_nil, List.append_nil]
        rfl
      · rw [hpresent]
        rfl
      · exact .inl rfl
      · exact fun i hi => (n x).session.setStream_of_ne id _ hi
      · exact fun i _ => rfl
      · exact fun i _ => rfl
      · exact fun f hf => absurd hf List.not_mem_nil
      · exact fun f hf => absurd hf List.not_mem_nil
      · exact .inl ⟨by rw [hst]; rfl, fun f hf => absurd hf List.not_mem_nil, rfl⟩
      · intro st' hst'
        rw [hpresent] at hst'
        obtain rfl := Option.some.inj hst'
        exact .inr ⟨rfl, rfl, st, hst, rfl⟩
    · exact hs.setStream hst rfl rfl rfl rfl rfl (fun _ => rfl) hopen hgap
    · rw [Session.credit_some hpresent, Frame.payloadFor_nil, List.append_nil, ← pipe_sender hst]
      exact .refl
    · rw [Session.buffered_some hpresent, Session.window_some hpresent, Frame.grantFor_nil,
        Nat.add_zero, ← hb, ← hw]
      have htaken : (n x).returned id = (n.pipe x.peer id).taken := by
        simp only [pipe, Side.peer_peer]
      rw [htaken]

end Net

end Yamux
