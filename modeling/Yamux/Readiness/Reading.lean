import Yamux.Readiness.Calls
import Yamux.Sequential.Window

/-!
# The readable mark

The mark is to tell whether `stream_read` has something to return. The receive path
sets it for data, FIN and RST; reading the last byte clears it, also where the end of
the stream is still to be seen.
-/

namespace Yamux

open Core Prog

/-- What `stream_read` returns at once for: data, the end of the stream, or a reset. -/
def Stream.ReadReady (st : Stream) : Prop :=
  st.recvBuf ≠ [] ∨ st.state = .remoteClose ∨ st.state = .closed ∨ st.state = .reset

/-- The mark is right, and the buffer keeps to its capacity. Nothing in the source
closes the local side. -/
structure Stream.ReadSound (st : Stream) : Prop where
  mark : st.readable = true ↔ st.ReadReady
  bounded : st.Bounded
  localOpen : st.state ≠ .localClose

/-- Every stream is sound, and the frame in progress fits the window of its stream. -/
structure Session.ReadSound (s : Session) : Prop where
  streams : ∀ id st, s.streams id = some st → st.ReadSound
  frame : s.newFrame = false → ∀ st, s.streams (hdrStreamId s.hdr) = some st →
    s.frameRemain.toNat ≤ st.recvWindow.toNat

/-- The condition on a call: no read takes the last bytes of a stream that the peer
has closed. -/
def Api.KeepsEof (_ : Answers Call) (s : Session) : Api → Prop
  | .read id size => ∀ st, s.streams id = some st → st.state = .remoteClose ∨ st.state = .closed →
      st.recvBuf = [] ∨ size < st.recvBuf.length
  | _ => True

namespace Stream.ReadSound

variable {st : Stream}

theorem fresh (padding : UInt32) {state : StreamState} (h : state = .init ∨ state = .synReceived) :
    (Stream.fresh state padding).ReadSound := by
  refine ⟨?_, ?_, ?_⟩
  · rcases h with rfl | rfl <;> simp [Stream.fresh, ReadReady]
  · simp [Bounded, Stream.fresh, toNat_maxWindow]
  · rcases h with rfl | rfl <;> simp [Stream.fresh]

/-- A change of the state between states that stay open. -/
theorem reopen (h : st.ReadSound) {state : StreamState}
    (hfrom : st.state ≠ .remoteClose ∧ st.state ≠ .closed ∧ st.state ≠ .reset)
    (hto : state = .synSent ∨ state = .established) :
    ({ st with state := state } : Stream).ReadSound := by
  refine ⟨h.mark.trans ?_, h.bounded, ?_⟩
  · obtain ⟨h₁, h₂, h₃⟩ := hfrom
    unfold ReadReady
    rcases hto with rfl | rfl <;> simp [h₁, h₂, h₃]
  · rcases hto with rfl | rfl <;> simp

theorem sendFlags (h : st.ReadSound) : st.sendFlags.2.ReadSound := by
  unfold Stream.sendFlags
  cases hst : st.state with
  | init => exact h.reopen (by simp [hst]) (.inl rfl)
  | synReceived => exact h.reopen (by simp [hst]) (.inr rfl)
  | synSent | established | localClose | remoteClose | closed | reset => exact h

theorem processAck (h : st.ReadSound) (flags : UInt16) : (st.processAck flags).ReadSound := by
  unfold Stream.processAck
  split
  · rename_i hc
    exact h.reopen (by simp [hc.2]) (.inr rfl)
  · exact h

theorem closeTo (h : st.ReadSound) {state : StreamState} (mem : Bool)
    (hto : state = .remoteClose ∨ state = .closed ∨ state = .reset) :
    (st.closeTo state mem).ReadSound := by
  refine ⟨iff_of_true rfl (.inr hto), h.bounded, ?_⟩
  rcases hto with rfl | rfl | rfl <;> simp [Stream.closeTo]

theorem finWith (h : st.ReadSound) {flags : UInt16} {mem : Bool} {st' : Stream}
    (hf : st.finWith flags mem = some st') : st'.ReadSound := by
  unfold Stream.finWith at hf
  split at hf
  · cases hst : st.state with
    | synSent | synReceived | established =>
      rw [hst] at hf
      obtain rfl := Option.some.inj hf
      exact h.closeTo mem (.inl rfl)
    | localClose => exact absurd hst h.localOpen
    | init | remoteClose | closed | reset =>
      rw [hst] at hf
      cases hf
  · obtain rfl := Option.some.inj hf
    exact h

theorem rstWith (h : st.ReadSound) (flags : UInt16) (mem : Bool) :
    (st.rstWith flags mem).ReadSound := by
  unfold Stream.rstWith
  split
  · exact h.closeTo mem (.inr (.inr rfl))
  · exact h

/-- A change of the writing side. -/
theorem writing (h : st.ReadSound) (window : UInt32) (mark : Bool) :
    ({ st with sendWindow := window, writeable := mark } : Stream).ReadSound :=
  ⟨h.mark, h.bounded, h.localOpen⟩

/-- Credit is granted within the capacity. -/
theorem grant (h : st.ReadSound) (flags : UInt16) :
    (st.grant flags).2.ReadSound ∧ st.recvWindow.toNat ≤ (st.grant flags).2.recvWindow.toNat := by
  have hb := h.bounded
  rcases Stream.grant_cases hb flags with ⟨hg, -, -⟩ | ⟨window, hg, hwindow⟩
  · rw [hg]
    exact ⟨h, le_rfl⟩
  · rw [hg]
    unfold Bounded at hb
    unfold gap at hwindow
    refine ⟨⟨h.mark, ?_, h.localOpen⟩, ?_⟩
    · change st.recvBuf.length + window.toNat ≤ maxWindow
      omega
    · change st.recvWindow.toNat ≤ window.toNat
      omega

end Stream.ReadSound

namespace Session.ReadSound

variable {s t : Session} {id : UInt32} {st st' : Stream}

theorem init (client : Bool) (rcvbuf : UInt32) : (sessionInit client rcvbuf).ReadSound := by
  refine ⟨fun id st hst => ?_, fun hn => ?_⟩
  · simp [sessionInit] at hst
  · simp [sessionInit] at hn

theorem beside (s t : Session) (hb : Beside s t) (h : s.ReadSound) : t.ReadSound := by
  refine ⟨fun id st hst => h.streams id st (hb.streams ▸ hst), fun hn st hst => ?_⟩
  rw [hb.frameRemain]
  rw [hb.streams, hb.hdr] at hst
  exact h.frame (hb.newFrame ▸ hn) st hst

/-- A stream is replaced by a sound one with at least the same window. -/
theorem setStream (h : s.ReadSound) (hst : s.streams id = some st) (hst' : st'.ReadSound)
    (hw : st.recvWindow.toNat ≤ st'.recvWindow.toNat) : (s.setStream id st').ReadSound := by
  refine ⟨fun i st₁ h₁ => ?_, fun hn st₁ h₁ => ?_⟩
  · rw [setStream_streams] at h₁
    split at h₁
    · obtain rfl := Option.some.inj h₁
      exact hst'
    · exact h.streams i st₁ h₁
  · change (s.setStream id st').streams (hdrStreamId s.hdr) = some st₁ at h₁
    change s.frameRemain.toNat ≤ _
    rw [setStream_streams] at h₁
    split at h₁
    · rename_i hid
      obtain rfl := Option.some.inj h₁
      exact (h.frame hn st (hid ▸ hst)).trans hw
    · exact h.frame hn st₁ h₁

/-- A new stream between two frames. -/
theorem insert (h : s.ReadSound) (hn : s.newFrame = true) (hst' : st'.ReadSound) :
    (s.setStream id st').ReadSound := by
  refine ⟨fun i st₁ h₁ => ?_, fun hf => ?_⟩
  · rw [setStream_streams] at h₁
    split at h₁
    · obtain rfl := Option.some.inj h₁
      exact hst'
    · exact h.streams i st₁ h₁
  · rw [setStream_newFrame, hn] at hf
    cases hf

end Session.ReadSound

/-! ## Operations of the application -/

section Calls

variable {α : Type} {ans : Answers Call} {s : Session} {id : UInt32}

/-- Work on one stream that keeps it sound. -/
theorem reads_onStream {ms : List Mutex} {g : Stream → α × Stream} (h : s.ReadSound)
    (hg : ∀ st : Stream, st.ReadSound →
      (g st).2.ReadSound ∧ st.recvWindow.toNat ≤ (g st).2.recvWindow.toNat) :
    Ends socketsOk (fun _ _ t => t.ReadSound) (onStream ms id g) ans s :=
  ends_onStream fun st hst =>
    h.setStream hst (hg st (h.streams id st hst)).1 (hg st (h.streams id st hst)).2

theorem reads_beside {p : Op α} (hp : Acts socketsOk Beside p) (h : s.ReadSound) :
    Ends socketsOk (fun _ _ t => t.ReadSound) p ans s :=
  ends_beside Session.ReadSound.beside hp h

theorem reads_sendWindowUpdate (h : s.ReadSound) :
    Ends socketsOk (fun _ _ t => t.ReadSound) (sendWindowUpdate id) ans s := by
  refine (reads_onStream h fun st hst => ⟨hst.sendFlags, ?_⟩).bind fun flags ans₁ t ht => ?_
  · rw [st.sendFlags_recvWindow]
  · refine (reads_onStream ht fun st hst => hst.grant flags).bind fun delta ans₂ u hu => ?_
    cases delta with
    | none => exact .pure hu
    | some delta =>
      exact (reads_beside (beside_sessionSendBufWrite _) hu).bind fun _ _ _ hv => .pure hv

/-- A read, where it does not take the last bytes of a stream that the peer closed. -/
theorem reads_streamRead {size : Nat} (h : s.ReadSound) (hok : Api.KeepsEof ans s (.read id size)) :
    Ends socketsOk (fun _ _ t => t.ReadSound) (streamRead id size) ans s := by
  have hclosed : Ends socketsOk (fun early _ t => t = s ∧
      (early = none → ∀ st, s.streams id = some st → st.state ≠ .reset))
      (streamReadClosed id) ans s := by
    refine .seq (.acquire (.seq (ends_readStream fun st hst => ?_)))
    have hend (early : Option Int) (ans : Answers Call)
        (he : early = none → st.state ≠ .reset) :
        Ends socketsOk (fun early _ t => t = s ∧
          (early = none → ∀ st, s.streams id = some st → st.state ≠ .reset))
          (do release (.state id); pure early : Op (Option Int)) ans s := by
      refine .seq (.release (.pure ⟨rfl, fun hnone st' hst' => ?_⟩))
      obtain rfl := Option.some.inj (hst.symm.trans hst')
      exact he hnone
    cases hstate : st.state with
    | localClose | remoteClose | closed =>
      refine .seq (.seq (ends_readStream fun _ _ => .pure ?_))
      exact hend _ _ fun _ => by simp [hstate]
    | reset => exact .seq (.pure (hend _ _ fun hnone => by cases hnone))
    | init | synSent | synReceived | established =>
      exact .seq (.pure (hend _ _ fun _ => by simp [hstate]))
  refine hclosed.bind ?_
  rintro early ans₁ t ⟨rfl, hreset⟩
  cases early with
  | some r => exact .pure h
  | none =>
    refine .seq (ends_readStream fun st hst => ?_)
    split
    · refine .seq (ends_readStream fun _ _ => ?_)
      split
      · exact .pure h
      · refine .seq (.query fun _ => ?_)
        split
        · exact .seq (.await fun _ => .again)
        · exact .pure h
    · have hsound := h.streams id st hst
      have hlen : st.recvBuf.length < 2 ^ 31 := by
        have := hsound.bounded
        unfold Stream.Bounded maxWindow at this
        omega
      have hbounded : ({ st with recvBuf := st.recvBuf.drop size } : Stream).Bounded := by
        have := hsound.bounded
        unfold Stream.Bounded at this
        change (st.recvBuf.drop size).length + st.recvWindow.toNat ≤ maxWindow
        rw [List.length_drop]
        omega
      rename_i hpending
      rw [bioPending_eq_zero hlen] at hpending
      refine .seq (ends_onStream fun st' hst' => .seq (.check fun _ => ?_))
      obtain rfl := Option.some.inj (hst.symm.trans hst')
      have hdrop : bioPending (st.recvBuf.drop size) = 0 ↔ st.recvBuf.drop size = [] :=
        bioPending_eq_zero (by rw [List.length_drop]; omega)
      -- the mark is right again once a drained stream has been cleared
      have hafter : Ends socketsOk (fun _ _ t => t.ReadSound)
          (if bioPending (st.recvBuf.drop size) = 0 then streamReadableWaiting id
            else pure 0 : Op Int) ans₁ (t.setStream id (st.take size).2) := by
        split
        · rename_i hempty
          rw [hdrop] at hempty
          refine .seq (.query fun hio => ends_onStream fun st' hst' => ?_)
          rw [Session.setStream_same] at hst'
          obtain rfl := Option.some.inj hst'
          rw [hio rfl, Session.setStream_setStream]
          have hopen : st.state ≠ .remoteClose ∧ st.state ≠ .closed := by
            have hlast : ¬ (st.recvBuf = [] ∨ size < st.recvBuf.length) := by
              rw [List.drop_eq_nil_iff] at hempty
              exact fun hc => hc.elim hpending (by omega)
            exact ⟨fun hc => hlast (hok st hst (.inl hc)), fun hc => hlast (hok st hst (.inr hc))⟩
          have hcleared : ({ st with
              recvBuf := st.recvBuf.drop size, readable := false } : Stream).ReadSound := by
            refine ⟨iff_of_false Bool.false_ne_true ?_, hbounded, hsound.localOpen⟩
            rintro (hne | hstate | hstate | hstate)
            · exact hne hempty
            · exact hopen.1 hstate
            · exact hopen.2 hstate
            · exact hreset rfl st hst hstate
          refine h.setStream hst ?_ ?_
          · cases hr : st.readable with
            | true =>
              simp only [Stream.take, hr, if_true, not_true_eq_false, if_false]
              exact hcleared
            | false =>
              simp only [Stream.take, hr, Bool.false_eq_true, if_false]
              exact hcleared
          · simp only [Stream.take]
            split <;> exact le_rfl
        · rename_i hmore
          rw [hdrop] at hmore
          refine .pure (h.setStream hst ⟨?_, hbounded, hsound.localOpen⟩ le_rfl)
          exact iff_of_true (hsound.mark.mpr (.inl hpending)) (.inl hmore)
      refine hafter.bind fun waiting ans₂ u hu => ?_
      split
      · exact .pure hu
      · exact (reads_sendWindowUpdate hu).bind fun _ _ _ hv => .pure hv

end Calls

/-! ## Payloads -/

section Payload

variable {ans : Answers Call} {s : Session} {id : UInt32} {live : Bool} {st : Stream}

/-- A slice is moved as a whole, or the frame fails. -/
theorem ends_deliverSlice {size : Nat} (hle : size ≤ sliceSize) :
    Ends socketsOk (fun moved _ t => ∀ n, moved = some n → 0 < n ∧ n ≤ size ∧
      n ≤ s.recvBuf.length ∧ ∃ st, s.streams id = some st ∧ t = s.setStream id (s.received st n))
      (deliverSlice id size) ans s := by
  refine .seq (.read (.seq (.check fun hpos => .seq (.acquire ?_))))
  have hlen : (s.recvBuf.take size).length < 2 ^ 31 := by
    rw [List.length_take]
    simp only [sliceSize] at hle
    omega
  have hn : 0 < (s.recvBuf.take size).length := by
    rw [toInt32_eq hlen, decide_eq_true_eq] at hpos
    omega
  have htake : s.recvBuf.take (s.recvBuf.take size).length = s.recvBuf.take size := by
    rw [List.length_take, List.take_eq_take_iff]
    omega
  have hwrite : Ends socketsOk (fun (r : Int × Bytes) _ t => t = s ∧
      (r.1 ≠ -1 → r.2 = s.recvBuf.take size)) (bioWrite (s.recvBuf.take size)) ans s := by
    intro _ r ans' t hrun
    obtain ⟨done, nodes, ans₁, hnodes, hw, -⟩ := Bio.run_writeNodes (μ := Mutex)
      (Nat.le_refl (s.recvBuf.take size).length) ans s
    simp only [bioWrite, run_bind, hnodes, runThen_ret, run_pure] at hrun
    cases hrun
    refine ⟨rfl, fun hr => hw.all ?_⟩
    by_contra hdone
    simp [hdone] at hr
  refine hwrite.bind ?_
  rintro ⟨r, written⟩ ans₁ t ⟨rfl, hwritten⟩
  refine .seq (ends_onStream fun st hst => ?_)
  by_cases hr : r = -1
  · simp only [if_pos hr]
    refine Ends.bind (Q := fun _ _ _ => True) (fun _ _ _ _ _ => trivial) fun _ _ _ _ => ?_
    exact .seq (.release (.pure fun n h => by cases h))
  · obtain rfl : written = t.recvBuf.take size := hwritten hr
    simp only [if_neg hr]
    refine .seq (.release (.seq ?_))
    refine ends_streamReadableNotify (t.setStream_same id _) fun ans₂ _ => ?_
    rw [if_neg (by decide)]
    refine .pure fun n h => ?_
    obtain rfl := Option.some.inj h
    refine ⟨hn, ?_, ?_, st, hst, ?_⟩
    · rw [List.length_take]
      exact min_le_left _ _
    · rw [List.length_take]
      exact min_le_right _ _
    · rw [Session.setStream_setStream, Session.received, htake, if_neg hn.ne']

/-- What the rounds of the payload loop keep. -/
structure Session.InPayload (s : Session) (id : UInt32) (live : Bool) : Prop where
  sound : s.ReadSound
  newFrame : s.newFrame = false
  id_eq : hdrStreamId s.hdr = id
  live_eq : (s.streams id).isSome = live

theorem Session.InPayload.skip (h : s.InPayload id false) (n : Nat) : (s.skip n).InPayload id false := by
  refine ⟨⟨h.sound.streams, fun hn st hst => ?_⟩, h.newFrame, h.id_eq, h.live_eq⟩
  have hnone := h.live_eq
  change s.streams (hdrStreamId s.hdr) = some st at hst
  rw [h.id_eq] at hst
  rw [hst] at hnone
  cases hnone

/-- Bytes for a live stream are taken off its window and off the frame. -/
theorem Session.InPayload.deliver (h : s.InPayload id true) (hst : s.streams id = some st)
    {n : Nat} (hpos : 0 < n) (hle : n ≤ s.frameRemain.toNat) (hn : n ≤ s.recvBuf.length) :
    (s.deliver id st n).InPayload id true := by
  have hsound := h.sound.streams id st hst
  have hframe := h.sound.frame h.newFrame st (h.id_eq ▸ hst)
  have hremain : (s.deliver id st n).frameRemain.toNat = s.frameRemain.toNat - n :=
    toNat_sub_ofNat hle
  have hwindow : (s.received st n).recvWindow.toNat = st.recvWindow.toNat - n :=
    toNat_sub_ofNat (hle.trans hframe)
  have hreceived : (s.received st n).ReadSound := by
    refine ⟨iff_of_true (if_neg hpos.ne') (.inl ?_), ?_, hsound.localOpen⟩
    · intro hnil
      have := congrArg List.length hnil
      simp only [Session.received, List.length_append, List.length_take, List.length_nil] at this
      omega
    · have hb := hsound.bounded
      unfold Stream.Bounded at hb ⊢
      rw [hwindow]
      simp only [Session.received, List.length_append, List.length_take]
      omega
  refine ⟨⟨fun i st₁ h₁ => ?_, fun _ st₁ h₁ => ?_⟩, h.newFrame, h.id_eq, ?_⟩
  · change (s.setStream id (s.received st n)).streams i = some st₁ at h₁
    rw [setStream_streams] at h₁
    split at h₁
    · obtain rfl := Option.some.inj h₁
      exact hreceived
    · exact h.sound.streams i st₁ h₁
  · change (s.setStream id (s.received st n)).streams (hdrStreamId s.hdr) = some st₁ at h₁
    rw [h.id_eq, setStream_same] at h₁
    obtain rfl := Option.some.inj h₁
    rw [hremain, hwindow]
    omega
  · rw [deliver_same]
    rfl

theorem reads_payloadRound (h : s.InPayload id live) :
    Ends socketsOk (fun o _ t => o.elim (t.InPayload id live) fun r => r = 0 → t.InPayload id live)
      (payloadRound id live) ans s := by
  refine .seq (.read (.seq (.read ?_)))
  split
  · exact .pure fun _ => h
  · dsimp only
    cases live with
    | false =>
      rw [if_neg Bool.false_ne_true]
      exact .seq (.pure (.seq (.modify (.pure (h.skip _)))))
    | true =>
      rw [if_pos rfl]
      refine (ends_deliverSlice (min_le_right _ _)).bind fun moved ans₁ t ht => ?_
      cases moved with
      | none =>
        refine .pure fun hr => ?_
        cases hr
      | some n =>
        obtain ⟨hpos, hsize, hn, st, hst, rfl⟩ := ht n rfl
        exact .seq (.modify (.pure (h.deliver hst hpos (hsize.trans (min_le_left _ _)) hn)))

/-- The payload part, where it does not fail. -/
theorem reads_handlePayload (h : s.InPayload id live) :
    Ends socketsOk (fun r _ t => r = 0 → t.ReadSound) (handlePayload id live) ans s := by
  refine .seq (.read ?_)
  refine (Ends.loop (I := fun _ t => t.InPayload id live)
    (Q := fun r _ t => r = 0 → t.InPayload id live) (fun ans' t _ ht => ?_) h _).bind ?_
  · exact (reads_payloadRound ht).mono fun o _ _ ho => by cases o <;> exact ho
  · intro r ans₁ t ht
    split
    · exact .pure fun hr => by cases hr
    · rename_i hr
      have hin := ht (not_not.mp hr)
      refine .seq (.modify (.pure fun _ => ⟨hin.sound.streams, fun hn st hst => ?_⟩))
      exact hin.sound.frame hin.newFrame st hst

/-- The payload of a frame begins where it fits the window of its stream. -/
theorem reads_startPayload {len : UInt32} (h : s.ReadSound) (hid : hdrStreamId s.hdr = id)
    (hlive : (s.streams id).isSome = live)
    (hfit : ∀ st, s.streams id = some st → len.toNat ≤ st.recvWindow.toNat) :
    Ends socketsOk (fun r _ t => r = 0 → t.ReadSound) (startPayload id live len) ans s :=
  .seq (.modify (reads_handlePayload
    ⟨⟨h.streams, fun _ st hst => hfit st (hid ▸ hst)⟩, rfl, hid, hlive⟩))

end Payload

/-! ## Frames -/

section Frames

variable {ans : Answers Call} {s : Session}

theorem reads_streamProcessFlags {id : UInt32} (h : s.ReadSound) (hlive : (s.streams id).isSome)
    (flags : UInt16) :
    Ends socketsOk (fun r _ t => r = 0 → t.ReadSound ∧ t.newFrame = s.newFrame ∧ t.hdr = s.hdr ∧
      (t.streams id).isSome) (streamProcessFlags id flags) ans s := by
  obtain ⟨st, hst⟩ := Option.isSome_iff_exists.mp hlive
  refine ends_streamProcessFlags hst (fun _ _ hr => by cases hr) fun st' ans' hf _ => ?_
  have hst' := ((h.streams id st hst).processAck flags).finWith hf
  refine ⟨h.setStream hst (hst'.rstWith flags _) ?_, rfl, rfl, ?_⟩
  · rw [(Stream.flags_windows hf).1]
  · rw [Session.setStream_same]
    rfl

theorem reads_handleDataHeader (h : s.ReadSound) :
    Ends socketsOk (fun r _ t => r = 0 → t.ReadSound) handleDataHeader ans s := by
  refine .seq (.read (.seq (.read ?_)))
  cases hlive : (s.streams (hdrStreamId s.hdr)).isSome with
  | false =>
    rw [if_neg Bool.false_ne_true]
    refine reads_startPayload h rfl hlive fun st hst => ?_
    rw [hst] at hlive
    cases hlive
  | true =>
    rw [if_pos rfl]
    refine (reads_streamProcessFlags h hlive _).bind fun r ans₁ t ht => ?_
    split
    · exact (Ends.bind (Q := fun _ _ _ => True) (fun _ _ _ _ _ => trivial) fun _ _ _ _ =>
        .pure fun hr => by cases hr)
    · rename_i hr
      obtain ⟨hsound, hnew, hhdr, hlive'⟩ := ht (not_not.mp hr)
      split
      · exact .pure fun _ => hsound
      · refine .seq (.acquire (.seq (ends_readStream fun st hst => ?_)))
        split
        · exact (Ends.bind (Q := fun _ _ _ => True) (fun _ _ _ _ _ => trivial) fun _ _ _ _ =>
            .seq (.release (.pure fun hr => by cases hr)))
        · rename_i hfit
          refine .seq (.release (reads_startPayload hsound (by rw [hhdr]) hlive'
            fun st' hst' => ?_))
          obtain rfl := Option.some.inj (hst.symm.trans hst')
          exact UInt32.le_iff_toNat_le.mp (UInt32.not_lt.mp hfit)

/-- The SYN part of the two handlers. -/
theorem reads_syn (h : s.ReadSound) (hn : s.newFrame = true) :
    Ends socketsOk (fun r _ t => r = 0 → t.ReadSound ∧ t.newFrame = true)
      (if hasFlag (hdrFlags s.hdr) FLAG_SYN then incomingStream else pure 0 : Op Int) ans s := by
  split
  · refine ends_incomingStream (fun _ _ hr => by cases hr) (fun _ ans' t ht _ _ => ?_)
      fun _ hnone ans' _ => ?_
    · exact ⟨.beside s t ht h, ht.newFrame.trans hn⟩
    · have hfresh : (Stream.fresh .synReceived s.rcvbuf).ReadSound := .fresh _ (.inr rfl)
      have hsound : (s.setStream (hdrStreamId s.hdr)
          (Stream.fresh .synReceived s.rcvbuf)).ReadSound := h.insert hn hfresh
      have hbeside : Beside (s.setStream (hdrStreamId s.hdr)
          (Stream.fresh .synReceived s.rcvbuf)) (s.enroll (hdrStreamId s.hdr)) :=
        ⟨rfl, rfl, rfl, rfl, rfl, id⟩
      exact ⟨.beside _ _ hbeside hsound, hn⟩
  · exact .pure fun _ => ⟨h, hn⟩

theorem reads_sessionHandleData (h : s.ReadSound) :
    Ends socketsOk (fun r _ t => r = 0 → t.ReadSound) sessionHandleData ans s := by
  refine .seq (.read (.seq (.read ?_)))
  cases hn : s.newFrame with
  | false =>
    rw [if_neg Bool.false_ne_true]
    exact .seq (.read (reads_handlePayload ⟨h, hn, rfl, rfl⟩))
  | true =>
    rw [if_pos rfl]
    refine (reads_syn h hn).bind fun r ans₁ t ht => ?_
    split
    · exact .pure fun hr => by cases hr
    · rename_i hr
      obtain ⟨hsound, hnew⟩ := ht (not_not.mp hr)
      exact reads_handleDataHeader hsound

theorem reads_credit {ms : List Mutex} {id : UInt32} (h : s.ReadSound) (len : UInt32) :
    Ends socketsOk (fun _ _ t => t.ReadSound)
      (modifyStream ms id fun st => { st with sendWindow := st.sendWindow + len }) ans s := by
  refine reads_onStream h fun st hst => ?_
  dsimp only
  generalize st.sendWindow + len = window
  exact ⟨hst.writing window st.writeable, le_rfl⟩

theorem reads_streamWriteableNotify {id : UInt32} (h : s.ReadSound) :
    Ends socketsOk (fun _ _ t => t.ReadSound) (streamWriteableNotify id) ans s := by
  refine .seq (.query fun _ => .seq (.query fun _ => reads_onStream h fun st hst => ?_))
  have hmark (mark : Bool) : ({ st with writeable := mark } : Stream).ReadSound :=
    hst.writing st.sendWindow mark
  split
  · exact ⟨hst, le_rfl⟩
  · split
    · exact ⟨hst, le_rfl⟩
    · split
      · exact ⟨hst, le_rfl⟩
      · exact ⟨hmark true, le_rfl⟩

theorem reads_sessionHandleWindowUpdate (h : s.ReadSound) :
    Ends socketsOk (fun r _ t => r = 0 → t.ReadSound) sessionHandleWindowUpdate ans s := by
  refine .seq (.read (.seq (.check fun hn => .seq (.read ?_))))
  refine (reads_syn h hn).bind fun r ans₁ t ht => ?_
  split
  · exact .pure fun hr => by cases hr
  · rename_i hr
    obtain ⟨hsound, -⟩ := ht (not_not.mp hr)
    refine .seq (.read ?_)
    split
    · rename_i hlive
      refine (reads_streamProcessFlags hsound hlive _).bind fun r ans₂ u hu => ?_
      split
      · exact (Ends.bind (Q := fun _ _ _ => True) (fun _ _ _ _ _ => trivial) fun _ _ _ _ =>
          .pure fun hr => by cases hr)
      · rename_i hr
        have hsound' := (hu (not_not.mp hr)).1
        split
        · exact .pure fun _ => hsound'
        · refine (reads_credit hsound' _).bind fun _ ans₃ v hv => ?_
          refine (reads_streamWriteableNotify hv).bind fun woken ans₄ w hw => ?_
          split
          · exact (Ends.bind (Q := fun _ _ _ => True) (fun _ _ _ _ _ => trivial) fun _ _ _ _ =>
              .pure fun hr => by cases hr)
          · exact .pure fun _ => hw
    · exact .pure fun _ => hsound

theorem reads_sessionHandle (h : s.ReadSound) :
    Ends socketsOk (fun r _ t => r = 0 → t.ReadSound) sessionHandle ans s := by
  refine .seq (.read ?_)
  split
  · exact reads_sessionHandleData h
  · split
    · exact reads_sessionHandleWindowUpdate h
    · split
      · exact (reads_beside beside_sessionHandlePing h).mono fun _ _ _ ht _ => ht
      · split
        · exact (reads_beside beside_sessionHandleGoAway h).mono fun _ _ _ ht _ => ht
        · exact .pure fun hr => by cases hr

/-- A round of the receive loop, where it does not fail. -/
theorem reads_processRound (h : s.ReadSound) :
    Ends socketsOk (fun o _ t => o.elim t.ReadSound fun r => r = 0 → t.ReadSound) processRound
      ans s := by
  have verdict {ans : Answers Call} {t : Session} (ht : t.ReadSound) :
      Ends socketsOk (fun o _ t => o.elim t.ReadSound fun r => r = 0 → t.ReadSound) (do
        let r ← sessionHandle
        pure (if r ≠ 0 then some (-1) else none)) ans t := by
    refine (reads_sessionHandle ht).bind fun r ans₁ u hu => .pure ?_
    split
    · exact fun hr => by cases hr
    · rename_i hr
      exact hu (not_not.mp hr)
  refine .seq (.read (.seq (.read ?_)))
  split
  · exact .pure fun _ => h
  · split
    · exact .pure fun _ => h
    · cases hn : s.newFrame with
      | false =>
        rw [if_neg Bool.false_ne_true]
        refine .seq (.pure ?_)
        rw [if_pos rfl]
        exact verdict h
      | true =>
        rw [if_pos rfl]
        refine .seq (.seq (.crit (.seq (.check fun _ => .pure ?_))))
        split
        · refine verdict ⟨h.streams, fun hf => ?_⟩
          change s.newFrame = false at hf
          rw [hn] at hf
          cases hf
        · exact .pure fun hr => by cases hr

theorem reads_sessionProcess (h : s.ReadSound) :
    Ends socketsOk (fun r _ t => r = 0 → t.ReadSound) sessionProcess ans s := by
  refine .seq (.acquire (.seq (.read ?_)))
  refine (Ends.loop (I := fun _ t => t.ReadSound) (Q := fun r _ t => r = 0 → t.ReadSound)
    (fun ans' t _ ht => ?_) h _).bind fun r ans₁ t ht => .seq (.release (.pure ht))
  exact (reads_processRound ht).mono fun o _ _ ho => by cases o <;> exact ho

end Frames

/-! ## Runs -/

section Runs

variable {ans ans' : Answers Call} {s : Session} {client : Bool} {rcvbuf : UInt32}

theorem reads_streamWrite {id : UInt32} (h : s.ReadSound) (data : Bytes) :
    Ends socketsOk (fun _ _ t => t.ReadSound) (streamWrite id data) ans s := by
  have hwaiting {ans : Answers Call} {t : Session} (ht : t.ReadSound) :
      Ends socketsOk (fun _ _ t => t.ReadSound) (streamWriteableWaiting id) ans t := by
    refine .seq (.query fun _ => .seq (.query fun _ => reads_onStream ht fun st hst => ?_))
    have hmark (mark : Bool) : ({ st with writeable := mark } : Stream).ReadSound :=
      hst.writing st.sendWindow mark
    split
    · split
      · exact ⟨hst, le_rfl⟩
      · split
        · exact ⟨hst, le_rfl⟩
        · exact ⟨hmark false, le_rfl⟩
    · exact ⟨hst, le_rfl⟩
  have hdebit {ans : Answers Call} {t : Session} (ht : t.ReadSound) (max : UInt32) :
      Ends socketsOk (fun _ _ t => t.ReadSound) (streamWriteDebit id max) ans t := by
    refine (reads_onStream ht fun st hst => ?_).bind fun window ans₁ u hu => ?_
    · dsimp only
      generalize st.sendWindow - max = window
      exact ⟨hst.writing window st.writeable, le_rfl⟩
    · have hmark : Ends socketsOk (fun _ _ t => t.ReadSound)
          (if window = 0 then streamWriteableWaiting id else pure 0 : Op Int) ans₁ u := by
        split
        · exact hwaiting hu
        · exact .pure hu
      refine hmark.bind fun waiting ans₂ v hv => ?_
      split
      · exact (reads_beside (beside_sessionGoAwayForReason _) hv).bind fun _ _ _ hw => .pure hw
      · exact .pure hv
  have hframe {ans : Answers Call} {t : Session} (ht : t.ReadSound) (window : UInt32) :
      Ends socketsOk (fun _ _ t => t.ReadSound) (streamWriteFrame id data window) ans t := by
    refine (reads_onStream ht fun st hst => ⟨hst.sendFlags, ?_⟩).bind fun flags ans₁ u hu => ?_
    · rw [st.sendFlags_recvWindow]
    · refine (reads_beside (beside_sessionSendBufWrite _) hu).bind fun r ans₂ v hv => ?_
      split
      · exact .pure hv
      · refine (reads_beside (beside_sessionSendBufWrite _) hv).bind fun r ans₃ w hw => ?_
        split
        · exact .pure hw
        · exact hdebit hw _
  have live : Ends socketsOk (fun _ _ t => t.ReadSound) (do
      let window ← readStream [.send id] id Stream.sendWindow
      if window = 0 then do
        if ← readStream [] id Stream.nonblock then pure (-1)
        else do
          let selected ← query .sock
          if selected then do
            await fun s => (s.streams id).any Stream.writeable
            again
          else pure (-1)
      else streamWriteFrame id data window : Op Int) ans s := by
    refine .seq (ends_readStream fun st hst => ?_)
    split
    · refine .seq (ends_readStream fun _ _ => ?_)
      split
      · exact .pure h
      · refine .seq (.query fun _ => ?_)
        split
        · exact .seq (.await fun _ => .again)
        · exact .pure h
    · exact hframe h _
  refine .seq (ends_readStream fun st hst => ?_)
  cases st.state with
  | localClose | closed | reset => exact .pure h
  | init | synSent | synReceived | established | remoteClose => exact live

theorem reads_sessionAccept (h : s.ReadSound) :
    Ends socketsOk (fun _ _ t => t.ReadSound) sessionAccept ans s := by
  refine .seq (.query fun hio => ?_)
  rw [hio rfl, if_pos rfl]
  refine .seq (.await fun _ => .seq (.crit ?_))
  have hpopped : ({ s with accepts := s.accepts.tail } : Session).ReadSound :=
    .beside s _ ⟨rfl, rfl, rfl, rfl, rfl, id⟩ h
  cases s.accepts.head? with
  | none => exact .again
  | some id =>
    refine .seq (.read (.seq (.check fun _ => ?_)))
    exact (reads_sendWindowUpdate hpopped).bind fun _ _ _ ht => .pure ht

theorem streams_of_removed {id i : UInt32} {st : Stream}
    (h : Function.update s.streams id none i = some st) : s.streams i = some st := by
  by_cases hi : i = id
  · subst hi
    rw [Function.update_self] at h
    cases h
  · rwa [Function.update_of_ne hi] at h

/-- A stream is opened between two frames. -/
theorem reads_sessionOpen (h : s.ReadSound) (hn : s.newFrame = true) (tries : Nat) :
    Ends socketsOk (fun _ _ t => t.ReadSound) (sessionOpen tries) ans s := by
  refine .seq (.read ?_)
  split
  · exact .pure h
  · refine (Ends.acts .refl .trans (beside_takeId tries)).bind fun taken ans₁ t ht => ?_
    have ht' : t.ReadSound := .beside s t ht h
    cases taken with
    | none => exact .pure ht'
    | some id =>
      refine .seq (ends_streamNew (fun _ => .pure ht') fun hfree ans₂ _ => ?_)
      rw [if_pos rfl]
      have hnew : (t.setStream id (Stream.fresh .init t.rcvbuf)).ReadSound :=
        ht'.insert (ht.newFrame.trans hn) (.fresh _ (.inl rfl))
      refine (reads_sendWindowUpdate hnew).bind fun r ans₃ u hu => ?_
      split
      · refine .seq (.seq (.crit (.check fun _ => .pure ⟨fun i st hst => ?_, fun hf st hst => ?_⟩)))
        · exact hu.streams i st (streams_of_removed hst)
        · exact hu.frame hf st (streams_of_removed hst)
      · exact .pure hu

/-- A call that keeps the end of a stream in sight keeps every stream sound. -/
theorem reads_code {c : Api} (h : s.ReadSound) (ha : Env.Allowed socketsOk ans)
    (hacc : c.Accepted ans s) (hok : c.KeepsEof ans s) {t : Session}
    (hrun : c.code.run ans s = (.ret (), ans', t)) : t.ReadSound := by
  have ends {α : Type} {p : Op α} (hp : Ends socketsOk (fun _ _ t => t.ReadSound) p ans s)
      (hrun : (forget p).run ans s = (.ret (), ans', t)) : t.ReadSound := by
    obtain ⟨a, ans₁, u, hpa, hrest⟩ := run_bind_ret hrun
    cases hrest
    exact hp ha a _ _ hpa
  have beside (hc : c.IsBeside) : t.ReadSound := reads_beside (beside_code hc) h ha _ _ _ hrun
  cases c with
  | recvBufWrite | sendBufPending | sendBufPeek | sendBufConsume | goAway => exact beside trivial
  | process =>
    obtain ⟨r, ans₁, u, hprocess, hrest⟩ := run_bind_ret hrun
    cases hrest
    have hr : r = 0 := by
      rw [Api.Accepted, hprocess] at hacc
      exact Outcome.ret.inj hacc
    exact reads_sessionProcess h ha _ _ _ hprocess hr
  | openStream tries => exact ends (reads_sessionOpen h hacc tries) hrun
  | acceptStream => exact ends (reads_sessionAccept h) hrun
  | read id size => exact ends (reads_streamRead h hok) hrun
  | write id data => exact ends (reads_streamWrite h data) hrun

theorem Api.Run.readSound (h : Api.Run Api.KeepsEof client rcvbuf s) : s.ReadSound := by
  induction h with
  | init => exact .init client rcvbuf
  | call h c ha hacc hok hrun ih => exact reads_code ih ha hacc hok hrun
  | nonblock h hst b ih =>
    have hsound := ih.streams _ _ hst
    exact ih.setStream hst ⟨hsound.mark, hsound.bounded, hsound.localOpen⟩ le_rfl

/-- A blocking read of a sound stream returns exactly if the stream is ready. -/
theorem returns_iff_readReady {id : UInt32} {st : Stream} (h : st.ReadSound)
    (hst : s.streams id = some st) (hb : st.nonblock = false) {size : Nat} (hsize : 0 < size) :
    (∃ r, ((streamRead id size).exec s).1 = .ret r) ↔ st.ReadReady := by
  have hlen : st.recvBuf.length < 2 ^ 31 := by
    have := h.bounded
    unfold Stream.Bounded maxWindow at this
    omega
  by_cases hreset : st.state = .reset
  · exact iff_of_true ⟨_, by rw [exec_streamRead_reset hst size hreset]⟩ (.inr (.inr (.inr hreset)))
  · by_cases hempty : st.recvBuf = []
    · by_cases hclosed : st.state = .remoteClose ∨ st.state = .closed
      · refine iff_of_true ⟨_, by rw [exec_streamRead_eof hst size hempty (.inr hclosed)]⟩ (.inr ?_)
        exact hclosed.imp_right .inl
      · obtain ⟨h₁, h₂⟩ := not_or.mp hclosed
        refine iff_of_false ?_ ?_
        · rintro ⟨r, hr⟩
          rw [exec_streamRead_wait hst size hempty ⟨h.localOpen, h₁, h₂, hreset⟩, hb] at hr
          cases hr
        · rintro (h₀ | h₀ | h₀ | h₀) <;> contradiction
    · exact iff_of_true ⟨_, by rw [exec_streamRead_data hst hsize hempty hlen hreset]⟩ (.inl hempty)

/-- In a run where no read takes the last bytes of a stream that the peer has closed,
the readable mark is right after every call: it is set exactly if `stream_read` would
not block. -/
theorem readable_iff_ready (h : Api.Run Api.KeepsEof client rcvbuf s) {id : UInt32} {st : Stream}
    (hst : s.streams id = some st) :
    (st.readable = true ↔ st.recvBuf ≠ [] ∨ st.state = .remoteClose ∨ st.state = .closed ∨
      st.state = .reset) ∧
    (st.nonblock = false → ∀ size, 0 < size →
      (st.readable = true ↔ ∃ r, ((streamRead id size).exec s).1 = .ret r)) := by
  have hsound := h.readSound.streams id st hst
  exact ⟨hsound.mark, fun hb size hsize =>
    hsound.mark.trans (returns_iff_readReady hsound hst hb hsize).symm⟩

end Runs

/-- The frames with which a peer opens stream 1, sends one byte and closes. -/
def byteAndFin : Bytes :=
  hdrEncode TYPE_DATA FLAG_SYN 1 1 ++ [7] ++ hdrEncode TYPE_WINDOW_UPDATE FLAG_FIN 1 0

/-- The session that has processed them. -/
def closedByPeer : Session :=
  (Api.process.code.exec ((Api.recvBufWrite byteAndFin).code.exec (sessionInit false 4096)).2).2

theorem run_closedByPeer {ok : Answers Call → Session → Api → Prop}
    (hok : ∀ s, ok noFail s (.recvBufWrite byteAndFin) ∧ ok noFail s .process) :
    Api.Run ok false 4096 closedByPeer := by
  refine Api.Run.exec (Api.Run.exec .init (.recvBufWrite byteAndFin) trivial (hok _).1
    (by decide +kernel)) .process ?_
    (hok _).2 (by decide +kernel)
  rw [Api.Accepted, run_noFail]
  decide +kernel

/-- The byte and the end of the stream are there to be read, and the mark is set. -/
theorem readable_closedByPeer :
    ∃ st, closedByPeer.streams 1 = some st ∧ st.readable = true ∧ st.state = .remoteClose := by
  have hst : (closedByPeer.streams 1).isSome = true ∧
      (closedByPeer.streams 1).map Stream.state = some .remoteClose := by decide +kernel
  obtain ⟨st, h⟩ := Option.isSome_iff_exists.mp hst.1
  have hstate : st.state = .remoteClose := by
    have := hst.2
    rw [h] at this
    exact Option.some.inj this
  exact ⟨st, h, (readable_iff_ready (run_closedByPeer fun _ => ⟨trivial, trivial⟩) h).1.mpr
    (.inr (.inl hstate)), hstate⟩

/-- After the byte is read the end of the stream is still to come, and the mark is
cleared. -/
theorem readable_lost :
    ∃ s st, Api.Run (fun _ _ _ => True) false 4096 s ∧ s.streams 1 = some st ∧
      ¬ (st.readable = true ↔ st.recvBuf ≠ [] ∨ st.state = .remoteClose ∨ st.state = .closed ∨
        st.state = .reset) := by
  have hst : (((Api.read 1 1).code.exec closedByPeer).2.streams 1).isSome = true ∧
      (((Api.read 1 1).code.exec closedByPeer).2.streams 1).map
        (fun st => (st.state, st.readable)) = some (.remoteClose, false) := by decide +kernel
  obtain ⟨st, h⟩ := Option.isSome_iff_exists.mp hst.1
  have hmark := hst.2
  rw [h] at hmark
  obtain ⟨hstate, hreadable⟩ := Prod.mk.inj (Option.some.inj hmark)
  refine ⟨_, st, Api.Run.exec (run_closedByPeer fun _ => ⟨trivial, trivial⟩) (.read 1 1) trivial
    trivial (by decide +kernel), h, ?_⟩
  rw [hreadable]
  exact fun hiff => Bool.false_ne_true (hiff.mpr (.inr (.inl hstate)))

end Yamux
