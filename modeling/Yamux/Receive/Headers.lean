import Yamux.Receive.Chunking
import Yamux.Receive.Draining
import Yamux.Receive.Absorption
import Yamux.Sequential.Window

/-!
# Headers, payloads and one stream

What the parts of the receive path do to one stream when nothing fails: a header changes at
most its state, the payload part appends to its buffer what has arrived, and the calls of the
application work beside the buffer, but for reads of the stream itself.
-/

namespace Yamux

open Core Prog Session

/-! ## What other work keeps of a stream -/

namespace Stream

/-- The stream reads as ended once its buffer is empty. -/
def Ended (st : Stream) : Prop :=
  st.state = .localClose ∨ st.state = .remoteClose ∨ st.state = .closed

/-- A change beside the buffer that neither ends the stream nor takes window away. -/
structure Apart (st st' : Stream) : Prop where
  recvBuf : st'.recvBuf = st.recvBuf
  ended : st'.Ended ↔ st.Ended
  bounded : st.Bounded → st'.Bounded ∧ st.recvWindow.toNat ≤ st'.recvWindow.toNat

variable {st st' st'' : Stream}

theorem Apart.of_eq (hb : st'.recvBuf = st.recvBuf) (hs : st'.state = st.state)
    (hw : st'.recvWindow = st.recvWindow) : st.Apart st' := by
  refine ⟨hb, by rw [Ended, Ended, hs], fun h => ⟨?_, by rw [hw]⟩⟩
  rw [Bounded, hb, hw]
  exact h

theorem Apart.refl (st : Stream) : st.Apart st := .of_eq rfl rfl rfl

theorem Apart.trans (h : st.Apart st') (h' : st'.Apart st'') : st.Apart st'' := by
  refine ⟨h'.recvBuf.trans h.recvBuf, h'.ended.trans h.ended, fun hb => ?_⟩
  obtain ⟨hb', hle⟩ := h.bounded hb
  obtain ⟨hb'', hle'⟩ := h'.bounded hb'
  exact ⟨hb'', hle.trans hle'⟩

theorem apart_sendFlags (st : Stream) : st.Apart st.sendFlags.2 := by
  refine ⟨st.sendFlags_recvBuf, ?_, fun hb => ?_⟩
  · unfold sendFlags Ended
    cases hst : st.state <;> simp [hst]
  · rw [Bounded, sendFlags_recvBuf, sendFlags_recvWindow]
    exact ⟨hb, le_rfl⟩

theorem apart_grant (st : Stream) (flags : UInt16) : st.Apart (st.grant flags).2 := by
  obtain ⟨window, hwindow⟩ := st.grant_window flags
  refine ⟨by rw [hwindow], by rw [hwindow]; rfl, fun hb => ?_⟩
  rcases grant_cases hb flags with ⟨hg, -, -⟩ | ⟨window, hg, hw⟩
  · rw [hg]
    exact ⟨hb, le_rfl⟩
  · rw [hg]
    unfold Bounded at hb ⊢
    unfold gap at hw
    dsimp only
    constructor
    · omega
    · omega

theorem WindowUpdated.apart (h : st.WindowUpdated st') : st.Apart st' := by
  cases h with
  | flags => exact st.apart_sendFlags
  | grant flags => exact st.apart_grant flags

theorem WrittenBy.apart (h : st.WrittenBy st') : st.Apart st' := by
  cases h with
  | flags => exact st.apart_sendFlags
  | debit => exact .of_eq rfl rfl rfl
  | waiting => exact .of_eq rfl rfl rfl

/-- The whole of `send_window_update`. -/
theorem apart_update (st : Stream) : st.Apart st.update.2 :=
  st.apart_sendFlags.trans (st.sendFlags.2.apart_grant st.sendFlags.1)

end Stream

/-- The input and the frame in progress are as they were, and the stream has changed beside
its buffer. -/
structure Apart (id : UInt32) (s t : Session) : Prop where
  frame : SameFrame s t
  recvBuf : t.recvBuf = s.recvBuf
  old : ∀ st, s.streams id = some st → ∃ st', t.streams id = some st' ∧ st.Apart st'
  none : s.streams id = none → t.streams id = none

namespace Apart

variable {id i : UInt32} {s t u : Session}

theorem of_streams (hf : SameFrame s t) (hb : t.recvBuf = s.recvBuf)
    (hs : t.streams id = s.streams id) : Apart id s t :=
  ⟨hf, hb, fun st hst => ⟨st, hs.trans hst, .refl st⟩, fun hnone => hs.trans hnone⟩

theorem refl (s : Session) : Apart id s s := .of_streams (.refl s) rfl rfl

theorem trans (h : Apart id s t) (h' : Apart id t u) : Apart id s u := by
  refine ⟨h.frame.trans h'.frame, h'.recvBuf.trans h.recvBuf, fun st hst => ?_,
    fun hnone => h'.none (h.none hnone)⟩
  obtain ⟨st', hst', hst⟩ := h.old st hst
  obtain ⟨st'', hst'', hst'⟩ := h'.old st' hst'
  exact ⟨st'', hst'', hst.trans hst'⟩

/-- An action on behalf of some stream, which only matters if it is this one. -/
theorem of_touches {N : Stream → Stream → Prop} (hN : i = id → ∀ st st', N st st' → st.Apart st')
    (h : Touches i N s t) : Apart id s t := by
  cases h with
  | none => exact .refl s
  | send | leave => exact .of_streams ⟨rfl, rfl, rfl⟩ rfl rfl
  | @stream st st' hst h =>
    by_cases hi : i = id
    · subst hi
      refine ⟨⟨rfl, rfl, rfl⟩, rfl, fun st₁ hst₁ => ⟨st', s.setStream_same i st', ?_⟩,
        fun hnone => ?_⟩
      · obtain rfl := Option.some.inj (hst.symm.trans hst₁)
        exact hN rfl _ _ h
      · rw [hst] at hnone
        cases hnone
    · exact .of_streams ⟨rfl, rfl, rfl⟩ rfl (Session.setStream_of_ne _ _ _ (Ne.symm hi))

end Apart

/-- The calls that neither feed, process, open, nor read this stream. -/
def Api.IsApart (id : UInt32) : Api → Prop
  | .recvBufWrite _ | .process | .openStream _ => False
  | .read i _ => i ≠ id
  | _ => True

section Acts

variable {ok : Call → Bool → Prop} {id : UInt32}

theorem apart_code {c : Api} (hc : c.IsApart id) : Acts ok (Apart id) c.code := by
  cases c with
  | recvBufWrite | process | openStream => exact hc.elim
  | sendBufPending | sendBufPeek => exact acts_forget (.read .refl)
  | sendBufConsume n =>
    exact acts_forget (.crit fun _ => .of_streams ⟨rfl, rfl, rfl⟩ rfl rfl)
  | goAway =>
    exact acts_forget ((@touches_sessionGoAwayForReason ok id Stream.Apart _).mono
      fun _ _ => .of_touches fun _ _ _ h => h)
  | acceptStream =>
    exact acts_forget (changes_sessionAccept (fun _ => .of_streams ⟨rfl, rfl, rfl⟩ rfl rfl)
      fun _ _ _ h => .of_touches (fun _ _ _ h => h.apart) h)
  | read i size =>
    exact acts_forget ((touches_streamRead size).mono fun _ _ =>
      .of_touches fun hi => absurd hi hc)
  | write i data =>
    refine acts_forget ((queues_streamWrite data).mono fun s t h => ?_)
    cases h with
    | touch h => exact .of_touches (fun _ _ _ h => h.apart) h
    | data => exact .of_streams ⟨rfl, rfl, rfl⟩ rfl rfl

end Acts

/-- Opening leaves the session as it is but for the count, or creates a stream under an id
that was free. -/
theorem exec_openStream {tries : Nat} {s t : Session}
    (h : (Api.openStream tries).code.exec s = (.ret (), t)) :
    t = s ∨ s.streams s.nextId = none ∧
      t = ({ s with nextId := s.nextId + 2 } : Session).updateWindow s.nextId
        (Stream.fresh .init s.rcvbuf) := by
  obtain ⟨o, u, ho⟩ : ∃ o u, (sessionOpen tries).exec s = (o, u) := ⟨_, _, rfl⟩
  have hend (id : Option UInt32) {v : Session} (hv : (sessionOpen tries).exec s = (.ret id, v)) :
      t = v := by
    rw [Api.code, exec_forget hv] at h
    exact (congrArg Prod.snd h).symm
  have hstuck {v : Session} (hv : (sessionOpen tries).exec s = (.hang, v) ∨
      (sessionOpen tries).exec s = (.abort, v)) : False := by
    rw [Api.code, forget, exec_bind] at h
    rcases hv with hv | hv
    · rw [hv] at h
      cases h
    · rw [hv] at h
      cases h
  by_cases hgo : s.remoteGoAway = true
  · exact .inl (hend none (by simp [sessionOpen, hgo]))
  · have hstay : s.remoteGoAway = false := Bool.eq_false_iff.mpr hgo
    obtain rfl | htries := Nat.eq_zero_or_pos tries
    · have hhang := exec_sessionOpen_zero hstay
      rw [ho] at hhang
      exact (hstuck (.inl (ho.trans (Prod.ext hhang rfl)))).elim
    · by_cases hid : s.nextId < 4294967295
      · by_cases hfree : s.streams s.nextId = none
        · exact .inr ⟨hfree, hend _ (exec_sessionOpen htries hstay hid hfree)⟩
        · obtain ⟨st, hst⟩ := Option.ne_none_iff_exists'.mp hfree
          have hdup := exec_streamNew_dup (s := { s with nextId := s.nextId + 2 }) hst .init
          refine (hstuck (v := { s with nextId := s.nextId + 2 }) (.inr ?_)).elim
          rw [sessionOpen, exec_bind, exec_read, andThen_ret, if_neg hgo, exec_bind,
            exec_takeId htries hid, andThen_ret]
          dsimp only
          rw [exec_bind, hdup, andThen_abort]
      · obtain ⟨n, rfl⟩ := Nat.exists_eq_succ_of_ne_zero htries.ne'
        refine .inl (hend none ?_)
        rw [sessionOpen, exec_bind, exec_read, andThen_ret, if_neg hgo, exec_bind, takeId,
          exec_loop_succ]
        simp only [exec_bind, exec_read, andThen_ret, if_pos (UInt32.not_lt.mp hid), exec_pure]
        rfl

/-! ## What a header does to the streams -/

namespace Stream

/-- What a header has made of a stream: at most its flags have taken effect. -/
structure Headed (st st' : Stream) (hdr : Bytes) : Prop where
  recvBuf : st'.recvBuf = st.recvBuf
  recvWindow : st'.recvWindow = st.recvWindow
  ended : st'.Ended → st.Ended ∨ hasFlag (hdrFlags hdr) FLAG_FIN = true

theorem Headed.refl (st : Stream) (hdr : Bytes) : st.Headed st hdr := ⟨rfl, rfl, .inl⟩

theorem Headed.trans {st st' st'' : Stream} {hdr : Bytes} (h : st.Headed st' hdr)
    (h' : st'.Headed st'' hdr) : st.Headed st'' hdr :=
  ⟨h'.recvBuf.trans h.recvBuf, h'.recvWindow.trans h.recvWindow, fun he =>
    (h'.ended he).elim h.ended .inr⟩

theorem Headed.credit {st st' : Stream} {hdr : Bytes} (h : st.Headed st' hdr) (window : UInt32) :
    st.Headed { st' with sendWindow := window, writeable := true } hdr :=
  ⟨h.recvBuf, h.recvWindow, h.ended⟩

/-- A stream ends by FIN only. -/
theorem ended_of_processFlags {st st' : Stream} {flags : UInt16}
    (h : st.processFlags flags = some st') (he : st'.Ended) :
    st.Ended ∨ hasFlag flags FLAG_FIN = true := by
  by_cases hfin : hasFlag flags FLAG_FIN = true
  · exact .inr hfin
  · obtain ⟨st₁, hst₁, rfl⟩ := Option.map_eq_some_iff.mp h
    rw [processFin, if_neg hfin] at hst₁
    obtain rfl := Option.some.inj hst₁
    refine .inl ?_
    unfold processRst at he
    split at he
    · rcases he with he | he | he <;> cases he
    · unfold processAck at he
      split at he
      · rcases he with he | he | he <;> cases he
      · exact he

theorem headed_processFlags {st st' : Stream} {hdr : Bytes}
    (h : st.processFlags (hdrFlags hdr) = some st') : st.Headed st' hdr :=
  ⟨(processFlags_keeps h).1, (processFlags_keeps h).2.1, ended_of_processFlags h⟩

end Stream

namespace Session

/-- The streams behind a header: its flags have at most taken effect on its own stream,
which a SYN may have created. -/
structure Headed (s t : Session) : Prop where
  newFrame : t.newFrame = s.newFrame
  others : ∀ i, i ≠ hdrStreamId s.hdr → t.streams i = s.streams i
  gone : t.streams (hdrStreamId s.hdr) = none → s.streams (hdrStreamId s.hdr) = none
  own : ∀ st', t.streams (hdrStreamId s.hdr) = some st' →
    s.streams (hdrStreamId s.hdr) = some st' ∨
    (hdrType s.hdr = TYPE_DATA ∨ hdrType s.hdr = TYPE_WINDOW_UPDATE) ∧
      ∃ st, (s.streams (hdrStreamId s.hdr) = some st ∨
        s.streams (hdrStreamId s.hdr) = none ∧ st = .fresh .synReceived s.rcvbuf) ∧
        st.Headed st' s.hdr

variable {s t : Session}

theorem Headed.of_streams (hn : t.newFrame = s.newFrame) (h : t.streams = s.streams) :
    s.Headed t :=
  ⟨hn, fun i _ => by rw [h], fun hnone => h ▸ hnone, fun st' hst' => .inl (h ▸ hst')⟩

theorem Headed.refl (s : Session) : s.Headed s := .of_streams rfl rfl

/-- The SYN flag of a DATA or WINDOW_UPDATE header. -/
theorem headed_syn (htype : hdrType s.hdr = TYPE_DATA ∨ hdrType s.hdr = TYPE_WINDOW_UPDATE) :
    s.Headed s.syn.2 := by
  unfold syn
  dsimp only
  split
  · split
    · exact .of_streams rfl rfl
    · split
      · exact .of_streams rfl rfl
      · rename_i hfree
        have hnone := Option.not_isSome_iff_eq_none.mp hfree
        refine ⟨rfl, fun i hi => s.setStream_of_ne _ _ hi, fun _ => hnone, fun st' hst' => ?_⟩
        obtain rfl := Option.some.inj ((s.setStream_same _ _).symm.trans hst')
        exact .inr ⟨htype, _, .inr ⟨hnone, rfl⟩, .refl _ _⟩
  · exact .refl s

/-- The other flags, and what they leave of the header's work to be done. -/
theorem Headed.flags {u : Session} {st st' : Stream}
    (htype : hdrType s.hdr = TYPE_DATA ∨ hdrType s.hdr = TYPE_WINDOW_UPDATE) (h : s.Headed u)
    (hst : u.streams (hdrStreamId s.hdr) = some st) (hst' : st.Headed st' s.hdr) :
    s.Headed (u.setStream (hdrStreamId s.hdr) st') := by
  refine ⟨h.newFrame, fun i hi => ?_, fun hnone => ?_, fun st₁ hst₁ => ?_⟩
  · rw [setStream_of_ne _ _ _ hi]
    exact h.others i hi
  · rw [setStream_same] at hnone
    cases hnone
  · rw [setStream_same] at hst₁
    obtain rfl := Option.some.inj hst₁
    refine .inr ⟨htype, ?_⟩
    rcases h.own st hst with hold | ⟨-, st₀, horigin, hheaded⟩
    · exact ⟨st, .inl hold, hst'⟩
    · exact ⟨st₀, horigin, hheaded.trans hst'⟩

/-- Where a handler stands once it has dealt with the header of a new frame: done, with
nothing of the payload to come where it has succeeded, or in front of a payload that fits
the window of its stream. -/
inductive Heads (s : Session) : Entry → Prop where
  | done {r : Int} {t : Session} (h : s.Headed t) (hb : t.recvBuf = s.recvBuf)
      (hempty : r = 0 → hdrType s.hdr = TYPE_DATA → hdrLength s.hdr = 0) : Heads s (.done r t)
  | payload {u : Session} (h : s.Headed u) (hb : u.recvBuf = s.recvBuf) (hh : u.hdr = s.hdr)
      (htype : hdrType s.hdr = TYPE_DATA)
      (hfit : ∀ st, u.streams (hdrStreamId s.hdr) = some st →
        (hdrLength s.hdr).toNat ≤ st.recvWindow.toNat) :
      Heads s (.payload (u.beginFrame (hdrLength s.hdr)))

theorem heads_failed {t : Session} (h : s.Headed t) (hb : t.recvBuf = s.recvBuf) :
    s.Heads (.done (-1) t) :=
  .done h hb fun hr => absurd hr (by decide)

theorem heads_handleData (hn : s.newFrame = true) (htype : hdrType s.hdr = TYPE_DATA) :
    s.Heads s.handleData := by
  have hsyn := headed_syn (s := s) (.inl htype)
  rw [handleData, if_pos hn]
  split
  · exact heads_failed hsyn s.syn_recvBuf
  · unfold dataHeader
    rw [syn_hdr]
    cases hst : s.syn.2.streams (hdrStreamId s.hdr) with
    | none =>
      refine .payload hsyn s.syn_recvBuf s.syn_hdr htype fun st hst' => ?_
      rw [hst] at hst'
      cases hst'
    | some st =>
      dsimp only
      cases hflags : st.processFlags (hdrFlags s.hdr) with
      | none => exact heads_failed ⟨hsyn.newFrame, hsyn.others, hsyn.gone, hsyn.own⟩ s.syn_recvBuf
      | some st' =>
        have hheaded := hsyn.flags (.inl htype) hst (Stream.headed_processFlags hflags)
        dsimp only
        unfold admitData
        rw [syn_hdr]
        dsimp only
        split
        · exact .done hheaded s.syn_recvBuf fun _ _ => ‹_›
        · split
          · exact heads_failed ⟨hheaded.newFrame, hheaded.others, hheaded.gone, hheaded.own⟩
              s.syn_recvBuf
          · rename_i hfit
            refine .payload hheaded s.syn_recvBuf s.syn_hdr htype fun st₁ hst₁ => ?_
            rw [setStream_same] at hst₁
            obtain rfl := Option.some.inj hst₁
            exact UInt32.le_iff_toNat_le.mp (UInt32.not_lt.mp hfit)

theorem heads_handleUpdate (htype : hdrType s.hdr = TYPE_WINDOW_UPDATE) :
    s.Heads s.handleUpdate := by
  have hother : ∀ r : Int, r = 0 → hdrType s.hdr = TYPE_DATA → hdrLength s.hdr = 0 := by
    intro _ _ hdata
    rw [htype] at hdata
    exact absurd hdata (by decide)
  have hsyn := headed_syn (s := s) (.inr htype)
  rw [handleUpdate]
  split
  · exact heads_failed hsyn s.syn_recvBuf
  · unfold updateHeader
    rw [syn_hdr]
    cases hst : s.syn.2.streams (hdrStreamId s.hdr) with
    | none => exact .done hsyn s.syn_recvBuf (hother 0)
    | some st =>
      dsimp only
      cases hflags : st.processFlags (hdrFlags s.hdr) with
      | none => exact heads_failed ⟨hsyn.newFrame, hsyn.others, hsyn.gone, hsyn.own⟩ s.syn_recvBuf
      | some st' =>
        have hheaded := Stream.headed_processFlags hflags
        have hcredit : st.Headed (if hdrLength s.hdr = 0 then st' else { st' with
            sendWindow := st'.sendWindow + hdrLength s.hdr, writeable := true }) s.hdr := by
          split
          · exact hheaded
          · exact hheaded.credit _
        exact .done (hsyn.flags (.inr htype) hst hcredit) s.syn_recvBuf (hother 0)

theorem heads_handle (hn : s.newFrame = true) : s.Heads s.handle := by
  unfold handle
  split
  · exact heads_handleData hn ‹_›
  · rename_i hdata
    split
    · exact heads_handleUpdate ‹_›
    · split
      · refine .done ?_ ?_ fun _ h => absurd h hdata
        · split
          · exact .of_streams rfl rfl
          · exact .refl s
        · split <;> rfl
      · split
        · unfold handleGoAway
          split
          · exact .done (.of_streams rfl rfl) rfl fun _ h => absurd h hdata
          · exact heads_failed (.refl s) rfl
        · exact heads_failed (.refl s) rfl

/-! ## What has arrived of a payload -/

/-- The effect of the payload part: the next `n` bytes of the input go to the stream of the
frame, if there is one. -/
structure Carries (s t : Session) (n : Nat) : Prop where
  recvBuf : t.recvBuf = s.recvBuf.drop n
  hdr : t.hdr = s.hdr
  remain : t.frameRemain.toNat = s.frameRemain.toNat - n
  newFrame : t.newFrame = if s.frameRemain.toNat = n then true else s.newFrame
  others : ∀ i, i ≠ hdrStreamId s.hdr → t.streams i = s.streams i
  own : t.streams (hdrStreamId s.hdr) =
    (s.streams (hdrStreamId s.hdr)).map fun st => s.received st n

/-- The end of a frame, in terms of the bytes moved. -/
theorem carries_closeFrame {n : Nat} (hle : n ≤ s.frameRemain.toNat)
    (hb : t.recvBuf = s.recvBuf.drop n) (hh : t.hdr = s.hdr) (hn : t.newFrame = s.newFrame)
    (hr : t.frameRemain = s.frameRemain - UInt32.ofNat n)
    (hothers : ∀ i, i ≠ hdrStreamId s.hdr → t.streams i = s.streams i)
    (hown : t.streams (hdrStreamId s.hdr) =
      (s.streams (hdrStreamId s.hdr)).map fun st => s.received st n) :
    s.Carries t.closeFrame n := by
  have hremain : t.frameRemain.toNat = s.frameRemain.toNat - n := by
    rw [hr, toNat_sub_ofNat hle]
  refine ⟨hb, hh, hremain, ?_, hothers, hown⟩
  have hzero : t.frameRemain = 0 ↔ s.frameRemain.toNat = n := by
    rw [← UInt32.toNat_inj, hremain]
    change _ - _ = 0 ↔ _
    omega
  change (if t.frameRemain = 0 then true else t.newFrame) = _
  rw [hn]
  exact if_congr hzero rfl rfl

/-- A payload that is not torn moves as much as has arrived. -/
theorem carries_payload (hwhole : s.streams (hdrStreamId s.hdr) = none → s.Short →
    s.recvBuf.length % sliceSize = 0) :
    s.Carries s.payload (min s.frameRemain.toNat s.recvBuf.length) := by
  cases hst : s.streams (hdrStreamId s.hdr) with
  | some st =>
    rw [payload_live hst]
    refine carries_closeFrame (min_le_left _ _) rfl rfl rfl rfl
      (fun i hi => s.setStream_of_ne _ _ hi) ?_
    rw [deliver_same, hst]
    rfl
  | none =>
    have hskip : skipped s.frameRemain.toNat s.recvBuf.length =
        min s.frameRemain.toNat s.recvBuf.length := by
      by_cases hshort : s.Short
      · have hlt : s.recvBuf.length < s.frameRemain.toNat := hshort
        have hadd := skipped_add hlt.le (hwhole hst hshort) 0
        rw [skipped_zero, Nat.add_zero] at hadd
        rw [hadd, min_eq_right hlt.le]
      · have hle : s.frameRemain.toNat ≤ s.recvBuf.length := Nat.le_of_not_lt hshort
        rw [skipped_of_le hle, min_eq_left hle]
    rw [payload_skip hst, hskip]
    refine carries_closeFrame (min_le_left _ _) rfl rfl rfl rfl (fun _ _ => rfl) ?_
    change s.streams _ = _
    rw [hst]
    rfl

end Session

end Yamux
