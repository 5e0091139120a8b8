import Yamux.Sending.Amounts

/-!
# The send window as a balance

The window of a stream is what it started with, plus what updates have granted,
minus what writes have queued, as long as no update makes the sum pass `2 ^ 32` and
no write queues the one count that reads as a failure.
-/

namespace Yamux

open Core Prog Session

/-- What moves the send window of a stream: updates of the peer, and writes. -/
inductive Traffic where
  | update (flags : UInt16) (id delta : UInt32)
  | write (id : UInt32) (data : Bytes)

namespace Traffic

/-- The program of a step. -/
def code : Traffic → Op Int
  | .update flags id delta => do
    let _ ← sessionRecvBufWrite (Frame.windowUpdate flags id delta).bytes
    sessionProcess
  | .write id data => streamWrite id data

/-- A step from `s` to `t` in which `session_process` does not fail. -/
def Happens (e : Traffic) (s t : Session) : Prop :=
  ∃ r, e.code.exec s = (.ret r, t) ∧ ∀ flags id delta, e = .update flags id delta → r ≠ -1

/-- The credit that a step grants to a stream. -/
def granted (id : UInt32) : Traffic → Nat
  | .update _ i delta => if i = id then delta.toNat else 0
  | .write _ _ => 0

/-- The payload bytes that a write has queued for a stream. -/
def queued (id : UInt32) (s t : Session) : Traffic → Nat
  | .update _ _ _ => 0
  | .write _ _ =>
    (Frame.payloadFor id (Frame.decode (t.sendBuf.drop s.sendBuf.length))).length

/-- The step neither makes the window wrap nor queues the count that reads as -1. -/
def Fits (id : UInt32) (s : Session) : Traffic → Prop
  | .update _ i delta => i = id → ∀ st, s.streams id = some st →
    st.sendWindow.toNat + delta.toNat < 2 ^ 32
  | .write i data => i = id → ∀ st, s.streams id = some st →
    st.state.WriteClosed ∨ min st.sendWindow.toNat data.length ≠ 2 ^ 32 - 1

end Traffic

/-- Runs of updates and writes on a session between frames, from a stream with a
full window on, with the credit granted and the bytes queued so far. -/
inductive WindowRun (ok : Session → Traffic → Prop) (id : UInt32) : Session → Nat → Nat → Prop where
  | start {s : Session} {st : Stream} (hn : s.newFrame = true) (hb : s.recvBuf = [])
      (hst : s.streams id = some st) (hw : st.sendWindow = MAX_STREAM_WINDOW_SIZE) :
      WindowRun ok id s 0 0
  | step {s t : Session} {granted queued : Nat} (h : WindowRun ok id s granted queued)
      (e : Traffic) (hok : ok s e) (he : e.Happens s t) :
      WindowRun ok id t (granted + e.granted id) (queued + e.queued id s t)

/-- The window of a stream accounts for what was granted and queued. -/
def Balanced (id : UInt32) (s : Session) (granted queued : Nat) : Prop :=
  ∃ st, s.streams id = some st ∧ st.sendWindow.toNat + queued = 262144 + granted

variable {s t : Session} {id i : UInt32} {st : Stream}

/-! ## Updates -/

theorem update_happens {flags : UInt16} {delta : UInt32} (hn : s.newFrame = true)
    (hb : s.recvBuf = []) (h : (Traffic.update flags i delta).Happens s t) :
    t.newFrame = true ∧ t.recvBuf = [] ∧
      ∃ u, s.absorb (Frame.windowUpdate flags i delta) = some u ∧ t.streams = u.streams := by
  obtain ⟨r, hexec, hr⟩ := h
  have hlen : (Frame.windowUpdate flags i delta).bytes.length < 2 ^ 31 := by
    rw [Frame.length_bytes]
    exact (by decide : hdrSize + 0 < 2 ^ 31)
  rw [Traffic.code, exec_bind, exec_sessionRecvBufWrite, andThen_ret] at hexec
  obtain ⟨-, t', he⟩ | ⟨u, hdr, remain, hu, he⟩ := exec_process_frame hn hb hlen
  · rw [hexec] at he
    exact absurd (Outcome.ret.inj (Prod.mk.inj he).1) (hr flags i delta rfl)
  · rw [hexec] at he
    obtain rfl := (Prod.mk.inj he).2
    exact ⟨rfl, rfl, u, hu, rfl⟩

/-- An update of a stream adds to its window, which may wrap. -/
theorem update_own {flags : UInt16} {delta : UInt32} (hn : s.newFrame = true)
    (hb : s.recvBuf = []) (h : (Traffic.update flags id delta).Happens s t)
    (hst : s.streams id = some st) :
    ∃ st', t.streams id = some st' ∧
      st'.sendWindow.toNat = (st.sendWindow.toNat + delta.toNat) % 2 ^ 32 := by
  obtain ⟨-, -, u, hu, hstreams⟩ := update_happens hn hb h
  have hid : (Frame.windowUpdate flags id delta).id = id := windowUpdate_id flags delta
  have hlen : (Frame.windowUpdate flags id delta).length = delta := hdrLength_hdrEncode _ _ _ _
  have htype : ¬ (Frame.windowUpdate flags id delta).type = TYPE_DATA :=
    (by decide : ¬ TYPE_WINDOW_UPDATE = TYPE_DATA)
  obtain ⟨st', hst', hab⟩ := absorb_present (.inr rfl) hu (hid.symm ▸ hst)
  rw [hid] at hst'
  refine ⟨st', hstreams ▸ hst', ?_⟩
  obtain ⟨st₁, hflags, hab⟩ := Option.bind_eq_some_iff.mp hab
  have hwindow := (Stream.processFlags_keeps hflags).2.2
  rw [if_neg htype] at hab
  obtain rfl := Option.some.inj hab
  rw [hlen, Stream.refill]
  have hlt := st.sendWindow.toNat_lt
  split
  · rename_i hz
    rw [hwindow, hz]
    change _ = (_ + 0) % _
    omega
  · dsimp only
    rw [UInt32.toNat_add, hwindow]

theorem update_other {flags : UInt16} {delta : UInt32} (hn : s.newFrame = true)
    (hb : s.recvBuf = []) (h : (Traffic.update flags i delta).Happens s t) (hi : i ≠ id) :
    t.streams id = s.streams id := by
  obtain ⟨-, -, u, hu, hstreams⟩ := update_happens hn hb h
  rw [hstreams, absorb_other hu fun _ => ?_]
  rwa [windowUpdate_id flags delta]

/-! ## Writes -/

/-- A write finds the stream closed or without window, or queues one frame. -/
theorem write_happens {data : Bytes} (h : (Traffic.write i data).Happens s t) :
    ∃ st, s.streams i = some st ∧
      ((t = s ∧ (st.state.WriteClosed ∨ st.sendWindow = 0)) ∨
      (¬ st.state.WriteClosed ∧ ∃ st' f, t = (s.setStream i st').queue (Frame.encode [f]) ∧
        f.id = i ∧ f.payload.length = min st.sendWindow.toNat data.length ∧
        st'.sendWindow.toNat =
          if min st.sendWindow.toNat data.length = 2 ^ 32 - 1 then st.sendWindow.toNat
          else st.sendWindow.toNat - min st.sendWindow.toNat data.length)) := by
  obtain ⟨r, hexec, -⟩ := h
  rw [Traffic.code] at hexec
  cases hst : s.streams i with
  | none =>
    rw [exec_streamWrite_dead hst] at hexec
    cases hexec
  | some st =>
    refine ⟨st, rfl, ?_⟩
    by_cases hclosed : st.state.WriteClosed
    · rw [exec_streamWrite_closed hst data hclosed] at hexec
      exact .inl ⟨(Prod.mk.inj hexec).2.symm, .inl hclosed⟩
    · by_cases hw : st.sendWindow = 0
      · have hopen : st.state ≠ .localClose ∧ st.state ≠ .closed ∧ st.state ≠ .reset := by
          unfold StreamState.WriteClosed at hclosed
          tauto
        rw [exec_streamWrite_wait hst data hopen hw] at hexec
        exact .inl ⟨(Prod.mk.inj hexec).2.symm, .inr hw⟩
      · obtain ⟨f, hf, hid, htype, -, -, hpay⟩ := Net.writeFrame_eq st i data
        have hlen : f.payload.length = min st.sendWindow.toNat data.length := by
          rw [hpay, List.length_take, writeMax_eq]
          omega
        rw [exec_streamWrite_amount hst hclosed hw, ← hf] at hexec
        refine .inr ⟨hclosed, ?_⟩
        split at hexec
        · rename_i hbig
          refine ⟨_, f, (Prod.mk.inj hexec).2.symm, hid, hlen, ?_⟩
          rw [if_pos hbig, Stream.sendFlags_sendWindow]
        · rename_i hsmall
          refine ⟨_, f, (Prod.mk.inj hexec).2.symm, hid, hlen, ?_⟩
          have hle : writeMax st.sendWindow data.length ≤ st.sendWindow := by
            rw [UInt32.le_iff_toNat_le, writeMax_eq]
            exact min_le_left _ _
          rw [if_neg hsmall, (Net.afterWrite_spec st data.length).2.2.2,
            UInt32.toNat_sub_of_le _ _ hle, writeMax_eq]

/-- The payload of the one frame that was appended. -/
theorem queued_frame {f : Frame} {data : Bytes} (h : t.sendBuf = s.sendBuf ++ Frame.encode [f]) :
    (Traffic.write i data).queued id s t = if f.id = id then f.payload.length else 0 := by
  rw [Traffic.queued, h, List.drop_left, Frame.decode_encode, Frame.payloadFor_cons,
    Frame.payloadFor_nil, List.append_nil]
  split
  · rfl
  · rfl

theorem queued_self {data : Bytes} : (Traffic.write i data).queued id s s = 0 := by
  rw [Traffic.queued, List.drop_length]
  rfl

/-! ## Runs -/

/-- A step keeps the account exactly if it fits. -/
theorem balanced_step {e : Traffic} {granted queued : Nat} (hn : s.newFrame = true)
    (hb : s.recvBuf = []) (hbal : Balanced id s granted queued) (h : e.Happens s t) :
    t.newFrame = true ∧ t.recvBuf = [] ∧
      (Balanced id t (granted + e.granted id) (queued + e.queued id s t) ↔ e.Fits id s) := by
  obtain ⟨st, hst, hsum⟩ := hbal
  have hlt := st.sendWindow.toNat_lt
  cases e with
  | update flags i delta =>
    obtain ⟨hn', hb', -⟩ := update_happens hn hb h
    refine ⟨hn', hb', ?_⟩
    by_cases hi : i = id
    · subst hi
      obtain ⟨st', hst', hw⟩ := update_own hn hb h hst
      simp only [Balanced, hst', Option.some.injEq, exists_eq_left', Traffic.granted, if_true,
        Traffic.queued, Traffic.Fits, hst, forall_eq', true_imp_iff]
      have hd := delta.toNat_lt
      omega
    · refine iff_of_true ⟨st, (update_other hn hb h hi).trans hst, ?_⟩ fun he => absurd he hi
      rw [Traffic.granted, if_neg hi]
      exact hsum
  | write i data =>
    obtain ⟨st₁, hst₁, ⟨rfl, hidle⟩ | ⟨hopen, st', f, rfl, hid, hlen, hw⟩⟩ := write_happens h
    · refine ⟨hn, hb, iff_of_true ⟨st, hst, ?_⟩ ?_⟩
      · rw [queued_self]
        exact hsum
      · rintro rfl st₂ hst₂
        obtain rfl := Option.some.inj (hst₁.symm.trans hst₂)
        refine hidle.imp_right fun hz => ?_
        rw [hz]
        change min 0 _ ≠ _
        omega
    · refine ⟨hn, hb, ?_⟩
      rw [queued_frame rfl, hid]
      by_cases hi : i = id
      · subst hi
        obtain rfl := Option.some.inj (hst₁.symm.trans hst)
        have hst' : ((s.setStream i st').queue (Frame.encode [f])).streams i = some st' :=
          s.setStream_same i st'
        simp only [Balanced, hst', Option.some.injEq, exists_eq_left', Traffic.granted, if_true,
          Traffic.Fits, hst, forall_eq', true_imp_iff, hopen, false_or, hlen, hw]
        split <;> omega
      · have hst' : ((s.setStream i st').queue (Frame.encode [f])).streams id = some st :=
          (s.setStream_of_ne i st' (Ne.symm hi)).trans hst
        refine iff_of_true ⟨st, hst', ?_⟩ fun he => absurd he hi
        rw [if_neg hi]
        exact hsum

theorem WindowRun.between {ok : Session → Traffic → Prop} {granted queued : Nat}
    (hok : ∀ s e, ok s e → e.Fits id s) (h : WindowRun ok id s granted queued) :
    s.newFrame = true ∧ s.recvBuf = [] ∧ Balanced id s granted queued := by
  induction h with
  | @start s st hn hb hst hw =>
    refine ⟨hn, hb, st, hst, ?_⟩
    rw [hw, toNat_maxWindow]
    rfl
  | step h e hfits he ih =>
    obtain ⟨hn, hb, hbal⟩ := ih
    obtain ⟨hn', hb', hiff⟩ := balanced_step hn hb hbal he
    exact ⟨hn', hb', hiff.mpr (hok _ _ hfits)⟩

end Yamux
