import Yamux.Receive.Quiet

/-!
# The receive loop is total

Whatever bytes arrive and whichever allocations fail, `session_process` returns
and no assertion of the receive path fails. What carries the proof is `RxOk`,
which every handler and every early return restores: a frame in progress is a
DATA frame with payload to come.
-/

namespace Yamux

open Core Prog

/-! ## Payloads -/

theorem recvBuf_ne_nil {b : Bytes} (h : bioPending b ≠ 0) : b ≠ [] := by
  rintro rfl
  exact h bioPending_nil

theorem bioPending_le (b : Bytes) : bioPending b ≤ b.length := by
  unfold bioPending toInt32
  rw [Int.bmod_def]
  omega

/-- Part of the input has been moved, or none yet. -/
structure Moved (s t : Session) : Prop where
  newFrame : t.newFrame = s.newFrame
  hdr : t.hdr = s.hdr
  streams : ∀ i, (s.streams i).isSome → (t.streams i).isSome
  progress : (t.recvBuf = s.recvBuf ∧ t.frameRemain = s.frameRemain) ∨
    t.recvBuf.length < s.recvBuf.length

namespace Moved

variable {s t u : Session}

theorem trans (h : Moved s t) (h' : Moved t u) : Moved s u := by
  refine ⟨h'.newFrame.trans h.newFrame, h'.hdr.trans h.hdr,
    fun i hi => h'.streams i (h.streams i hi), ?_⟩
  rcases h.progress with ⟨hb, hr⟩ | hlt
  · rw [← hb, ← hr]
    exact h'.progress
  · rcases h'.progress with ⟨hb', -⟩ | hlt'
    · exact .inr (hb' ▸ hlt)
    · exact .inr (hlt'.trans hlt)

theorem length_le (h : Moved s t) : t.recvBuf.length ≤ s.recvBuf.length := by
  rcases h.progress with ⟨hb, -⟩ | hlt
  · rw [hb]
  · exact hlt.le

end Moved

theorem Keeps.moved {s t : Session} (h : Keeps s t) : Moved s t :=
  ⟨h.newFrame, h.hdr, h.streams, .inl ⟨h.recvBuf, h.frameRemain⟩⟩

section Payload

variable {ok : Call → Bool → Prop} {s : Session} {id : UInt32} {live : Bool}

/-- A slice is moved as a whole or not at all, and `bio_peek` finds at least one byte. -/
theorem total_deliverSlice (h : (s.streams id).isSome) {size : Nat} (hsize : 0 < size)
    (hle : size ≤ sliceSize) (hne : s.recvBuf ≠ []) :
    (Env.alone ok).wp (deliverSlice id size) (fun o t => Keeps s t ∧
      (o = .ret none ∨ o = .ret (some (s.recvBuf.take size).length))) s := by
  have hpos : 0 < (s.recvBuf.take size).length := by
    have := List.length_pos_of_ne_nil hne
    rw [List.length_take]
    omega
  have hr : toInt32 (s.recvBuf.take size).length = (s.recvBuf.take size).length :=
    toInt32_eq (by rw [List.length_take]; simp only [sliceSize] at hle; omega)
  have hcheck : decide (0 < ((s.recvBuf.take size).length : Int)) = true :=
    decide_eq_true (Int.natCast_pos.mpr hpos)
  rw [deliverSlice, Env.alone_read_bind, hr, Env.alone_check_bind hcheck]
  refine (quiet_acquire _).bind fun _ t₁ h₁ => ?_
  refine (quiet_bioWrite _).bind fun res t₂ h₂ => ?_
  have hs₂ := h₂.streams id (h₁.streams id h)
  refine (quiet_onStream hs₂).bind fun _ t₃ h₃ => ?_
  have hs₃ := h₃.streams id hs₂
  have hk := (h₁.trans h₂).trans h₃
  split
  · refine (quiet_sessionGoAwayForReason _).bind fun _ t₄ h₄ => ?_
    refine (quiet_release _).bind fun _ t₅ h₅ => ?_
    exact Env.alone_pure.mpr ⟨hk.trans (h₄.trans h₅), .inl rfl⟩
  · refine (quiet_release _).bind fun _ t₄ h₄ => ?_
    refine (quiet_streamReadableNotify (h₄.streams id hs₃)).bind fun woken t₅ h₅ => ?_
    have hk' := hk.trans (h₄.trans h₅)
    split
    · refine (quiet_sessionGoAwayForReason _).bind fun _ t₆ h₆ => ?_
      exact Env.alone_pure.mpr ⟨hk'.trans h₆, .inl rfl⟩
    · exact Env.alone_pure.mpr ⟨hk', .inr rfl⟩

/-- A round of the payload loop exits, or shortens both the frame and the input. -/
theorem total_payloadRound (h : live = true → (s.streams id).isSome) :
    (Env.alone ok).wp (payloadRound id live) (fun o t =>
      (o = .ret (some 0) ∧ t = s ∧ (s.frameRemain = 0 ∨ bioPending s.recvBuf = 0)) ∨
      (o = .ret (some (-1)) ∧ Keeps s t ∧ s.frameRemain ≠ 0) ∨
      (o = .ret none ∧ Moved s t ∧ t.recvBuf.length < s.recvBuf.length ∧
        t.frameRemain.toNat < s.frameRemain.toNat)) s := by
  rw [payloadRound, Env.alone_read_bind, Env.alone_read_bind]
  by_cases hexit : s.frameRemain = 0 ∨ bioPending s.recvBuf = 0
  · rw [if_pos hexit, Env.alone_pure]
    exact .inl ⟨rfl, rfl, hexit⟩
  · rw [if_neg hexit]
    dsimp only
    obtain ⟨hr, hpending⟩ := not_or.mp hexit
    have hne := recvBuf_ne_nil hpending
    have hr' : 0 < s.frameRemain.toNat := Nat.pos_of_ne_zero fun h => hr (UInt32.toNat_inj.mp h)
    have hb : 0 < s.recvBuf.length := List.length_pos_of_ne_nil hne
    have hmin : 0 < min s.frameRemain.toNat sliceSize := by
      simp only [sliceSize]
      omega
    have hmove {r : Nat} {t : Session} (ht : Keeps s t) (h0 : 0 < r)
        (hle : r ≤ s.frameRemain.toNat) :
        Moved s { t with
          recvBuf := t.recvBuf.drop r
          frameRemain := t.frameRemain - UInt32.ofNat r } ∧
        (t.recvBuf.drop r).length < s.recvBuf.length ∧
        (t.frameRemain - UInt32.ofNat r).toNat < s.frameRemain.toNat := by
      rw [ht.recvBuf, ht.frameRemain, toNat_sub_ofNat hle, List.length_drop]
      refine ⟨⟨ht.newFrame, ht.hdr, ht.streams, .inr ?_⟩, by omega, by omega⟩
      simp only [List.length_drop]
      omega
    cases live
    · rw [if_neg Bool.false_ne_true, Env.wp_bind, Env.alone_pure, Env.post_ret,
        Env.alone_modify_bind, Env.alone_pure]
      exact .inr (.inr ⟨rfl, hmove (Keeps.refl s) hmin (min_le_left _ _)⟩)
    · rw [if_pos rfl, Env.wp_bind]
      refine Env.wp_mono _ (total_deliverSlice (h rfl) hmin (min_le_right _ _) hne) ?_
      rintro o t ⟨ht, rfl | rfl⟩
      · rw [Env.post_ret, Env.alone_pure]
        exact .inr (.inl ⟨rfl, ht, hr⟩)
      · rw [Env.post_ret, Env.alone_modify_bind, Env.alone_pure]
        refine .inr (.inr ⟨rfl, hmove ht ?_ ?_⟩) <;> rw [List.length_take] <;> omega

/-- The payload loop ends, at the end of the frame or of the input or on failure
in the middle of a frame. -/
theorem total_payloadLoop (h : live = true → (s.streams id).isSome) :
    (Env.alone ok).wp (loop (s.frameRemain.toNat + 1) (payloadRound id live)) (fun o t =>
      Moved s t ∧ ((o = .ret 0 ∧ (t.frameRemain = 0 ∨ bioPending t.recvBuf = 0)) ∨
        (o = .ret (-1) ∧ t.frameRemain ≠ 0))) s := by
  refine Env.alone_loop (I := Moved s) (m := fun t => t.frameRemain.toNat) ?_
    (Nat.lt_succ_self _) (Keeps.refl s).moved
  intro t ht
  have hlive : live = true → (t.streams id).isSome := fun hl => ht.streams id (h hl)
  refine Env.wp_mono _ (total_payloadRound hlive) ?_
  rintro o u (⟨rfl, rfl, hexit⟩ | ⟨rfl, hu, hr⟩ | ⟨rfl, hu, -, hlt⟩)
  · exact .inl ⟨0, rfl, ht, .inl ⟨rfl, hexit⟩⟩
  · exact .inl ⟨-1, rfl, ht.trans hu.moved, .inr ⟨rfl, hu.frameRemain ▸ hr⟩⟩
  · exact .inr ⟨rfl, ht.trans hu, hlt⟩

/-- What a handler leaves behind, and that it has used up input whenever a frame
was in progress and it succeeds. -/
structure Handled (s : Session) (o : Outcome Int) (t : Session) : Prop where
  returns : ∃ r, o = .ret r
  rxOk : t.RxOk
  length_le : t.recvBuf.length ≤ s.recvBuf.length
  length_lt : o = .ret 0 → s.newFrame = false → t.recvBuf.length < s.recvBuf.length

/-- The payload part on a frame with payload to come and input to take it from. -/
theorem total_handlePayload (h : live = true → (s.streams id).isSome)
    (hd : hdrType s.hdr = TYPE_DATA) :
    (Env.alone ok).wp (handlePayload id live) (fun o t =>
      (∃ r, o = .ret r) ∧ t.RxOk ∧ t.recvBuf.length ≤ s.recvBuf.length ∧
      (o = .ret 0 → s.frameRemain ≠ 0 → bioPending s.recvBuf ≠ 0 →
        t.recvBuf.length < s.recvBuf.length)) s := by
  rw [handlePayload, Env.alone_read_bind, Env.wp_bind]
  refine Env.wp_mono _ (total_payloadLoop h) ?_
  rintro o t ⟨ht, ⟨rfl, hexit⟩ | ⟨rfl, hr⟩⟩
  · rw [Env.post_ret, if_neg (not_not.mpr rfl), Env.alone_modify_bind, Env.alone_pure]
    refine ⟨⟨0, rfl⟩, fun hn => ⟨ht.hdr ▸ hd, ?_⟩, ht.length_le, fun _ hr hne => ?_⟩
    · by_contra hz
      simp [show t.frameRemain = 0 from hz] at hn
    · rcases ht.progress with ⟨hb, hf⟩ | hlt
      · rw [hb, hf] at hexit
        exact absurd hexit (not_or.mpr ⟨hr, hne⟩)
      · exact hlt
  · rw [Env.post_ret, if_pos (by decide), Env.alone_pure]
    exact ⟨⟨-1, rfl⟩, fun _ => ⟨ht.hdr ▸ hd, hr⟩, ht.length_le, by simp⟩

end Payload

/-! ## Handlers -/

section Handlers

variable {ok : Call → Bool → Prop} {s : Session}

/-- A quiet handler of a new frame. -/
theorem Quiet.handled {p : Op Int} (hp : Quiet ok p s) (hn : s.newFrame = true) :
    (Env.alone ok).wp p (Handled s) s := by
  refine Env.wp_mono _ hp ?_
  rintro o t ⟨hret, ht⟩
  refine ⟨hret, fun hf => ?_, ht.recvBuf ▸ le_rfl, fun _ hf => ?_⟩
  · rw [ht.newFrame, hn] at hf
    contradiction
  · rw [hn] at hf
    contradiction

theorem Handled.of_keeps {s t u : Session} {o : Outcome Int} (h : Keeps s t) (h' : Handled t o u) :
    Handled s o u :=
  ⟨h'.returns, h'.rxOk, h.recvBuf ▸ h'.length_le, fun ho hn =>
    h.recvBuf ▸ h'.length_lt ho (h.newFrame.trans hn)⟩

theorem total_startPayload {id : UInt32} {live : Bool} (len : UInt32)
    (h : live = true → (s.streams id).isSome)
    (hd : hdrType s.hdr = TYPE_DATA) (hn : s.newFrame = true) :
    (Env.alone ok).wp (startPayload id live len) (Handled s) s := by
  rw [startPayload, Env.alone_modify_bind]
  refine Env.wp_mono _ (total_handlePayload (s := { s with frameRemain := len, newFrame := false })
    h hd) ?_
  rintro o t ⟨hret, hok, hle, -⟩
  exact ⟨hret, hok, hle, fun _ hf => absurd hf (by simp [hn])⟩

theorem total_handleDataHeader (hd : hdrType s.hdr = TYPE_DATA) (hn : s.newFrame = true) :
    (Env.alone ok).wp handleDataHeader (Handled s) s := by
  rw [handleDataHeader, Env.alone_read_bind]
  dsimp only
  rw [sessionFindStream, Env.alone_read_bind]
  have hstart {live : Bool} {t : Session} (ht : Keeps s t)
      (h : live = true → (t.streams (hdrStreamId s.hdr)).isSome) :
      (Env.alone ok).wp (startPayload (hdrStreamId s.hdr) live (hdrLength s.hdr))
        (Handled s) t :=
    Env.wp_mono _ (total_startPayload _ h (ht.hdr ▸ hd) (ht.newFrame.trans hn)) fun _ _ =>
      Handled.of_keeps ht
  have hquiet {p : Op Int} {t : Session} (ht : Keeps s t) (hp : Quiet ok p t) :
      (Env.alone ok).wp p (Handled s) t :=
    Env.wp_mono _ (hp.handled (ht.newFrame.trans hn)) fun _ _ => Handled.of_keeps ht
  cases hst : (s.streams (hdrStreamId s.hdr)).isSome
  · rw [if_neg Bool.false_ne_true]
    exact hstart (Keeps.refl s) (by simp)
  · rw [if_pos rfl]
    refine (quiet_streamProcessFlags hst _).bind fun r t ht => ?_
    have hst₁ := ht.streams _ hst
    split
    · exact hquiet ht (quiet_goAway_then _ _)
    · split
      · exact hquiet ht (quiet_pure 0)
      · refine (quiet_acquire _).bind fun _ u hu => ?_
        have hst₂ := hu.streams _ hst₁
        refine (quiet_onStream hst₂).bind fun window v hv => ?_
        have hk := ht.trans (hu.trans hv)
        split
        · exact hquiet hk (quiet_bind (quiet_sessionGoAwayForReason _) fun _ _ _ =>
            quiet_bind (quiet_release _) fun _ _ _ => quiet_pure _)
        · refine (quiet_release _).bind fun _ w hw => ?_
          exact hstart (hk.trans hw) fun _ => hw.streams _ (hv.streams _ hst₂)

theorem quiet_synFlag (hn : s.newFrame = true) (flags : UInt16) :
    Quiet ok (if hasFlag flags FLAG_SYN then incomingStream else pure 0) s := by
  split
  · exact quiet_incomingStream hn
  · exact quiet_pure _

theorem total_sessionHandleData (hd : hdrType s.hdr = TYPE_DATA)
    (hok : s.newFrame = false → s.frameRemain ≠ 0)
    (hne : s.newFrame = false → bioPending s.recvBuf ≠ 0) :
    (Env.alone ok).wp sessionHandleData (Handled s) s := by
  rw [sessionHandleData, Env.alone_read_bind, Env.alone_read_bind]
  cases hn : s.newFrame
  · rw [if_neg Bool.false_ne_true]
    dsimp only
    rw [sessionFindStream, Env.alone_read_bind]
    refine Env.wp_mono _ (total_handlePayload id hd) ?_
    rintro o t ⟨hret, ht, hle, hlt⟩
    exact ⟨hret, ht, hle, fun ho _ => hlt ho (hok hn) (hne hn)⟩
  · rw [if_pos rfl]
    refine (quiet_synFlag hn _).bind fun r t ht => ?_
    split
    · exact Env.wp_mono _ ((quiet_pure (-1)).handled (ht.newFrame.trans hn)) fun _ _ =>
        Handled.of_keeps ht
    · exact Env.wp_mono _ (total_handleDataHeader (ht.hdr ▸ hd) (ht.newFrame.trans hn))
        fun _ _ => Handled.of_keeps ht

theorem quiet_sessionHandleWindowUpdate (hn : s.newFrame = true) :
    Quiet ok sessionHandleWindowUpdate s := by
  rw [Quiet, sessionHandleWindowUpdate, Env.alone_read_bind, Env.alone_check_bind hn,
    Env.alone_read_bind]
  refine quiet_bind (quiet_synFlag hn _) fun r t ht => ?_
  split
  · exact quiet_pure _
  · dsimp only
    rw [Quiet, sessionFindStream, Env.alone_read_bind]
    cases hst : (t.streams (hdrStreamId s.hdr)).isSome
    · exact quiet_pure _
    · refine quiet_bind (quiet_streamProcessFlags hst _) fun r u hu => ?_
      have hst₁ := hu.streams _ hst
      split
      · exact quiet_goAway_then _ _
      · split
        · exact quiet_pure _
        · refine quiet_bind (quiet_onStream hst₁) fun _ v hv => ?_
          refine quiet_bind (quiet_streamWriteableNotify (hv.streams _ hst₁)) fun woken w _ => ?_
          split
          · exact quiet_goAway_then _ _
          · exact quiet_pure _

theorem quiet_sessionHandlePing (hn : s.newFrame = true) : Quiet ok sessionHandlePing s := by
  rw [Quiet, sessionHandlePing, Env.alone_read_bind, Env.alone_check_bind hn, Env.alone_read_bind]
  split
  · refine quiet_bind (quiet_sessionSendBufWrite _) fun r t _ => ?_
    split
    · exact quiet_goAway_then _ _
    · exact quiet_pure _
  · exact quiet_pure _

theorem quiet_sessionHandleGoAway (hn : s.newFrame = true) :
    Quiet ok sessionHandleGoAway s := by
  rw [Quiet, sessionHandleGoAway, Env.alone_read_bind, Env.alone_check_bind hn,
    Env.alone_read_bind]
  split
  · exact quiet_bind (quiet_modify ⟨rfl, rfl, rfl, rfl, fun _ h => h⟩) fun _ _ _ => quiet_pure _
  · exact quiet_pure _

/-- Every handler returns, and the saved header decides which one runs: in the
middle of a frame only the DATA handler does, so the other handlers' assertion
that a frame is new holds. -/
theorem total_sessionHandle (hok : s.RxOk)
    (hne : s.newFrame = false → bioPending s.recvBuf ≠ 0) :
    (Env.alone ok).wp sessionHandle (Handled s) s := by
  rw [sessionHandle, Env.alone_read_bind]
  split
  · exact total_sessionHandleData ‹_› (fun hn => (hok hn).2) hne
  · rename_i hd
    have hn : s.newFrame = true := by
      by_contra hf
      exact hd (hok (Bool.eq_false_iff.mpr hf)).1
    split
    · exact (quiet_sessionHandleWindowUpdate hn).handled hn
    · split
      · exact (quiet_sessionHandlePing hn).handled hn
      · split
        · exact (quiet_sessionHandleGoAway hn).handled hn
        · exact (quiet_pure (-1)).handled hn

/-! ## The loop -/

/-- What a round leaves behind when it ends in `o`. -/
def RoundEnd (s : Session) (o : Outcome (Option Int)) (t : Session) : Prop :=
  t.RxOk ∧ t.recvBuf.length ≤ s.recvBuf.length ∧
    ((∃ r, o = .ret (some r)) ∨ (o = .ret none ∧ t.recvBuf.length < s.recvBuf.length))

/-- What the result of a handler means for the loop. -/
theorem total_verdict {t : Session} (hle : t.recvBuf.length ≤ s.recvBuf.length)
    (hstrict : t.newFrame = true → t.recvBuf.length < s.recvBuf.length)
    (h : (Env.alone ok).wp sessionHandle (Handled t) t) :
    (Env.alone ok).wp (do
      let r ← sessionHandle
      pure (if r ≠ 0 then some (-1) else none)) (RoundEnd s) t := by
  rw [Env.wp_bind]
  refine Env.wp_mono _ h ?_
  rintro o u ⟨⟨r, rfl⟩, hok, hle', hlt⟩
  rw [Env.post_ret, Env.alone_pure]
  refine ⟨hok, hle'.trans hle, ?_⟩
  by_cases hr : r = 0
  · refine .inr ⟨by rw [if_neg (not_not.mpr hr)], ?_⟩
    cases hn : t.newFrame
    · exact (hlt (hr ▸ rfl) hn).trans_le hle
    · exact hle'.trans_lt (hstrict hn)
  · exact .inl ⟨-1, by rw [if_pos hr]⟩

/-- A round of the loop of `session_process` exits, or shortens the input; the
read of a header finds twelve bytes. -/
theorem total_processRound (hok : s.RxOk) :
    (Env.alone ok).wp processRound (RoundEnd s) s := by
  rw [processRound, Env.alone_read_bind, Env.alone_read_bind]
  by_cases hz : bioPending s.recvBuf = 0
  · rw [if_pos hz, Env.alone_pure]
    exact ⟨hok, le_rfl, .inl ⟨0, rfl⟩⟩
  · rw [if_neg hz]
    by_cases hshort : s.newFrame = true ∧ bioPending s.recvBuf < hdrSize
    · rw [if_pos hshort, Env.alone_pure]
      exact ⟨hok, le_rfl, .inl ⟨0, rfl⟩⟩
    · rw [if_neg hshort]
      cases hn : s.newFrame
      · rw [if_neg Bool.false_ne_true, Env.wp_bind, Env.alone_pure, Env.post_ret, if_pos rfl]
        exact total_verdict le_rfl (fun h => absurd h (by simp [hn]))
          (total_sessionHandle hok fun _ => hz)
      · have hfull : hdrSize ≤ s.recvBuf.length := by
          by_contra h
          have hle := bioPending_le s.recvBuf
          exact hshort ⟨hn, by omega⟩
        have htake : (s.recvBuf.take hdrSize).length = hdrSize := by
          rw [List.length_take]
          omega
        have hdrop : (s.recvBuf.drop hdrSize).length < s.recvBuf.length := by
          rw [List.length_drop]
          simp only [hdrSize] at hfull ⊢
          omega
        have hnew : ({ s with
            hdr := s.recvBuf.take hdrSize
            recvBuf := s.recvBuf.drop hdrSize } : Session).RxOk :=
          fun h => absurd h (by simp [hn])
        rw [if_pos rfl, readHeader, Env.wp_bind, Env.wp_bind, Env.alone_crit, Env.post_ret,
          Env.alone_check_bind (decide_eq_true htake), Env.alone_pure, Env.post_ret]
        split
        · exact total_verdict hdrop.le (fun _ => hdrop)
            (total_sessionHandle hnew fun h => absurd h (by simp [hn]))
        · rw [Env.alone_pure]
          exact ⟨hnew, hdrop.le, .inl ⟨-1, rfl⟩⟩

/-- A call of `session_process` returns and restores the invariant. -/
theorem total_sessionProcess (hok : s.RxOk) :
    (Env.alone ok).wp sessionProcess (fun o t => (∃ r, o = .ret r) ∧ t.RxOk) s := by
  rw [sessionProcess, Env.wp_bind, Env.alone_acquire, Env.post_ret, Env.alone_read_bind,
    Env.wp_bind]
  refine Env.alone_loop (I := Session.RxOk) (m := fun t => t.recvBuf.length) ?_
    (Nat.lt_succ_self _) hok
  intro t ht
  refine Env.wp_mono _ (total_processRound ht) ?_
  rintro o u ⟨hu, -, ⟨r, rfl⟩ | ⟨rfl, hlt⟩⟩
  · refine .inl ⟨r, rfl, ?_⟩
    rw [Env.post_ret, Env.wp_bind, Env.alone_release, Env.post_ret, Env.alone_pure]
    exact ⟨⟨r, rfl⟩, hu⟩
  · exact .inr ⟨rfl, hu, hlt⟩

end Handlers

/-! ## Every state that input can lead to -/

/-- The states that feeding leads to, whatever is fed, in whatever chunks, and
whichever allocations fail; a result of -1 does not end the feeding. -/
inductive Fed (client : Bool) (rcvbuf : UInt32) : Session → Prop where
  | init : Fed client rcvbuf (sessionInit client rcvbuf)
  | write {s : Session} (h : Fed client rcvbuf s) (data : Bytes) {ans : Answers Call}
      (ha : Env.Allowed socketsOk ans) :
      Fed client rcvbuf ((sessionRecvBufWrite data).run ans s).2.2
  | process {s : Session} (h : Fed client rcvbuf s) (hlen : s.recvBuf.length < 2 ^ 31)
      {ans : Answers Call} (ha : Env.Allowed socketsOk ans) :
      Fed client rcvbuf (sessionProcess.run ans s).2.2

theorem rxOk_sessionInit (client : Bool) (rcvbuf : UInt32) :
    (sessionInit client rcvbuf).RxOk := by
  intro h
  simp [sessionInit] at h

theorem total_sessionRecvBufWrite {ok : Call → Bool → Prop} {s : Session} (hok : s.RxOk)
    (data : Bytes) :
    (Env.alone ok).wp (sessionRecvBufWrite data) (fun _ t => t.RxOk) s := by
  rw [sessionRecvBufWrite]
  refine (quiet_bioWrite data).bind fun r t ht => ?_
  rw [Env.alone_modify_bind, Env.alone_pure]
  exact fun hn => ht.rxOk hok hn

theorem Fed.rxOk {client : Bool} {rcvbuf : UInt32} {s : Session} (h : Fed client rcvbuf s) :
    s.RxOk := by
  induction h with
  | init => exact rxOk_sessionInit client rcvbuf
  | write h data ha ih => exact (Env.wp_run (total_sessionRecvBufWrite ih data) ha).1
  | process h hlen ha ih => exact (Env.wp_run (total_sessionProcess ih) ha).1.2

end Yamux
