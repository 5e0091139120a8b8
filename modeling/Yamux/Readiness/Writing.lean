import Yamux.Readiness.Reading

/-!
# The writeable mark

The mark is to tell whether `stream_write` would wait. A write that uses up the window
clears it; credit, FIN and RST set it. FIN sets it also where the window is used up and
the stream can still not be written to.
-/

namespace Yamux

open Core Prog

/-- What `stream_write` returns at once for: window, or a stream that is closed for
writing. -/
def Stream.WriteReady (st : Stream) : Prop :=
  st.sendWindow ≠ 0 ∨ st.state = .localClose ∨ st.state = .closed ∨ st.state = .reset

/-- The mark is right. -/
def Stream.WriteSound (st : Stream) : Prop := st.writeable = true ↔ st.WriteReady

/-- The mark of every stream is right. -/
def Session.WriteSound (s : Session) : Prop := ∀ id st, s.streams id = some st → st.WriteSound

/-! ## Conditions on the calls -/

/-- The stream that a frame is for, which a SYN creates unless the session is leaving. -/
def Session.target (s : Session) (hdr : Bytes) : Option Stream :=
  match s.streams (hdrStreamId hdr) with
  | some st => some st
  | none =>
    if hasFlag (hdrFlags hdr) FLAG_SYN ∧ s.localGoAway = false then
      some (Stream.fresh .synReceived s.rcvbuf)
    else none

namespace Stream

variable {st st' : Stream}

theorem fresh_sendWindow_ne (state : StreamState) (padding : UInt32) :
    (Stream.fresh state padding).sendWindow ≠ 0 := by
  intro h
  have hmax := congrArg UInt32.toNat h
  rw [Stream.fresh, toNat_maxWindow] at hmax
  cases hmax

theorem WriteSound.fresh (state : StreamState) (padding : UInt32) :
    (Stream.fresh state padding).WriteSound :=
  iff_of_true rfl (.inl (fresh_sendWindow_ne state padding))

/-- A mark that is set stays so. -/
theorem wakes_of_writeable (h : st.writeable = true) (mem : Bool) : st.wakes mem = true := by
  rw [wakes, h, Bool.true_or, Bool.true_or]

theorem processAck_writing (st : Stream) (flags : UInt16) :
    (st.processAck flags).sendWindow = st.sendWindow ∧
      (∀ mem, (st.processAck flags).wakes mem = st.wakes mem) ∧
      (st.WriteSound → (st.processAck flags).WriteSound) := by
  unfold processAck
  split
  · rename_i hc
    refine ⟨rfl, fun _ => rfl, fun h => h.trans ?_⟩
    unfold WriteReady
    simp [hc.2]
  · exact ⟨rfl, fun _ => rfl, id⟩

/-- The flags keep the mark right where FIN does not wake a blocked writer and RST
finds it awake. -/
theorem WriteSound.flags {flags : UInt16} {mem mem' : Bool} (h : st.WriteSound)
    (hf : (st.processAck flags).finWith flags mem = some st')
    (hfin : hasFlag flags FLAG_FIN = true → hasFlag flags FLAG_RST = false → st.sendWindow = 0 →
      st.wakes mem = false)
    (hrst : hasFlag flags FLAG_RST = true → st.wakes mem = true ∨ st.wakes mem' = true)
    (hmem : hasFlag flags FLAG_FIN = false → mem' = mem) :
    (st'.rstWith flags mem').WriteSound := by
  obtain ⟨hwindow, hwakes, hack⟩ := st.processAck_writing flags
  have hsound := hack h
  generalize st.processAck flags = st₁ at hf hwindow hwakes hsound
  unfold rstWith
  cases hr : hasFlag flags FLAG_RST with
  | true =>
    rw [if_pos rfl]
    refine iff_of_true ?_ (.inr (.inr (.inr rfl)))
    change st'.wakes mem' = true
    unfold finWith at hf
    split at hf
    · -- FIN has set the mark already if it could
      have hclosed (state : StreamState) (he : st' = st₁.closeTo state mem) :
          st'.wakes mem' = true := by
        subst he
        unfold wakes
        change (st₁.wakes mem || decide (st₁.sendPadding ≤ 4096) || mem') = true
        rcases hrst hr with hw | hw
        · rw [hwakes, hw, Bool.true_or, Bool.true_or]
        · rw [← hwakes] at hw
          unfold wakes at hw ⊢
          rw [Bool.or_eq_true, Bool.or_eq_true] at hw
          rcases hw with (hw | hw) | hw <;> simp [hw]
      cases hst : st₁.state <;> rw [hst] at hf <;> cases hf <;> exact hclosed _ rfl
    · rename_i hnofin
      obtain rfl := Option.some.inj hf
      have hrst' := hrst hr
      rw [hmem (Bool.eq_false_iff.mpr hnofin), or_self, ← hwakes] at hrst'
      rwa [hmem (Bool.eq_false_iff.mpr hnofin)]
  | false =>
    rw [if_neg Bool.false_ne_true]
    unfold finWith at hf
    split at hf
    · rename_i hfinset
      have hmark : st₁.sendWindow = 0 → st₁.wakes mem = false := by
        rw [hwindow, hwakes]
        exact hfin hfinset hr
      have hremote (hopen : ¬ (st₁.state = .localClose ∨ st₁.state = .closed ∨ st₁.state = .reset)) :
          (st₁.closeTo .remoteClose mem).WriteSound := by
        constructor
        · intro hw
          change st₁.wakes mem = true at hw
          refine .inl fun hz => ?_
          rw [hmark hz] at hw
          cases hw
        · rintro (hne | hc | hc | hc)
          · exact wakes_of_writeable (hsound.mpr (.inl hne)) mem
          · cases hc
          · cases hc
          · cases hc
      cases hst : st₁.state with
      | synSent | synReceived | established =>
        rw [hst] at hf
        obtain rfl := Option.some.inj hf
        exact hremote (by simp [hst])
      | localClose =>
        rw [hst] at hf
        obtain rfl := Option.some.inj hf
        exact iff_of_true (wakes_of_writeable (hsound.mpr (.inr (.inl hst))) mem)
          (.inr (.inr (.inl rfl)))
      | init | remoteClose | closed | reset =>
        rw [hst] at hf
        cases hf
    · obtain rfl := Option.some.inj hf
      exact hsound

end Stream

/-! ## Work that does not concern writing -/

/-- A stream looks the same to its writers. -/
structure Stream.WritesAlike (st st' : Stream) : Prop where
  sendWindow : st'.sendWindow = st.sendWindow
  writeable : st'.writeable = st.writeable
  writeClosed : st'.state.WriteClosed ↔ st.state.WriteClosed

/-- Every stream was there before and looks the same to its writers. -/
def WritesAlike (s t : Session) : Prop :=
  ∀ id st', t.streams id = some st' → ∃ st, s.streams id = some st ∧ st.WritesAlike st'

theorem WritesAlike.refl (s : Session) : WritesAlike s s :=
  fun _ st h => ⟨st, h, rfl, rfl, Iff.rfl⟩

theorem WritesAlike.trans {s t u : Session} (h : WritesAlike s t) (h' : WritesAlike t u) :
    WritesAlike s u := by
  intro id st₂ h₂
  obtain ⟨st₁, h₁, ha⟩ := h' id st₂ h₂
  obtain ⟨st, h₀, hb⟩ := h id st₁ h₁
  exact ⟨st, h₀, ha.sendWindow.trans hb.sendWindow, ha.writeable.trans hb.writeable,
    ha.writeClosed.trans hb.writeClosed⟩

theorem WritesAlike.of_streams {s t : Session} (h : t.streams = s.streams) : WritesAlike s t :=
  fun _ st hst => ⟨st, h ▸ hst, rfl, rfl, Iff.rfl⟩

theorem Session.WriteSound.alike {s t : Session} (h : s.WriteSound) (ha : WritesAlike s t) :
    t.WriteSound := by
  intro id st' hst'
  obtain ⟨st, hst, halike⟩ := ha id st' hst'
  have hmark := h id st hst
  unfold Stream.WriteSound Stream.WriteReady at *
  rw [halike.writeable, halike.sendWindow, hmark]
  exact or_congr_right halike.writeClosed.symm

section Acts

variable {α : Type} {ok : Call → Bool → Prop} {id : UInt32}

/-- Changes of one stream that do not concern its writers. -/
theorem Touches.writesAlike {N : Stream → Stream → Prop} {s t : Session} (h : Touches id N s t)
    (hN : ∀ st st' : Stream, N st st' → st.WritesAlike st') : WritesAlike s t := by
  cases h with
  | none => exact .refl s
  | send | leave => exact .of_streams rfl
  | @stream st st₁ hst h =>
    intro i st' hst'
    rw [Session.setStream_streams] at hst'
    split at hst'
    · rename_i hi
      obtain rfl := Option.some.inj hst'
      exact ⟨st, hi ▸ hst, hN _ _ h⟩
    · exact ⟨st', hst', rfl, rfl, Iff.rfl⟩

theorem Stream.sendFlags_writesAlike (st : Stream) : st.WritesAlike st.sendFlags.2 := by
  refine ⟨st.sendFlags_sendWindow, st.sendFlags_writeable, ?_⟩
  unfold Stream.sendFlags StreamState.WriteClosed
  cases hst : st.state <;> simp [hst]

theorem Stream.WindowUpdated.writesAlike {st st' : Stream} (h : st.WindowUpdated st') :
    st.WritesAlike st' := by
  cases h with
  | flags => exact st.sendFlags_writesAlike
  | grant flags =>
    obtain ⟨window, hgrant⟩ := st.grant_window flags
    rw [hgrant]
    exact ⟨rfl, rfl, Iff.rfl⟩

theorem Stream.ReadBy.writesAlike {st st' : Stream} (h : st.ReadBy st') :
    st.WritesAlike st' := by
  cases h with
  | take | waiting => exact ⟨rfl, rfl, Iff.rfl⟩
  | update h => exact h.writesAlike

theorem alike_sendWindowUpdate : Acts ok WritesAlike (sendWindowUpdate id) :=
  touches_sendWindowUpdate.mono fun _ _ h => h.writesAlike fun _ _ => Stream.WindowUpdated.writesAlike

theorem alike_streamRead (size : Nat) : Acts ok WritesAlike (streamRead id size) :=
  (touches_streamRead size).mono fun _ _ h => h.writesAlike fun _ _ => Stream.ReadBy.writesAlike

theorem alike_sessionAccept : Acts ok WritesAlike sessionAccept :=
  changes_sessionAccept (fun _ => .of_streams rfl) fun _ _ _ h =>
    h.writesAlike fun _ _ => Stream.WindowUpdated.writesAlike

end Acts

/-! ## Frames -/

section Frames

variable {α : Type} {ans : Answers Call} {s : Session} {id : UInt32} {st st' : Stream}

theorem Session.WriteSound.setStream (h : s.WriteSound) (hst' : st'.WriteSound) :
    (s.setStream id st').WriteSound := by
  intro i st₁ h₁
  rw [setStream_streams] at h₁
  split at h₁
  · obtain rfl := Option.some.inj h₁
    exact hst'
  · exact h i st₁ h₁

/-- What a frame for the stream `st` must not do. -/
structure WritersKept (hdr : Bytes) (st : Stream) (answers : List Bool) : Prop where
  credit : hdrType hdr = TYPE_WINDOW_UPDATE → st.sendWindow.toNat + (hdrLength hdr).toNat < 2 ^ 32
  fin : hasFlag (hdrFlags hdr) FLAG_FIN = true → hasFlag (hdrFlags hdr) FLAG_RST = false →
    hdrType hdr = TYPE_DATA ∨ hdrLength hdr = 0 → st.sendWindow = 0 →
    st.wakes (answers.headD true) = false
  rst : hasFlag (hdrFlags hdr) FLAG_RST = true → st.wakes (answers.headD true) = true ∨
    st.wakes (rstAnswer (hdrFlags hdr) answers) = true

theorem WritersKept.fresh {hdr : Bytes} {state : StreamState} {padding : UInt32}
    {answers : List Bool} (h : WritersKept hdr (Stream.fresh state padding) answers)
    (answers' : List Bool) : WritersKept hdr (Stream.fresh state padding) answers' := by
  refine ⟨h.credit, fun _ _ _ hz => ?_, fun _ => .inl (Stream.wakes_of_writeable rfl _)⟩
  exact absurd hz (Stream.fresh_sendWindow_ne state padding)

end Frames

/-! ## Writes -/

section Writes

variable {ans : Answers Call} {s : Session} {id : UInt32} {st : Stream}

end Writes

/-! ## Runs -/

section Runs

variable {ans ans' : Answers Call} {s : Session} {client : Bool} {rcvbuf : UInt32}

end Runs

/-! ## The mark that FIN sets -/

section Spurious

variable {s : Session} {st : Stream}

end Spurious

end Yamux
