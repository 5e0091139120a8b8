import Yamux.Allocation.Counter
import Yamux.Native.Api
import Yamux.Native.Intake
import Yamux.Receive.Quiet

/-!
# Ids that a peer declares

`session_open` inserts its stream under an id that must be free. The counter
keeps the ids of the local side apart from each other, but the ids that a peer
declares with SYN are taken as they come. As long as no frame declares an id of
the local side's parity at or above the counter, those ids stay free.
-/

namespace Yamux

open Core Prog

/-- The next round of the loop reads a frame that declares an id which the local
side still has to hand out. -/
def Session.Declares (client : Bool) (s : Session) : Prop :=
  let hdr := s.recvBuf.take hdrSize
  s.newFrame = true ∧ hdrSize ≤ s.recvBuf.length ∧
    (hdrType hdr = TYPE_DATA ∨ hdrType hdr = TYPE_WINDOW_UPDATE) ∧
    hasFlag (hdrFlags hdr) FLAG_SYN = true ∧
    ofRole client (hdrStreamId hdr) ∧ s.nextId ≤ hdrStreamId hdr

/-- The condition on a call: the counter does not wrap, and no frame that is
processed declares an id which the local side still has to hand out. -/
def Api.Fair (client : Bool) (ans : Answers Call) (s : Session) : Api → Prop
  | .openStream _ => s.nextId ≠ 4294967294
  | .process => ∀ ans' t, Rounds processRound ans s ans' t → ¬ t.Declares client
  | _ => True

/-- The states of runs in which every call meets its condition. -/
inductive FairRun (client : Bool) (rcvbuf : UInt32) : Session → Prop where
  | init : FairRun client rcvbuf (sessionInit client rcvbuf)
  | call {s t : Session} (h : FairRun client rcvbuf s) (a : Api) {ans ans' : Answers Call}
      (hf : a.Fair client ans s) (hr : a.code.run ans s = (.ret (), ans', t)) :
      FairRun client rcvbuf t

/-- The ids that the local side still has to hand out are free. -/
structure Session.RoomFor (client : Bool) (s : Session) : Prop where
  role : ofRole client s.nextId
  free : ∀ id, ofRole client id → s.nextId ≤ id → s.streams id = none

/-! ## Calls that do not add streams -/

/-- The counter is as it was, and no stream is new. -/
def NoNew (s t : Session) : Prop :=
  t.nextId = s.nextId ∧ ∀ i, s.streams i = none → t.streams i = none

theorem NoNew.refl (s : Session) : NoNew s s := ⟨rfl, fun _ h => h⟩

theorem NoNew.trans {s t u : Session} (h : NoNew s t) (h' : NoNew t u) : NoNew s u :=
  ⟨h'.1.trans h.1, fun i hi => h'.2 i (h.2 i hi)⟩

theorem StreamsOnly.noNew {s t : Session} (h : StreamsOnly s t) : NoNew s t :=
  ⟨h.nextId, fun _ => h.none⟩

theorem Session.RoomFor.noNew {client : Bool} {s t : Session} (h : s.RoomFor client)
    (hn : NoNew s t) : t.RoomFor client := by
  refine ⟨hn.1 ▸ h.role, fun id hr hle => hn.2 id (h.free id hr ?_)⟩
  rwa [← hn.1]

section Acts

variable {ok : Call → Bool → Prop} {α : Type}

theorem acts_noNew {p : Op α} (h : Acts ok StreamsOnly p) : Acts ok NoNew p :=
  h.mono fun _ _ => StreamsOnly.noNew

/-- Work on one stream adds none. -/
theorem acts_touches {id : UInt32} {N : Stream → Stream → Prop} {p : Op α}
    (h : Acts ok (Touches id N) p) : Acts ok NoNew p :=
  h.mono fun _ _ ht => ht.streamsOnly.noNew

theorem acts_forget {R : Session → Session → Prop} {p : Op α} (h : Acts ok R p) :
    Acts ok R (forget p) :=
  .bind h fun _ => .pure _

theorem acts_sessionAccept : Acts ok NoNew sessionAccept :=
  changes_sessionAccept (fun _ => ⟨rfl, fun _ h => h⟩) fun _ _ _ h => h.streamsOnly.noNew

/-- `stream_write` adds no stream. -/
theorem acts_queues {id : UInt32} {N : Stream → Stream → Prop} {p : Op α}
    (h : Acts ok (Queues id N) p) : Acts ok NoNew p := by
  refine h.mono fun s t hq => ?_
  cases hq with
  | touch h => exact h.streamsOnly.noNew
  | data => exact ⟨rfl, fun _ h => h⟩

/-- The handlers of known streams add none. -/
theorem acts_handles {p : Op α} (h : Acts ok Handles p) : Acts ok NoNew p := by
  refine h.mono fun s t hh => ?_
  cases hh with
  | pay h =>
    cases h with
    | touch h => exact h.streamsOnly.noNew
    | input => exact ⟨rfl, fun _ h => h⟩
  | remote => exact ⟨rfl, fun _ h => h⟩

theorem acts_notifyAccept (id : UInt32) : Acts ok (Grows id) (notifyAccept id) := by
  refine .bind (.query _) fun io => ?_
  split
  · exact .bind (.modify fun _ => ⟨rfl, rfl, fun _ _ h => h⟩) fun _ => .pure _
  · exact .bind ((acts_sessionGoAwayForReason _).mono fun _ _ => StreamsOnly.grows) fun _ =>
      .pure _

end Acts

/-! ## Frames that declare an id -/

section Incoming

variable {client : Bool} {s : Session}

/-- The saved header does not name an id that the local side still has to hand out. -/
def Session.Harmless (client : Bool) (s : Session) : Prop :=
  ¬ (ofRole client (hdrStreamId s.hdr) ∧ s.nextId ≤ hdrStreamId s.hdr)

theorem Session.RoomFor.grows {id : UInt32} {t : Session} (h : s.RoomFor client)
    (hid : ¬ (ofRole client id ∧ s.nextId ≤ id)) (hg : Grows id s t) : t.RoomFor client := by
  refine ⟨hg.nextId ▸ h.role, fun i hr hle => ?_⟩
  rw [hg.nextId] at hle
  refine hg.others i ?_ (h.free i hr hle)
  rintro rfl
  exact hid ⟨hr, hle⟩

theorem room_incomingStream (h : s.RoomFor client) (hs : s.Harmless client) :
    (Env.alone anyAnswer).wp incomingStream (fun _ t => t.RoomFor client) s := by
  rw [incomingStream, Env.alone_read_bind, Env.wp_bind, Env.alone_check]
  split
  · rw [Env.post_ret, Env.alone_read_bind, Env.alone_read_bind]
    have acts (leaving : Bool) : Acts anyAnswer (Grows (hdrStreamId s.hdr)) (
        if leaving then do
          let r ← sessionSendBufWrite
            (hdrEncode TYPE_WINDOW_UPDATE FLAG_RST (hdrStreamId s.hdr) 0)
          pure (if r ≠ 0 then -1 else 0)
        else do
          let known ← sessionFindStream (hdrStreamId s.hdr)
          if known then do
            let _ ← sessionGoAwayForReason GO_AWAY_PROTO_ERR
            pure (-1)
          else do
            let created ← streamNew (hdrStreamId s.hdr) .synReceived
            if created then do
              let r ← notifyAccept (hdrStreamId s.hdr)
              if r ≠ 0 then streamFree (hdrStreamId s.hdr)
              pure 0
            else do
              let _ ← sessionGoAwayForReason GO_AWAY_INTERNAL_ERR
              pure (-1) : Op Int) := by
      have leave (reason : UInt32) : Acts anyAnswer (Grows (hdrStreamId s.hdr)) (do
          let _ ← sessionGoAwayForReason reason
          pure (-1) : Op Int) :=
        .bind ((acts_sessionGoAwayForReason _).mono fun _ _ => StreamsOnly.grows) fun _ => .pure _
      split
      · exact .bind ((acts_sessionSendBufWrite _).mono fun _ _ => StreamsOnly.grows) fun _ =>
          .pure _
      · refine .bind (.read .refl) fun known => ?_
        split
        · exact leave _
        · refine .bind (acts_streamNew _) fun created => ?_
          split
          · refine .bind (acts_notifyAccept _) fun r => ?_
            dsimp only
            split
            · exact .bind acts_streamFree fun _ => .pure _
            · exact .pure _
          · exact leave _
    exact Env.wp_mono _ ((acts _).wp_alone .refl .trans s) fun _ _ ht => h.grows hs ht
  · exact h

theorem room_acts {α : Type} {p : Op α} (hp : Acts anyAnswer NoNew p) (h : s.RoomFor client) :
    (Env.alone anyAnswer).wp p (fun _ t => t.RoomFor client) s :=
  Env.wp_mono _ (hp.wp_alone .refl .trans s) fun _ _ ht => h.noNew ht

/-- A program in two parts of which the second adds no stream. -/
theorem room_bind {α β : Type} {p : Op α} {g : α → Op β}
    (hp : (Env.alone anyAnswer).wp p (fun _ t => t.RoomFor client) s)
    (hg : ∀ a, Acts anyAnswer NoNew (g a)) :
    (Env.alone anyAnswer).wp (p >>= g) (fun _ t => t.RoomFor client) s := by
  rw [Env.wp_bind]
  refine Env.wp_mono _ hp fun o t ht => ?_
  cases o with
  | ret a => exact room_acts (hg a) ht
  | abort | hang => exact ht

theorem room_synFlag (h : s.RoomFor client)
    (hs : hasFlag (hdrFlags s.hdr) FLAG_SYN = true → s.Harmless client) :
    (Env.alone anyAnswer).wp
      (if hasFlag (hdrFlags s.hdr) FLAG_SYN then incomingStream else pure 0 : Op Int)
      (fun _ t => t.RoomFor client) s := by
  split
  · exact room_incomingStream h (hs ‹_›)
  · exact Env.alone_pure.mpr h

theorem room_sessionHandle (h : s.RoomFor client)
    (hs : s.newFrame = true → hdrType s.hdr = TYPE_DATA ∨ hdrType s.hdr = TYPE_WINDOW_UPDATE →
      hasFlag (hdrFlags s.hdr) FLAG_SYN = true → s.Harmless client) :
    (Env.alone anyAnswer).wp sessionHandle (fun _ t => t.RoomFor client) s := by
  rw [sessionHandle, Env.alone_read_bind]
  split
  · rename_i hd
    rw [sessionHandleData, Env.alone_read_bind, Env.alone_read_bind]
    cases hn : s.newFrame
    · rw [if_neg Bool.false_ne_true]
      exact room_acts (.bind (.read .refl) fun _ => acts_handles (handles_pay (pays_handlePayload _))) h
    · rw [if_pos rfl]
      refine room_bind (room_synFlag h (hs hn (.inl hd))) fun r => ?_
      split
      · exact .pure _
      · exact acts_handles handles_handleDataHeader
  · split
    · rename_i hu
      rw [sessionHandleWindowUpdate, Env.alone_read_bind, Env.wp_bind, Env.alone_check]
      cases hn : s.newFrame
      · exact h
      · rw [if_pos rfl, Env.post_ret, Env.alone_read_bind]
        refine room_bind (room_synFlag h (hs hn (.inr hu))) fun r => ?_
        split
        · exact .pure _
        · exact acts_handles (handles_updateHeader s.hdr)
    · split
      · exact room_acts (acts_handles handles_sessionHandlePing) h
      · split
        · exact room_acts (acts_handles handles_sessionHandleGoAway) h
        · exact Env.alone_pure.mpr h

/-- A round that reads no harmful declaration keeps the room. -/
theorem room_processRound (h : s.RoomFor client) (hd : ¬ s.Declares client) :
    (Env.alone anyAnswer).wp processRound (fun _ t => t.RoomFor client) s := by
  have verdict {t : Session} (ht : (Env.alone anyAnswer).wp sessionHandle
      (fun _ t => t.RoomFor client) t) : (Env.alone anyAnswer).wp (do
        let r ← sessionHandle
        pure (if r ≠ 0 then some (-1) else none)) (fun _ t => t.RoomFor client) t :=
    room_bind ht fun _ => .pure _
  rw [processRound, Env.alone_read_bind, Env.alone_read_bind]
  split
  · exact Env.alone_pure.mpr h
  · split
    · exact Env.alone_pure.mpr h
    · cases hn : s.newFrame
      · rw [if_neg Bool.false_ne_true, Env.wp_bind, Env.alone_pure, Env.post_ret, if_pos rfl]
        exact verdict (room_sessionHandle h fun hn' => absurd hn' (by simp [hn]))
      · rw [if_pos rfl, readHeader, Env.wp_bind, Env.wp_bind, Env.alone_crit, Env.post_ret,
          Env.wp_bind, Env.alone_check]
        have hroom : ({ s with
            hdr := s.recvBuf.take hdrSize
            recvBuf := s.recvBuf.drop hdrSize } : Session).RoomFor client :=
          h.noNew ⟨rfl, fun _ h => h⟩
        split
        · rename_i hlen
          rw [Env.post_ret, Env.alone_pure, Env.post_ret]
          split
          · refine verdict (room_sessionHandle hroom fun _ ht hf hid => hd ?_)
            have hlen' := of_decide_eq_true hlen
            rw [List.length_take] at hlen'
            exact ⟨hn, by omega, ht, hf, hid⟩
          · exact Env.alone_pure.mpr hroom
        · exact hroom

theorem run_sessionProcess (ans : Answers Call) :
    (sessionProcess.run ans s).2.2 =
      ((loop (s.recvBuf.length + 1) processRound).run ans s).2.2 := by
  simp only [sessionProcess, run_bind, run_acquire, runThen_ret, run_read]
  cases h : (loop (s.recvBuf.length + 1) processRound).run ans s with
  | mk o rest =>
    cases o <;> simp only [runThen_ret, runThen_abort, runThen_hang, run_bind, run_release,
      run_pure]

theorem room_sessionProcess (h : s.RoomFor client) {ans : Answers Call}
    (hf : ∀ ans' t, Rounds processRound ans s ans' t → ¬ t.Declares client) :
    (sessionProcess.run ans s).2.2.RoomFor client := by
  rw [run_sessionProcess]
  refine run_loop (I := fun t : Session => t.RoomFor client) (fun ans' t hr ht => ?_) h _
  exact (Env.wp_run (room_processRound ht (hf ans' t hr)) (allowed_anyAnswer ans')).1

end Incoming

/-! ## Opening streams -/

section Opening

variable {client : Bool} {s : Session}

theorem ofRole_add_two {id : UInt32} (h : ofRole client id) (hlt : id.toNat < 2 ^ 32 - 2) :
    ofRole client (id + 2) ∧ (id + 2).toNat = id.toNat + 2 := by
  have hadd : (id + 2).toNat = id.toNat + 2 := by
    rw [UInt32.toNat_add]
    change (id.toNat + 2) % 2 ^ 32 = _
    omega
  refine ⟨?_, hadd⟩
  rw [ofRole] at h ⊢
  omega

/-- Taking an id leaves room for the next ones. -/
theorem Session.RoomFor.bump (h : s.RoomFor client) (hlt : s.nextId.toNat < 2 ^ 32 - 2) :
    ({ s with nextId := s.nextId + 2 } : Session).RoomFor client := by
  obtain ⟨hrole, hadd⟩ := ofRole_add_two h.role hlt
  refine ⟨hrole, fun id hr hle => h.free id hr ?_⟩
  rw [UInt32.le_iff_toNat_le] at hle ⊢
  change (s.nextId + 2).toNat ≤ _ at hle
  omega

theorem room_sessionOpen (h : s.RoomFor client) (hn : s.nextId ≠ 4294967294) (tries : Nat) :
    (Env.alone anyAnswer).wp (sessionOpen tries) (fun _ t => t.RoomFor client) s := by
  rw [sessionOpen, Env.alone_read_bind]
  split
  · exact Env.alone_pure.mpr h
  · rw [Env.wp_bind]
    cases tries with
    | zero => exact fun t ht => ht ▸ h
    | succ n =>
      rw [alone_takeId, Env.post_ret, Env.post_ret]
      split
      · exact Env.alone_pure.mpr h
      · rename_i hmax
        have hlt : s.nextId.toNat < 2 ^ 32 - 2 := by
          have h₁ : ¬ 4294967295 ≤ s.nextId.toNat := fun hle =>
            hmax (UInt32.le_iff_toNat_le.mpr hle)
          have h₂ : s.nextId.toNat ≠ 4294967294 := fun he => hn (UInt32.toNat_inj.mp he)
          omega
        refine Env.wp_mono _ (acts_openWith.wp_alone .refl .trans _) fun o t ht => ?_
        refine (h.bump hlt).grows ?_ ht
        rintro ⟨-, hle⟩
        rw [UInt32.le_iff_toNat_le] at hle
        change (s.nextId + 2).toNat ≤ _ at hle
        have := (ofRole_add_two h.role hlt).2
        omega

end Opening

/-! ## Runs -/

section Runs

variable {client : Bool} {rcvbuf : UInt32} {s : Session}

theorem room_sessionInit : (sessionInit client rcvbuf).RoomFor client := by
  refine ⟨?_, fun _ _ _ => rfl⟩
  cases client <;> simp [ofRole, sessionInit]

theorem wp_forget {α : Type} {p : Op α}
    (h : (Env.alone anyAnswer).wp p (fun _ t => t.RoomFor client) s) :
    (Env.alone anyAnswer).wp (forget p) (fun _ t => t.RoomFor client) s :=
  room_bind h fun _ => .pure _

/-- A call that meets its condition keeps the room. -/
theorem room_call {ans : Answers Call} (h : s.RoomFor client) (a : Api)
    (hf : a.Fair client ans s) : (a.code.run ans s).2.2.RoomFor client := by
  have run {p : Op Unit} (hp : (Env.alone anyAnswer).wp p (fun _ t => t.RoomFor client) s) :
      (p.run ans s).2.2.RoomFor client := (Env.wp_run hp (allowed_anyAnswer ans)).1
  have acts {α : Type} {p : Op α} (hp : Acts anyAnswer NoNew p) :
      ((forget p).run ans s).2.2.RoomFor client := run (wp_forget (room_acts hp h))
  cases a with
  | recvBufWrite data =>
    exact acts (.bind (acts_bioWrite _) fun _ =>
      .bind (.modify fun _ => ⟨rfl, fun _ h => h⟩) fun _ => .pure _)
  | process =>
    have hp := room_sessionProcess h hf
    change ((sessionProcess >>= fun _ => pure ()).run ans s).2.2.RoomFor client
    rw [run_bind]
    cases hr : sessionProcess.run ans s with
    | mk o rest =>
      rw [hr] at hp
      cases o <;> exact hp
  | sendBufPending => exact acts (.read .refl)
  | sendBufPeek n => exact acts (.read .refl)
  | sendBufConsume n => exact acts (.crit fun _ => ⟨rfl, fun _ h => h⟩)
  | openStream tries => exact run (wp_forget (room_sessionOpen h hf tries))
  | acceptStream => exact acts acts_sessionAccept
  | read id size => exact acts (acts_touches (touches_streamRead _))
  | write id data => exact acts (acts_queues (queues_streamWrite _))
  | goAway => exact acts (acts_noNew (acts_sessionGoAwayForReason _))

theorem FairRun.room (h : FairRun client rcvbuf s) : s.RoomFor client := by
  induction h with
  | init => exact room_sessionInit
  | call h a hf hr ih =>
    have := room_call ih a hf
    rwa [hr] at this

end Runs

end Yamux
