import Yamux.Receive.Absorption

/-!
# Streams do not disturb each other

Leaving out frames of other streams does not change what the frames that stay do
to a stream, whether the other streams exist or not: the two runs of the receive
loop agree on that stream after every frame that both take.
-/

namespace Yamux

open Core Prog Session

/-! ## What a frame does to one stream -/

/-- What a complete frame of its own does to a stream that may not exist yet. -/
def Frame.affect (f : Frame) (leaving : Bool) (padding : UInt32) : Option Stream → Option Stream
  | none =>
    if hasFlag f.flags FLAG_SYN ∧ ¬ leaving then (Stream.fresh .synReceived padding).absorb f
    else none
  | some st => st.absorb f

section Absorb

variable {s t u : Session} {f : Frame} {id : UInt32}

theorem declare_cases (h : s.declare f = some t) :
    (hasFlag f.flags FLAG_SYN = false ∧ t = s) ∨
    (hasFlag f.flags FLAG_SYN = true ∧ s.localGoAway = true ∧ t = s.refuse f.id) ∨
    (hasFlag f.flags FLAG_SYN = true ∧ s.localGoAway = false ∧ s.streams f.id = none ∧
      t = s.enroll f.id) := by
  unfold declare at h
  split at h
  · rename_i hsyn
    split at h
    · exact .inr (.inl ⟨hsyn, ‹_›, (Option.some.inj h).symm⟩)
    · rename_i hlocal
      split at h
      · cases h
      · rename_i hnone
        exact .inr (.inr ⟨hsyn, Bool.eq_false_iff.mpr hlocal,
          Option.not_isSome_iff_eq_none.mp hnone, (Option.some.inj h).symm⟩)
  · rename_i hsyn
    exact .inl ⟨Bool.eq_false_iff.mpr hsyn, (Option.some.inj h).symm⟩

theorem engage_cases (h : s.engage f = some t) :
    (s.streams f.id = none ∧ t = s) ∨
    ∃ st st', s.streams f.id = some st ∧ st.absorb f = some st' ∧ t = s.setStream f.id st' := by
  unfold engage at h
  cases hst : s.streams f.id with
  | none =>
    rw [hst] at h
    exact .inl ⟨rfl, (Option.some.inj h).symm⟩
  | some st =>
    rw [hst] at h
    obtain ⟨st', hab, rfl⟩ := Option.map_eq_some_iff.mp h
    exact .inr ⟨st, st', rfl, hab, rfl⟩

theorem absorb_version (h : s.absorb f = some t) : hdrVersion f.hdr = VERSION := by
  by_contra hver
  rw [absorb, if_pos hver] at h
  cases h

/-- A frame of a stream, in its two parts. -/
theorem absorb_ofStream (hf : f.OfStream) (h : s.absorb f = some t) :
    ∃ u, s.declare f = some u ∧ u.engage f = some t := by
  have hver := absorb_version h
  rw [absorb, if_neg (not_not_intro hver), if_pos hf] at h
  exact Option.bind_eq_some_iff.mp h

/-- A frame that belongs to no stream is answered or sets a flag. -/
theorem absorb_control (hf : ¬ f.OfStream) (h : s.absorb f = some t) :
    (∃ data, t = s.queue data) ∨ t = s ∨ t = { s with remoteGoAway := true } := by
  have hver := absorb_version h
  rw [absorb, if_neg (not_not_intro hver), if_neg hf] at h
  split at h
  · split at h
    · exact .inl ⟨_, (Option.some.inj h).symm⟩
    · exact .inr (.inl (Option.some.inj h).symm)
  · split at h
    · exact .inr (.inr (Option.some.inj h).symm)
    · cases h

/-- A frame that does not fail changes neither the own go away nor the size of a
stream's socket buffer. -/
theorem absorb_keeps (h : s.absorb f = some t) :
    t.localGoAway = s.localGoAway ∧ t.rcvbuf = s.rcvbuf := by
  by_cases hf : f.OfStream
  · obtain ⟨u, hdecl, hengage⟩ := absorb_ofStream hf h
    have hu : u.localGoAway = s.localGoAway ∧ u.rcvbuf = s.rcvbuf := by
      obtain ⟨-, rfl⟩ | ⟨-, -, rfl⟩ | ⟨-, -, -, rfl⟩ := declare_cases hdecl
      · exact ⟨rfl, rfl⟩
      · exact ⟨rfl, rfl⟩
      · exact ⟨rfl, rfl⟩
    obtain ⟨-, rfl⟩ | ⟨st, st', -, -, rfl⟩ := engage_cases hengage
    · exact hu
    · exact hu
  · obtain ⟨data, rfl⟩ | rfl | rfl := absorb_control hf h
    · exact ⟨rfl, rfl⟩
    · exact ⟨rfl, rfl⟩
    · exact ⟨rfl, rfl⟩

/-- A frame does nothing to the streams of other ids. -/
theorem absorb_other (h : s.absorb f = some t) (hid : f.OfStream → f.id ≠ id) :
    t.streams id = s.streams id := by
  by_cases hf : f.OfStream
  · have hne : id ≠ f.id := (hid hf).symm
    obtain ⟨u, hdecl, hengage⟩ := absorb_ofStream hf h
    have hu : u.streams id = s.streams id := by
      obtain ⟨-, rfl⟩ | ⟨-, -, rfl⟩ | ⟨-, -, -, rfl⟩ := declare_cases hdecl
      · rfl
      · rfl
      · exact setStream_of_ne _ _ _ hne
    obtain ⟨-, rfl⟩ | ⟨st, st', -, -, rfl⟩ := engage_cases hengage
    · exact hu
    · rw [setStream_of_ne _ _ _ hne, hu]
  · obtain ⟨data, rfl⟩ | rfl | rfl := absorb_control hf h
    · rfl
    · rfl
    · rfl

/-- A frame does to its stream what depends on that stream only. -/
theorem absorb_own (hf : f.OfStream) (h : s.absorb f = some t) :
    t.streams f.id = f.affect s.localGoAway s.rcvbuf (s.streams f.id) := by
  have hend {u : Session} (hengage : u.engage f = some t) :
      t.streams f.id = (u.streams f.id).bind fun st => st.absorb f := by
    obtain ⟨hst, rfl⟩ | ⟨st, st', hst, hab, rfl⟩ := engage_cases hengage
    · rw [hst]
      rfl
    · rw [setStream_same, hst, Option.bind_some, hab]
  obtain ⟨u, hdecl, hengage⟩ := absorb_ofStream hf h
  rw [hend hengage]
  obtain ⟨hsyn, rfl⟩ | ⟨-, hlocal, rfl⟩ | ⟨hsyn, hlocal, hnone, rfl⟩ := declare_cases hdecl
  · cases u.streams f.id with
    | none => simp [Frame.affect, hsyn]
    | some st => rfl
  · change (s.streams f.id).bind _ = _
    cases s.streams f.id with
    | none => simp [Frame.affect, hlocal]
    | some st => rfl
  · rw [hnone, Frame.affect, if_pos ⟨hsyn, by rw [hlocal]; nofun⟩]
    change ((s.setStream f.id _).streams f.id).bind _ = _
    rw [setStream_same, Option.bind_some]

/-- A stream that exists takes the frames of its id. -/
theorem absorb_present {st : Stream} (hf : f.OfStream) (h : s.absorb f = some t)
    (hst : s.streams f.id = some st) :
    ∃ st', t.streams f.id = some st' ∧ st.absorb f = some st' := by
  have hown := absorb_own hf h
  rw [hst] at hown
  change _ = st.absorb f at hown
  obtain ⟨u, hdecl, hengage⟩ := absorb_ofStream hf h
  have hu : (u.streams f.id).isSome := by
    obtain ⟨-, rfl⟩ | ⟨-, -, rfl⟩ | ⟨-, -, hno, -⟩ := declare_cases hdecl
    · rw [hst]
      rfl
    · change (s.streams f.id).isSome
      rw [hst]
      rfl
    · rw [hst] at hno
      cases hno
  obtain ⟨hnone, -⟩ | ⟨st₁, st', -, -, rfl⟩ := engage_cases hengage
  · rw [hnone] at hu
    cases hu
  · rw [setStream_same] at hown
    exact ⟨st', setStream_same _ _ _, hown.symm⟩

end Absorb

/-! ## Leaving frames out -/

/-- The second sequence is the first one without some of the DATA and
WINDOW_UPDATE frames of ids other than `id`. -/
inductive Thinned (id : UInt32) : List Frame → List Frame → Prop where
  | nil : Thinned id [] []
  | keep {fs gs : List Frame} (f : Frame) (h : Thinned id fs gs) : Thinned id (f :: fs) (f :: gs)
  | drop {fs gs : List Frame} {f : Frame} (hf : f.OfStream) (hid : f.id ≠ id)
      (h : Thinned id fs gs) : Thinned id (f :: fs) gs

/-- Two sessions that a stream cannot tell apart. -/
structure Session.Agree (id : UInt32) (s s' : Session) : Prop where
  streams : s.streams id = s'.streams id
  localGoAway : s.localGoAway = s'.localGoAway
  rcvbuf : s.rcvbuf = s'.rcvbuf

section Agree

variable {id : UInt32} {s s' t t' : Session} {f : Frame}

/-- A frame that both sessions take. -/
theorem Session.Agree.keep (h : Agree id s s') (ht : s.absorb f = some t)
    (ht' : s'.absorb f = some t') : Agree id t t' := by
  obtain ⟨hlocal, hpad⟩ := absorb_keeps ht
  obtain ⟨hlocal', hpad'⟩ := absorb_keeps ht'
  constructor
  · by_cases hf : f.OfStream ∧ f.id = id
    · obtain ⟨hf, rfl⟩ := hf
      rw [absorb_own hf ht, absorb_own hf ht', h.streams, h.localGoAway, h.rcvbuf]
    · have hne : f.OfStream → f.id ≠ id := fun h he => hf ⟨h, he⟩
      rw [absorb_other ht hne, absorb_other ht' hne, h.streams]
  · rw [hlocal, hlocal', h.localGoAway]
  · rw [hpad, hpad', h.rcvbuf]

/-- A frame that only the first session takes. -/
theorem Session.Agree.drop (h : Agree id s s') (ht : s.absorb f = some t) (hid : f.id ≠ id) :
    Agree id t s' := by
  obtain ⟨hlocal, hpad⟩ := absorb_keeps ht
  constructor
  · rw [absorb_other ht fun _ => hid, h.streams]
  · rw [hlocal, h.localGoAway]
  · rw [hpad, h.rcvbuf]

/-- Sequences of frames that differ in frames of other streams. -/
theorem Thinned.agree {fs gs : List Frame} (hfs : Thinned id fs gs) (h : Agree id s s')
    (ht : fs.foldlM absorb s = some t) (ht' : gs.foldlM absorb s' = some t') : Agree id t t' := by
  induction hfs generalizing s s' with
  | nil =>
    obtain rfl := Option.some.inj ht
    obtain rfl := Option.some.inj ht'
    exact h
  | keep f _ ih =>
    rw [List.foldlM_cons] at ht ht'
    obtain ⟨u, hu, ht⟩ := Option.bind_eq_some_iff.mp ht
    obtain ⟨u', hu', ht'⟩ := Option.bind_eq_some_iff.mp ht'
    exact ih (h.keep hu hu') ht ht'
  | drop _ hid _ ih =>
    rw [List.foldlM_cons] at ht
    obtain ⟨u, hu, ht⟩ := Option.bind_eq_some_iff.mp ht
    exact ih (h.drop hu hid) ht ht'

end Agree

/-- A call that succeeds on complete frames has taken all of them. -/
theorem absorbs_of_process {s t : Session} {fs : List Frame} (hn : s.newFrame = true)
    (hb : s.recvBuf = Frame.encode fs) (hlen : s.recvBuf.length < 2 ^ 31)
    (h : sessionProcess.exec s = (.ret 0, t)) :
    ∃ u, fs.foldlM absorb s = some u ∧ t.streams = u.streams := by
  obtain ⟨-, t', he⟩ | ⟨u, hdr, remain, hu, he⟩ := exec_process_frames hn hb hlen
  · rw [h] at he
    injection he with he
    cases he
  · rw [h] at he
    obtain rfl := (Prod.mk.inj he).2
    exact ⟨u, hu, rfl⟩

/-- Stream isolation: two calls of `session_process` that succeed, on a sequence of
complete frames and on the same sequence without some of the DATA and
WINDOW_UPDATE frames of other streams, leave a stream in the same condition. -/
theorem process_isolated {s t t' : Session} (hn : s.newFrame = true) (id : UInt32)
    {fs gs : List Frame} (hfs : Thinned id fs gs) (hlen : (Frame.encode fs).length < 2 ^ 31)
    (h : sessionProcess.exec { s with recvBuf := Frame.encode fs } = (.ret 0, t))
    (h' : sessionProcess.exec { s with recvBuf := Frame.encode gs } = (.ret 0, t')) :
    t.streams id = t'.streams id := by
  have hle : (Frame.encode gs).length ≤ (Frame.encode fs).length := by
    clear h h' hlen
    induction hfs with
    | nil => exact le_rfl
    | keep f _ ih =>
      simp only [Frame.encode_cons, List.length_append]
      omega
    | drop _ _ _ ih =>
      simp only [Frame.encode_cons, List.length_append]
      omega
  obtain ⟨u, hu, hstreams⟩ :=
    absorbs_of_process (s := { s with recvBuf := Frame.encode fs }) hn rfl hlen h
  obtain ⟨u', hu', hstreams'⟩ :=
    absorbs_of_process (s := { s with recvBuf := Frame.encode gs }) hn rfl (hle.trans_lt hlen) h'
  have hagree : Agree id { s with recvBuf := Frame.encode fs }
      { s with recvBuf := Frame.encode gs } := ⟨rfl, rfl, rfl⟩
  rw [hstreams, hstreams', (hfs.agree hagree hu hu').streams]

/-- Two bytes for stream 1, which they open. -/
def greeting : Frame := Frame.data FLAG_SYN 1 [97, 98] (by decide)

/-- A frame for a stream that does not exist, in front of the two bytes or left out. -/
theorem process_isolated_orphan :
    (sessionProcess.exec { sessionInit false 4096 with
      recvBuf := Frame.encode [Frame.data 0 5 [7, 7] (by decide), greeting] }).2.streams 1 =
    (sessionProcess.exec { sessionInit false 4096 with
      recvBuf := Frame.encode [greeting] }).2.streams 1 :=
  @process_isolated (sessionInit false 4096) _ _ rfl 1
    [Frame.data 0 5 [7, 7] (by decide), greeting] _
    (.drop (.inl rfl) (by decide) (.keep greeting .nil)) (by decide)
    (Prod.ext (by decide +kernel) rfl) (Prod.ext (by decide +kernel) rfl)

end Yamux
