import Yamux.Receive.Headers

/-!
# The end of a stream

`stream_read` reports the end of a stream whose peer has closed it as soon as its buffer
is empty. The FIN flag takes effect with the header of its frame, so the payload of the
same frame may still be on its way. What reads have returned is compared with the frames
that the peer sends.
-/

namespace Yamux

open Core Prog Session

/-! ## The frames of the peer and the session -/

/-- The frame carries FIN for the stream. -/
def Frame.Finishes (id : UInt32) (f : Frame) : Prop :=
  f.OfStream ∧ f.id = id ∧ hasFlag f.flags FLAG_FIN = true

/-- No DATA frame for the stream follows one that carries FIN. -/
def Frame.FinLast (id : UInt32) (fs : List Frame) : Prop :=
  ∀ done f todo, fs = done ++ f :: todo → f.Finishes id →
    ∀ g ∈ todo, g.type = TYPE_DATA → g.id ≠ id

theorem Frame.FinLast.payloadFor_todo {id : UInt32} {done todo : List Frame}
    (h : FinLast id (done ++ todo)) {f : Frame} (hf : f ∈ done) (hfin : f.Finishes id) :
    payloadFor id todo = [] := by
  obtain ⟨before, after, rfl⟩ := List.append_of_mem hf
  have hlast := h before f (after ++ todo) (by simp) hfin
  refine List.flatMap_eq_nil_iff.mpr fun g hg => ?_
  split
  · rename_i hid
    refine payload_eq_nil fun htype => ?_
    exact hlast g (List.mem_append_right after hg) htype hid
  · rfl

namespace Session

/-- The session is in the payload of a DATA frame of the stream. -/
def AmidFrame (s : Session) (id : UInt32) : Prop :=
  s.newFrame = false ∧ hdrStreamId s.hdr = id

instance (s : Session) (id : UInt32) : Decidable (s.AmidFrame id) :=
  inferInstanceAs (Decidable (_ ∧ _))

/-- What the stream is still to get of a frame of which `left` is to come. -/
def owedTo (s : Session) (id : UInt32) (left : Bytes) : Bytes := if s.AmidFrame id then left else []

/-- What the stream holds. -/
def heldFor (s : Session) (id : UInt32) : Bytes := ((s.streams id).map Stream.recvBuf).getD []

/-- The place of the session in the input: `left` is to come of the frame in progress, and
then the frames `todo`. -/
structure Stands (s : Session) (unfed left : Bytes) (todo : List Frame) : Prop where
  input : s.recvBuf ++ unfed = left ++ Frame.encode todo
  rxOk : s.RxOk
  between : s.newFrame = true → left = []
  within : s.newFrame = false → left.length = s.frameRemain.toNat

/-- The frames `done` are accounted for: what they have brought for the stream was returned
by reads, or is held by the stream, or is still to come. -/
structure Tallies (s : Session) (id : UInt32) (returned left : Bytes) (done : List Frame) :
    Prop where
  total : returned ++ s.heldFor id ++ s.owedTo id left = Frame.payloadFor id done
  absent : s.streams id = none → Frame.payloadFor id done = []
  bounded : ∀ st, s.streams id = some st → st.Bounded
  ended : ∀ st, s.streams id = some st → st.Ended → ∃ f ∈ done, f.Finishes id
  fits : s.AmidFrame id → ∀ st, s.streams id = some st → s.frameRemain.toNat ≤ st.recvWindow.toNat

variable {s t : Session} {id : UInt32} {returned left unfed : Bytes} {done todo : List Frame}

theorem heldFor_some {st : Stream} (h : s.streams id = some st) : s.heldFor id = st.recvBuf := by
  rw [heldFor, h]
  rfl

theorem heldFor_none (h : s.streams id = none) : s.heldFor id = [] := by
  rw [heldFor, h]
  rfl

theorem owedTo_amidFrame (h : s.AmidFrame id) : s.owedTo id left = left := if_pos h

theorem owedTo_outside (h : ¬ s.AmidFrame id) : s.owedTo id left = [] := if_neg h

theorem not_amidFrame_of_newFrame (h : s.newFrame = true) : ¬ s.AmidFrame id := by
  rintro ⟨hn, -⟩
  rw [h] at hn
  cases hn

/-- Work that keeps the frame in progress and the stream. -/
theorem Tallies.apart (h : s.Tallies id returned left done) (ha : Apart id s t) :
    t.Tallies id returned left done := by
  have hframe : t.AmidFrame id ↔ s.AmidFrame id := by
    rw [AmidFrame, AmidFrame, ha.frame.newFrame, ha.frame.hdr]
  have howed : t.owedTo id left = s.owedTo id left := if_congr hframe rfl rfl
  cases hst : s.streams id with
  | none =>
    have hst' := ha.none hst
    have hno (st : Stream) : t.streams id ≠ some st := by
      rw [hst']
      exact (Option.some_ne_none st).symm
    refine ⟨?_, fun _ => h.absent hst, fun st h₁ => absurd h₁ (hno st),
      fun st h₁ => absurd h₁ (hno st), fun _ st h₁ => absurd h₁ (hno st)⟩
    rw [heldFor_none hst', howed, ← heldFor_none hst]
    exact h.total
  | some st =>
    obtain ⟨st', hst', hapart⟩ := ha.old st hst
    obtain ⟨hb, hw⟩ := hapart.bounded (h.bounded st hst)
    refine ⟨?_, fun hnone => ?_, fun st₁ h₁ => ?_, fun st₁ h₁ he => ?_, fun hin st₁ h₁ => ?_⟩
    · rw [heldFor_some hst', hapart.recvBuf, howed, ← heldFor_some hst]
      exact h.total
    · rw [hst'] at hnone
      cases hnone
    · obtain rfl := Option.some.inj (hst'.symm.trans h₁)
      exact hb
    · obtain rfl := Option.some.inj (hst'.symm.trans h₁)
      exact h.ended st hst (hapart.ended.mp he)
    · obtain rfl := Option.some.inj (hst'.symm.trans h₁)
      rw [ha.frame.frameRemain]
      exact (h.fits (hframe.mp hin) st hst).trans hw

theorem Stands.apart (h : s.Stands unfed left todo) (ha : Apart id s t) :
    t.Stands unfed left todo := by
  refine ⟨?_, ha.frame.rxOk h.rxOk, fun hn => h.between ?_, fun hn => ?_⟩
  · rw [ha.recvBuf]
    exact h.input
  · rw [← ha.frame.newFrame]
    exact hn
  · rw [ha.frame.frameRemain]
    exact h.within (ha.frame.newFrame ▸ hn)

/-! ### One round -/

/-- A move of the payload in progress. -/
theorem Tallies.carries {n : Nat} (h : s.Tallies id returned left done)
    (hin : s.recvBuf ++ unfed = left ++ Frame.encode todo) (hn : s.newFrame = false)
    (htype : hdrType s.hdr = TYPE_DATA) (hleft : left.length = s.frameRemain.toNat)
    (hmin : n = min s.frameRemain.toNat s.recvBuf.length) (hm : s.Carries t n) :
    t.Stands unfed (left.drop n) todo ∧ t.Tallies id returned (left.drop n) done := by
  have hnl : n ≤ left.length := by omega
  have hnb : n ≤ s.recvBuf.length := by omega
  have htake : s.recvBuf.take n = left.take n := by
    have := congrArg (List.take n) hin
    rwa [List.take_append_of_le_length hnb, List.take_append_of_le_length hnl] at this
  have hdrop : s.recvBuf.drop n ++ unfed = left.drop n ++ Frame.encode todo := by
    have := congrArg (List.drop n) hin
    rwa [List.drop_append_of_le_length hnb, List.drop_append_of_le_length hnl] at this
  have hclosed : t.newFrame = true → left.drop n = [] := by
    intro ht
    refine List.drop_eq_nil_of_le ?_
    rw [hm.newFrame, hn] at ht
    split at ht
    · omega
    · cases ht
  have hopen : t.newFrame = false → s.frameRemain.toNat ≠ n := by
    intro ht heq
    rw [hm.newFrame, if_pos heq] at ht
    cases ht
  have howed : t.owedTo id (left.drop n) = if hdrStreamId s.hdr = id then left.drop n else [] := by
    by_cases hid : hdrStreamId s.hdr = id
    · rw [if_pos hid]
      by_cases ht : t.newFrame = false
      · exact owedTo_amidFrame ⟨ht, by rw [hm.hdr]; exact hid⟩
      · rw [hclosed (Bool.not_eq_false _ ▸ ht)]
        exact ite_self _
    · rw [if_neg hid]
      exact owedTo_outside fun hf => hid (by rw [← hm.hdr]; exact hf.2)
  refine ⟨⟨by rw [hm.recvBuf]; exact hdrop, fun ht => ?_, hclosed, fun _ => ?_⟩, ?_⟩
  · refine ⟨by rw [hm.hdr]; exact htype, fun hz => hopen ht ?_⟩
    have hremain := hm.remain
    rw [hz] at hremain
    change 0 = _ at hremain
    omega
  · rw [List.length_drop, hm.remain, hleft]
  · by_cases hid : hdrStreamId s.hdr = id
    · subst hid
      have hin' : s.AmidFrame (hdrStreamId s.hdr) := ⟨hn, rfl⟩
      have htotal := h.total
      rw [owedTo_amidFrame hin'] at htotal
      rw [if_pos rfl] at howed
      cases hst : s.streams (hdrStreamId s.hdr) with
      | none =>
        -- what comes for a stream that is not there was nothing
        have hnone : t.streams (hdrStreamId s.hdr) = none := by
          rw [hm.own, hst]
          rfl
        have hno (st : Stream) : t.streams (hdrStreamId s.hdr) ≠ some st := by
          rw [hnone]
          exact (Option.some_ne_none st).symm
        rw [heldFor_none hst, List.append_nil, h.absent hst] at htotal
        obtain ⟨hret, hl⟩ := List.append_eq_nil_iff.mp htotal
        refine ⟨?_, fun _ => h.absent hst, fun st h₁ => absurd h₁ (hno st),
          fun st h₁ => absurd h₁ (hno st), fun _ st h₁ => absurd h₁ (hno st)⟩
        rw [howed, heldFor_none hnone, h.absent hst, hret, hl, List.drop_nil]
        rfl
      | some st =>
        have hst' : t.streams (hdrStreamId s.hdr) = some (s.received st n) := by
          rw [hm.own, hst]
          rfl
        have hfit := h.fits hin' st hst
        have hwindow : (s.received st n).recvWindow.toNat = st.recvWindow.toNat - n :=
          toNat_sub_ofNat (by omega)
        refine ⟨?_, fun hnone => ?_, fun st₁ h₁ => ?_, fun st₁ h₁ he => ?_, fun _ st₁ h₁ => ?_⟩
        · rw [heldFor_some hst] at htotal
          rw [heldFor_some hst', howed, ← htotal]
          simp only [received, htake, List.append_assoc, List.take_append_drop]
        · rw [hst'] at hnone
          cases hnone
        · obtain rfl := Option.some.inj (hst'.symm.trans h₁)
          have hb := h.bounded st hst
          unfold Stream.Bounded at hb ⊢
          rw [hwindow]
          simp only [received, List.length_append, List.length_take]
          omega
        · obtain rfl := Option.some.inj (hst'.symm.trans h₁)
          exact h.ended st hst he
        · obtain rfl := Option.some.inj (hst'.symm.trans h₁)
          rw [hwindow, hm.remain]
          omega
    · have hst : t.streams id = s.streams id := hm.others id (Ne.symm hid)
      have hout : ¬ s.AmidFrame id := fun hf => hid hf.2
      have htotal := h.total
      rw [owedTo_outside hout] at htotal
      rw [if_neg hid] at howed
      refine ⟨?_, fun hnone => h.absent (hst ▸ hnone), fun st h₁ => h.bounded st (hst ▸ h₁),
        fun st h₁ => h.ended st (hst ▸ h₁), fun hf => absurd ?_ hid⟩
      · rw [howed, heldFor, hst]
        exact htotal
      · rw [← hm.hdr]
        exact hf.2

/-- A stream is as it was before the header, or is new, but for the flags. -/
theorem Tallies.origin (h : s.Tallies id returned left done) (hh : s.Headed t) {st' : Stream}
    (hst' : t.streams id = some st') : st'.recvBuf = s.heldFor id ∧ st'.Bounded ∧
      (st'.Ended → (∃ st₀, s.streams id = some st₀ ∧ st₀.Ended) ∨
        (hdrType s.hdr = TYPE_DATA ∨ hdrType s.hdr = TYPE_WINDOW_UPDATE) ∧
          hdrStreamId s.hdr = id ∧ hasFlag (hdrFlags s.hdr) FLAG_FIN = true) := by
  by_cases hown : id = hdrStreamId s.hdr
  · subst hown
    rcases hh.own st' hst' with hsame | ⟨htype, st, hst, hheaded⟩
    · exact ⟨(heldFor_some hsame).symm, h.bounded st' hsame, fun he => .inl ⟨st', hsame, he⟩⟩
    · have hst₀ : st.recvBuf = s.heldFor (hdrStreamId s.hdr) ∧ st.Bounded ∧ (st.Ended →
          ∃ st₀, s.streams (hdrStreamId s.hdr) = some st₀ ∧ st₀.Ended) := by
        rcases hst with hst | ⟨hnone, rfl⟩
        · exact ⟨(heldFor_some hst).symm, h.bounded st hst, fun he => ⟨st, hst, he⟩⟩
        · refine ⟨(heldFor_none hnone).symm, ?_, fun he => ?_⟩
          · simp [Stream.Bounded, Stream.fresh, toNat_maxWindow]
          · rcases he with he | he | he <;> cases he
      refine ⟨hheaded.recvBuf.trans hst₀.1, ?_, fun he => ?_⟩
      · unfold Stream.Bounded
        rw [hheaded.recvBuf, hheaded.recvWindow]
        exact hst₀.2.1
      · exact (hheaded.ended he).imp hst₀.2.2 fun hfin => ⟨htype, rfl, hfin⟩
  · rw [hh.others id hown] at hst'
    exact ⟨(heldFor_some hst').symm, h.bounded st' hst', fun he => .inl ⟨st', hst', he⟩⟩

theorem Headed.streams_none (hh : s.Headed t) (hnone : t.streams id = none) :
    s.streams id = none := by
  by_cases hown : id = hdrStreamId s.hdr
  · subst hown
    exact hh.gone hnone
  · rw [← hh.others id hown]
    exact hnone

/-- A header brings nothing by itself. -/
theorem Tallies.heldFor_headed (h : s.Tallies id returned left done) (hh : s.Headed t) :
    t.heldFor id = s.heldFor id := by
  cases hst : t.streams id with
  | none => rw [heldFor_none hst, heldFor_none (hh.streams_none hst)]
  | some st' => rw [heldFor_some hst, (h.origin hh hst).1]

/-- With the header of a frame, what the frame brings for the stream is to come. -/
theorem Tallies.headed {f : Frame} {more : Bytes} (h : s.Tallies id returned [] done)
    (hhdr : s.hdr = f.hdr) (hh : s.Headed t) (hn : s.newFrame = true)
    (hmore : (if f.id = id then f.payload else []) = more)
    (hkept : t.streams id = none → more = []) :
    returned ++ t.heldFor id ++ more = Frame.payloadFor id (done ++ [f]) ∧
    (t.streams id = none → Frame.payloadFor id (done ++ [f]) = []) ∧
    (∀ st, t.streams id = some st → st.Ended → ∃ g ∈ done ++ [f], g.Finishes id) := by
  have hpay : Frame.payloadFor id (done ++ [f]) = Frame.payloadFor id done ++ more := by
    rw [Frame.payloadFor_append, Frame.payloadFor_cons, Frame.payloadFor_nil, List.append_nil,
      hmore]
  have hbefore := h.total
  rw [owedTo_outside (not_amidFrame_of_newFrame hn), List.append_nil] at hbefore
  refine ⟨?_, fun hnone => ?_, fun st' hst' he => ?_⟩
  · rw [hpay, h.heldFor_headed hh, hbefore]
  · rw [hpay, h.absent (hh.streams_none hnone), hkept hnone]
    rfl
  · rcases (h.origin hh hst').2.2 he with ⟨st₀, hst₀, he₀⟩ | ⟨htype, hid, hfin⟩
    · obtain ⟨g, hg, hgfin⟩ := h.ended st₀ hst₀ he₀
      exact ⟨g, List.mem_append_left [f] hg, hgfin⟩
    · rw [hhdr] at htype hid hfin
      exact ⟨f, by simp, htype, hid, hfin⟩

/-- A DATA frame with a payload for the stream finds no such stream. -/
def Early (s : Session) (id : UInt32) : Prop :=
  ∃ t, s.front = some (.payload t) ∧ hdrStreamId t.hdr = id ∧ t.streams id = none ∧
    t.frameRemain ≠ 0

/-- A frame that is refused ends the stream all the same. -/
def EndsRefused (s : Session) (id : UInt32) : Prop :=
  ∃ r t st, r ≠ 0 ∧ s.front = some (.done r t) ∧ t.streams id = some st ∧ st.Ended ∧
    ∀ st₀, s.streams id = some st₀ → ¬ st₀.Ended

/-- A round loses nothing that is meant for the stream. -/
structure Heedful (s : Session) (id : UInt32) : Prop where
  whole : ¬ s.Torn
  punctual : ¬ s.Early id
  fair : ¬ s.EndsRefused id

/-- Where the session is between two frames, the next frame of the input is read. -/
theorem Stands.frame (h : s.Stands unfed left todo) (hs : ¬ s.Starved) (hn : s.newFrame = true) :
    ∃ f gs, todo = f :: gs ∧ s.header.hdr = f.hdr ∧
      s.header.recvBuf ++ unfed = f.payload ++ Frame.encode gs := by
  have hin := h.input
  rw [h.between hn, List.nil_append] at hin
  obtain ⟨f, gs, htodo, hhdr, hrest⟩ := Frame.encode_eq_cons hin (hdrSize_le_of_not_starved hs hn)
  exact ⟨f, gs, htodo, hhdr, hrest⟩

theorem Tallies.header (h : s.Tallies id returned left done) (hn : s.newFrame = true) :
    s.header.Tallies id returned left done := by
  refine ⟨?_, h.absent, h.bounded, h.ended, fun hf => absurd hf (not_amidFrame_of_newFrame hn)⟩
  rw [owedTo_outside (not_amidFrame_of_newFrame (s := s.header) hn),
    ← owedTo_outside (not_amidFrame_of_newFrame (s := s) hn)]
  exact h.total

/-- The first round in the middle of a frame goes on with its payload. -/
theorem front_within (hok : s.RxOk) (hs : ¬ s.Starved) (hn : s.newFrame = false) :
    s.front = some (.payload s) := by
  rw [front_mid hs hn, handle, if_pos (hok hn).1, handleData, hn, if_neg Bool.false_ne_true]

/-- A round that starts between two frames deals with a header first. -/
theorem heads_front {e : Entry} (hn : s.newFrame = true) (hf : s.front = some e) :
    ¬ s.Starved ∧ s.header.Heads e := by
  have hs : ¬ s.Starved := by
    intro hs
    rw [front_starved hs] at hf
    cases hf
  refine ⟨hs, ?_⟩
  rw [front_new hs hn] at hf
  split at hf
  · obtain rfl := Option.some.inj hf
    exact heads_handle hn
  · obtain rfl := Option.some.inj hf
    exact heads_failed (.refl _) rfl

/-- The payload of the next frame is all to come. -/
theorem Tallies.begins {f : Frame} {gs : List Frame} {u : Session}
    (h : s.Tallies id returned [] done) (hn : s.newFrame = true) (hhdr : s.hdr = f.hdr)
    (hu : s.Headed u) (huhdr : u.hdr = s.hdr) (htype : hdrType s.hdr = TYPE_DATA)
    (hfit : ∀ st, u.streams (hdrStreamId s.hdr) = some st →
      (hdrLength s.hdr).toNat ≤ st.recvWindow.toNat)
    (hin : u.recvBuf ++ unfed = f.payload ++ Frame.encode gs)
    (hpunctual : hdrStreamId s.hdr = id → u.streams id = none → hdrLength s.hdr = 0)
    (hwhole : u.streams (hdrStreamId s.hdr) = none → (u.beginFrame (hdrLength s.hdr)).Short →
      u.recvBuf.length % sliceSize = 0) :
    ∃ left', (u.beginFrame (hdrLength s.hdr)).payload.Stands unfed left' gs ∧
      (u.beginFrame (hdrLength s.hdr)).payload.Tallies id returned left' (done ++ [f]) := by
  have hid : hdrStreamId s.hdr = f.id := by rw [hhdr, Frame.id]
  have hlen : f.payload.length = (hdrLength s.hdr).toNat := by
    rw [Frame.length_payload (f := f) (by rw [Frame.type, ← hhdr]; exact htype), Frame.length, hhdr]
  have hkept (hnone : u.streams id = none) : (if f.id = id then f.payload else []) = [] := by
    split
    · rename_i hfid
      rw [← List.length_eq_zero_iff, hlen, hpunctual (hid.trans hfid) hnone]
      rfl
    · rfl
  obtain ⟨htotal, habsent, hended⟩ := h.headed hhdr hu hn rfl hkept
  have howed : (u.beginFrame (hdrLength s.hdr)).owedTo id f.payload =
      if f.id = id then f.payload else [] := by
    have hin : (u.beginFrame (hdrLength s.hdr)).AmidFrame id ↔ f.id = id := by
      rw [← hid, ← huhdr]
      exact ⟨fun hf => hf.2, fun hf => ⟨rfl, hf⟩⟩
    exact if_congr hin rfl rfl
  have hbegun : (u.beginFrame (hdrLength s.hdr)).Tallies id returned f.payload (done ++ [f]) := by
    refine ⟨?_, habsent, fun st hst => (h.origin hu hst).2.1, hended, fun hf st hst => ?_⟩
    · rw [howed]
      exact htotal
    · refine hfit st ?_
      have hown : hdrStreamId u.hdr = id := hf.2
      rw [← huhdr, hown]
      exact hst
  have hcarries := carries_payload (s := u.beginFrame (hdrLength s.hdr)) (by
    change u.streams (hdrStreamId u.hdr) = none → _
    rw [huhdr]
    exact hwhole)
  have hend := hbegun.carries hin rfl (by rw [← huhdr] at htype; exact htype) hlen rfl hcarries
  exact ⟨_, hend⟩

/-- A round that goes on takes the rest of a payload, or a frame as far as it is there. -/
theorem Tallies.round (h : s.Tallies id returned left done) (hst : s.Stands unfed left todo)
    (hc : s.Heedful id) (hround : s.round = (none, t)) :
    ∃ done' left' todo', done' ++ todo' = done ++ todo ∧ t.Stands unfed left' todo' ∧
      t.Tallies id returned left' done' := by
  obtain ⟨-, hr⟩ | ⟨r, t', hz, hf, hr⟩ | ⟨t', hf, hr⟩ | ⟨t', hf, hr⟩ := round_cases s <;>
    rw [hr] at hround <;> cases hround
  · -- a frame that has no payload
    have hn : s.newFrame = true := by
      by_contra hn
      have hs : ¬ s.Starved := by
        intro hs
        rw [front_starved hs] at hf
        cases hf
      rw [front_within hst.rxOk hs (Bool.eq_false_iff.mpr hn)] at hf
      cases hf
    obtain ⟨hs, hheads⟩ := heads_front hn hf
    obtain ⟨f, gs, rfl, hhdr, hrest⟩ := hst.frame hs hn
    cases hheads with
    | done hh hb hempty =>
      have hnil : f.payload = [] := by
        by_cases htype : f.type = TYPE_DATA
        · have hlen := hempty rfl (by rw [hhdr]; exact htype)
          rw [← List.length_eq_zero_iff, Frame.length_payload htype, Frame.length, ← hhdr, hlen]
          rfl
        · exact Frame.payload_eq_nil htype
      have hbefore := h.header hn
      rw [hst.between hn] at hbefore
      have hnothing : (if f.id = id then f.payload else []) = [] := by rw [hnil, ite_self]
      obtain ⟨htotal, habsent, hended⟩ := hbefore.headed hhdr hh hn hnothing fun _ => rfl
      have htn : t.newFrame = true := hh.newFrame.trans hn
      refine ⟨done ++ [f], [], gs, by simp, ⟨?_, fun hf => ?_, fun _ => rfl, fun hf => ?_⟩,
        ⟨?_, habsent, fun st hst => (hbefore.origin hh hst).2.1, hended, fun hf => ?_⟩⟩
      · rw [hb, hrest, hnil]
      · rw [htn] at hf
        cases hf
      · rw [htn] at hf
        cases hf
      · rw [owedTo_outside (not_amidFrame_of_newFrame htn)]
        exact htotal
      · exact absurd hf (not_amidFrame_of_newFrame htn)
  · have hwhole (hnone : t'.streams (hdrStreamId t'.hdr) = none) (hshort : t'.Short) :
        t'.recvBuf.length % sliceSize = 0 := payload_of_not_torn hf hc.whole hshort hnone
    by_cases hn : s.newFrame = true
    · -- the header of a DATA frame
      obtain ⟨hs, hheads⟩ := heads_front hn hf
      obtain ⟨f, gs, rfl, hhdr, hrest⟩ := hst.frame hs hn
      have hbefore := h.header hn
      rw [hst.between hn] at hbefore
      cases hheads with
      | @payload u hh hb huhdr htype hfit =>
        have hpunctual (hid : hdrStreamId s.header.hdr = id) (hnone : u.streams id = none) :
            hdrLength s.header.hdr = 0 := by
          by_contra hlen
          refine hc.punctual ⟨_, hf, ?_, hnone, hlen⟩
          change hdrStreamId u.hdr = id
          rw [huhdr]
          exact hid
        obtain ⟨left', hstands, htallies⟩ := hbefore.begins hn hhdr hh huhdr htype hfit
          (by rw [hb]; exact hrest) hpunctual fun hnone hshort => by
            refine hwhole ?_ hshort
            change u.streams (hdrStreamId u.hdr) = none
            rw [huhdr]
            exact hnone
        exact ⟨done ++ [f], left', gs, by simp, hstands, htallies⟩
    · -- the middle of a frame
      have hmid : s.newFrame = false := Bool.eq_false_iff.mpr hn
      have hs : ¬ s.Starved := by
        intro hs
        rw [front_starved hs] at hf
        cases hf
      rw [front_within hst.rxOk hs hmid] at hf
      obtain rfl := Entry.payload.inj (Option.some.inj hf)
      obtain ⟨hstands, htallies⟩ := h.carries hst.input hmid (hst.rxOk hmid).1 (hst.within hmid) rfl
        (carries_payload hwhole)
      exact ⟨done, _, todo, rfl, hstands, htallies⟩

/-- A round that fails has taken a header only. -/
theorem Tallies.failed {r : Int} (h : s.Tallies id returned left done)
    (hst : s.Stands unfed left todo) (hc : s.Heedful id) (hround : s.round = (some r, t))
    (hr : r ≠ 0) : t.newFrame = true ∧ t.Tallies id returned [] done := by
  obtain ⟨-, hr'⟩ | ⟨r', t', hz, hf, hr'⟩ | ⟨t', -, hr'⟩ | ⟨t', -, hr'⟩ := round_cases s <;>
    rw [hr'] at hround <;> cases hround
  · exact absurd rfl hr
  · have hn : s.newFrame = true := by
      by_contra hn
      have hs : ¬ s.Starved := by
        intro hs
        rw [front_starved hs] at hf
        cases hf
      rw [front_within hst.rxOk hs (Bool.eq_false_iff.mpr hn)] at hf
      cases hf
    have hleft := hst.between hn
    subst hleft
    have hbefore := h.header hn
    cases (heads_front hn hf).2 with
    | done hh hb hempty =>
      have htn : t.newFrame = true := hh.newFrame.trans hn
      have htotal := hbefore.total
      rw [owedTo_outside (not_amidFrame_of_newFrame (s := s.header) hn)] at htotal
      refine ⟨htn, ?_, fun hnone => h.absent (hh.streams_none hnone),
        fun st hst => (hbefore.origin hh hst).2.1, fun st hst' he => ?_,
        fun hin => absurd hin (not_amidFrame_of_newFrame htn)⟩
      · rw [owedTo_outside (not_amidFrame_of_newFrame htn), hbefore.heldFor_headed hh]
        exact htotal
      · by_contra hnot
        refine hc.fair ⟨r', t, st, hz, hf, hst', he, fun st₀ hst₀ he₀ => ?_⟩
        exact hnot (h.ended st₀ hst₀ he₀)

/-- A call of `session_process` keeps the account of the frames. It ends at a place of the
input unless it fails. -/
theorem Processes.tallies {r : Int} (hp : Processes s r t)
    (hc : ∀ x, s.Passes x → x.Heedful id) (hst : s.Stands unfed left todo)
    (h : s.Tallies id returned left done) :
    ∃ done' left' todo', done' ++ todo' = done ++ todo ∧ t.Tallies id returned left' done' ∧
      (r = 0 → t.Stands unfed left' todo') ∧ (r ≠ 0 → t.newFrame = true) := by
  induction hp generalizing left done todo with
  | @exit s t r hround =>
    by_cases hr : r = 0
    · have hsame : t = s := by
        obtain ⟨-, hr'⟩ | ⟨r', t', hz, -, hr'⟩ | ⟨t', -, hr'⟩ | ⟨t', -, hr'⟩ := round_cases s <;>
          rw [hr'] at hround <;> cases hround
        · rfl
        · exact absurd hr (by decide)
      subst hsame
      exact ⟨done, left, todo, rfl, h, fun _ => hst, fun hne => absurd hr hne⟩
    · obtain ⟨hn, hfailed⟩ := h.failed hst (hc s .start) hround hr
      exact ⟨done, [], todo, rfl, hfailed, fun hz => absurd hz hr, fun _ => hn⟩
  | next hround _ ih =>
    obtain ⟨done', left', todo', hframes, hst', h'⟩ := h.round hst (hc _ .start) hround
    obtain ⟨done'', left'', todo'', hframes', hrest⟩ :=
      ih (fun x hx => hc x (hx.cons hround)) hst' h'
    exact ⟨done'', left'', todo'', hframes'.trans hframes, hrest⟩

end Session

/-! ## Reads -/

/-- What a read can do: nothing, on a failure or at the end of the stream, or take bytes. -/
theorem exec_streamRead {s t : Session} {id : UInt32} {size : Nat} {r : Int} {bytes : Bytes}
    (hb : ∀ st, s.streams id = some st → st.Bounded)
    (h : (streamRead id size).exec s = (.ret (r, bytes), t)) :
    ∃ st, s.streams id = some st ∧
      (r = -1 ∧ bytes = [] ∧ t = s ∨
        r = 0 ∧ bytes = [] ∧ t = s ∧ st.Ended ∧ st.recvBuf = [] ∨
        0 < r ∧ bytes = st.recvBuf.take size ∧ st.recvBuf ≠ [] ∧
          t = s.updateWindow id (st.afterTake size)) := by
  cases hst : s.streams id with
  | none =>
    simp [streamRead, streamReadClosed, readStream, onStream, exec, hst] at h
  | some st =>
    refine ⟨st, rfl, ?_⟩
    have hlen : st.recvBuf.length < 2 ^ 31 := by
      have := hb st hst
      unfold Stream.Bounded maxWindow at this
      omega
    by_cases hreset : st.state = .reset
    · rw [exec_streamRead_reset hst size hreset] at h
      cases h
      exact .inl ⟨rfl, rfl, rfl⟩
    · by_cases hempty : st.recvBuf = []
      · by_cases hended : st.Ended
        · rw [exec_streamRead_eof hst size hempty hended] at h
          cases h
          exact .inr (.inl ⟨rfl, rfl, rfl, hended, hempty⟩)
        · obtain ⟨h₁, h₂⟩ := not_or.mp hended
          obtain ⟨h₂, h₃⟩ := not_or.mp h₂
          rw [exec_streamRead_wait hst size hempty ⟨h₁, h₂, h₃, hreset⟩] at h
          split at h
          · cases h
            exact .inl ⟨rfl, rfl, rfl⟩
          · cases h
      · obtain rfl | hsize := Nat.eq_zero_or_pos size
        · have habort := exec_streamRead_zero hst (mt (bioPending_eq_zero hlen).mp hempty) hreset
          rw [h] at habort
          cases habort
        · rw [exec_streamRead_data hst hsize hempty hlen hreset] at h
          cases h
          refine .inr (.inr ⟨?_, rfl, hempty, rfl⟩)
          have := List.length_pos_of_ne_nil hempty
          rw [List.length_take]
          omega

/-! ## Runs -/

/-- A session that the peer's bytes are fed to, with the part of them that is still to be fed,
what reads of the stream have returned, whether one of them has returned 0, and whether
`session_process` has failed. -/
structure Reading where
  session : Session
  unfed : Bytes
  returned : Bytes
  eof : Bool
  failed : Bool

namespace Reading

/-- A call that returns, with nothing failing. -/
inductive Step (id : UInt32) (x : Reading) : Api → Reading → Prop where
  | feed {data rest : Bytes} {r : Int} {t : Session} (h : x.unfed = data ++ rest)
      (hexec : (sessionRecvBufWrite data).exec x.session = (.ret r, t)) :
      Step id x (.recvBufWrite data) { x with session := t, unfed := rest }
  | process {r : Int} {t : Session} (hexec : sessionProcess.exec x.session = (.ret r, t)) :
      Step id x .process { x with session := t, failed := x.failed || decide (r ≠ 0) }
  | read {size : Nat} {r : Int} {bytes : Bytes} {t : Session}
      (hexec : (streamRead id size).exec x.session = (.ret (r, bytes), t)) :
      Step id x (.read id size)
        { x with session := t, returned := x.returned ++ bytes, eof := x.eof || decide (r = 0) }
  | openStream {tries : Nat} {t : Session}
      (hexec : (Api.openStream tries).code.exec x.session = (.ret (), t)) :
      Step id x (.openStream tries) { x with session := t }
  | apart {c : Api} {t : Session} (hc : c.IsApart id)
      (hexec : c.code.exec x.session = (.ret (), t)) : Step id x c { x with session := t }

/-- The runs on the bytes of the frames `peer`, in any chunks, whose calls meet `ok`. -/
inductive Run (ok : Reading → Api → Prop) (id : UInt32) (peer : List Frame) (client : Bool)
    (rcvbuf : UInt32) : Reading → Prop where
  | init : Run ok id peer client rcvbuf ⟨sessionInit client rcvbuf, Frame.encode peer, [], false, false⟩
  | call {x y : Reading} (h : Run ok id peer client rcvbuf x) (c : Api) (hok : ok x c)
      (hstep : x.Step id c y) : Run ok id peer client rcvbuf y
  /-- The application sets or clears `O_NONBLOCK` on the descriptor of a stream. -/
  | nonblock {x : Reading} {i : UInt32} {st : Stream} (h : Run ok id peer client rcvbuf x)
      (hst : x.session.streams i = some st) (b : Bool) : Run ok id peer client rcvbuf
        { x with session := x.session.setStream i { st with nonblock := b } }

/-- The condition on a call: a read that finds the stream ended and its buffer empty is not
made in the middle of a frame of the stream; `session_process` has not failed before, and
loses nothing that is meant for the stream. -/
def Timely (id : UInt32) (x : Reading) : Api → Prop
  | .read i _ => i = id → ∀ st, x.session.streams id = some st → st.Ended → st.recvBuf = [] →
      ¬ x.session.AmidFrame id
  | .process => x.failed = false ∧ x.session.recvBuf.length < 2 ^ 31 ∧
      ∀ s, x.session.Passes s → s.Heedful id
  | _ => True

/-- The session has dealt with `done`, and what the stream has got of them tallies. -/
structure Sound (id : UInt32) (peer : List Frame) (x : Reading) : Prop where
  tallies : ∃ done left todo, peer = done ++ todo ∧
    x.session.Tallies id x.returned left done ∧
    (x.failed = false → x.session.Stands x.unfed left todo) ∧
    (x.failed = true → x.session.newFrame = true)
  eof : x.eof = true → x.returned = Frame.payloadFor id peer

variable {id : UInt32} {peer : List Frame} {client : Bool} {rcvbuf : UInt32} {x y : Reading}

theorem Sound.init : Sound id peer ⟨sessionInit client rcvbuf, Frame.encode peer, [], false, false⟩ := by
  have hno (st : Stream) : (sessionInit client rcvbuf).streams id ≠ some st :=
    (Option.some_ne_none st).symm
  refine ⟨⟨[], [], peer, rfl, ⟨?_, fun _ => rfl, fun st h => absurd h (hno st),
    fun st h => absurd h (hno st), fun _ st h => absurd h (hno st)⟩, fun _ => ?_, fun h => ?_⟩,
    fun h => ?_⟩
  · change [] ++ [] ++ (sessionInit client rcvbuf).owedTo id [] = []
    have hout : ¬ (sessionInit client rcvbuf).AmidFrame id := not_amidFrame_of_newFrame rfl
    rw [owedTo_outside hout]
    rfl
  · exact ⟨rfl, rxOk_sessionInit client rcvbuf, fun _ => rfl, fun h => by cases h⟩
  · cases h
  · cases h

/-- A session that differs beside the stream and the frame in progress. -/
theorem Sound.apart (h : Sound id peer x) {t : Session} (ha : Apart id x.session t) :
    Sound id peer { x with session := t } := by
  obtain ⟨done, left, todo, hpeer, htallies, hstands, hbetween⟩ := h.tallies
  exact ⟨⟨done, left, todo, hpeer, htallies.apart ha, fun hf => (hstands hf).apart ha,
    fun hf => ha.frame.newFrame.trans (hbetween hf)⟩, h.eof⟩

theorem Sound.feed (h : Sound id peer x) {data rest : Bytes} (hdata : x.unfed = data ++ rest) :
    Sound id peer { x with session := x.session.more data, unfed := rest } := by
  obtain ⟨done, left, todo, hpeer, htallies, hstands, hbetween⟩ := h.tallies
  refine ⟨⟨done, left, todo, hpeer, ⟨htallies.total, htallies.absent, htallies.bounded,
    htallies.ended, htallies.fits⟩, fun hf => ?_, hbetween⟩, h.eof⟩
  have hst := hstands hf
  refine ⟨?_, hst.rxOk, hst.between, hst.within⟩
  rw [more_recvBuf, List.append_assoc, ← hdata]
  exact hst.input

theorem Sound.process (h : Sound id peer x) {r : Int} {t : Session} (hf : x.failed = false)
    (hc : ∀ s, x.session.Passes s → s.Heedful id) (hp : Processes x.session r t) :
    Sound id peer { x with session := t, failed := x.failed || decide (r ≠ 0) } := by
  obtain ⟨done, left, todo, hpeer, htallies, hstands, -⟩ := h.tallies
  obtain ⟨done', left', todo', hframes, htallies', hgood, hbad⟩ :=
    hp.tallies hc (hstands hf) htallies
  refine ⟨⟨done', left', todo', hpeer.trans hframes.symm, htallies', fun hfail => hgood ?_,
    fun hfail => hbad ?_⟩, h.eof⟩
  · simpa [hf] using hfail
  · simpa [hf] using hfail

/-- A stream is created under an id that had brought nothing yet. -/
theorem Sound.openStream (h : Sound id peer x) {i : UInt32} {next : UInt32}
    (hfree : x.session.streams i = none) :
    Sound id peer { x with
      session := ({ x.session with nextId := next } : Session).updateWindow i
        (Stream.fresh .init x.session.rcvbuf) } := by
  have hcount : Sound id peer { x with session := { x.session with nextId := next } } :=
    h.apart (.of_streams ⟨rfl, rfl, rfl⟩ rfl rfl)
  by_cases hi : id = i
  · subst hi
    obtain ⟨done, left, todo, hpeer, htallies, hstands, hbetween⟩ := h.tallies
    have hnil := htallies.absent hfree
    have htotal := htallies.total
    rw [heldFor_none hfree, List.append_nil, hnil] at htotal
    obtain ⟨hret, howed⟩ := List.append_eq_nil_iff.mp htotal
    have hapart := (Stream.fresh .init x.session.rcvbuf).apart_update
    have hst : (({ x.session with nextId := next } : Session).updateWindow id
        (Stream.fresh .init x.session.rcvbuf)).streams id =
        some (Stream.fresh .init x.session.rcvbuf).update.2 := Session.setStream_same _ _ _
    have hb : (Stream.fresh .init x.session.rcvbuf).Bounded := by
      simp [Stream.Bounded, Stream.fresh, toNat_maxWindow]
    refine ⟨⟨done, left, todo, hpeer, ⟨?_, fun _ => hnil, fun st h₁ => ?_, fun st h₁ he => ?_,
      fun hin st h₁ => ?_⟩, fun hf => ?_, hbetween⟩, h.eof⟩
    · change x.returned ++ _ ++ x.session.owedTo id left = _
      rw [heldFor_some hst, hapart.recvBuf, hret, howed, hnil]
      rfl
    · obtain rfl := Option.some.inj (hst.symm.trans h₁)
      exact (hapart.bounded hb).1
    · obtain rfl := Option.some.inj (hst.symm.trans h₁)
      rcases hapart.ended.mp he with he | he | he <;> cases he
    · -- of a frame in progress nothing can be to come
      have hamid : x.session.AmidFrame id := hin
      rw [owedTo_amidFrame hamid] at howed
      have hf : x.failed = false := by
        by_contra hf
        exact not_amidFrame_of_newFrame (hbetween (Bool.not_eq_false _ ▸ hf)) hamid
      have hremain := (hstands hf).within hamid.1
      rw [howed] at hremain
      change x.session.frameRemain.toNat ≤ _
      rw [← hremain]
      exact Nat.zero_le _
    · have hst := hstands hf
      exact ⟨hst.input, hst.rxOk, hst.between, hst.within⟩
  · exact hcount.apart (.of_streams ⟨rfl, rfl, rfl⟩ rfl (Session.setStream_of_ne _ _ _ hi))

/-- What a stream has got is part of what the peer sends for it. -/
theorem Sound.length_le (h : Sound id peer x) {st : Stream} (hst : x.session.streams id = some st) :
    x.returned.length + st.recvBuf.length ≤ (Frame.payloadFor id peer).length := by
  obtain ⟨done, left, todo, hpeer, htallies, -, -⟩ := h.tallies
  have htotal := congrArg List.length htallies.total
  rw [heldFor_some hst, List.length_append, List.length_append] at htotal
  rw [hpeer, Frame.payloadFor_append, List.length_append]
  omega

/-- Of an ended stream only the rest of a frame in progress can be to come. -/
theorem Sound.ended (hpeer : Frame.FinLast id peer) (h : Sound id peer x) {st : Stream}
    (hst : x.session.streams id = some st) (he : st.Ended) :
    ∃ left, x.returned ++ st.recvBuf ++ x.session.owedTo id left = Frame.payloadFor id peer ∧
      (x.session.AmidFrame id → left ≠ []) := by
  obtain ⟨done, left, todo, rfl, htallies, hstands, hbetween⟩ := h.tallies
  obtain ⟨f, hf, hfin⟩ := htallies.ended st hst he
  refine ⟨left, ?_, fun hamid hnil => ?_⟩
  · rw [Frame.payloadFor_append, hpeer.payloadFor_todo hf hfin, List.append_nil,
      ← htallies.total, heldFor_some hst]
  · cases hfailed : x.failed with
    | true => exact not_amidFrame_of_newFrame (hbetween hfailed) hamid
    | false =>
      have hplace := hstands hfailed
      have hremain := hplace.within hamid.1
      rw [hnil] at hremain
      exact (hplace.rxOk hamid.1).2 (UInt32.toNat_inj.mp hremain.symm)

/-- A read that finds the end of the stream has been preceded by all its bytes exactly if the
session is not in the middle of a frame of the stream. -/
theorem Sound.read_eof (hpeer : Frame.FinLast id peer) (h : Sound id peer x) {st : Stream}
    (hst : x.session.streams id = some st) (he : st.Ended) (hempty : st.recvBuf = []) :
    x.returned = Frame.payloadFor id peer ↔ ¬ x.session.AmidFrame id := by
  obtain ⟨left, htotal, hleft⟩ := h.ended hpeer hst he
  rw [hempty, List.append_nil] at htotal
  constructor
  · intro hall hamid
    rw [owedTo_amidFrame hamid, ← hall] at htotal
    exact hleft hamid (List.append_right_eq_self.mp htotal)
  · intro hout
    rw [owedTo_outside hout, List.append_nil] at htotal
    exact htotal

theorem Sound.bounded (h : Sound id peer x) {st : Stream} (hst : x.session.streams id = some st) :
    st.Bounded := by
  obtain ⟨done, left, todo, -, htallies, -, -⟩ := h.tallies
  exact htallies.bounded st hst

/-- Bytes that a read takes. -/
theorem Sound.take (h : Sound id peer x) (size : Nat) {st : Stream}
    (hst : x.session.streams id = some st) (hne : st.recvBuf ≠ []) :
    x.eof = false ∧ Sound id peer { x with
      session := x.session.updateWindow id (st.afterTake size)
      returned := x.returned ++ st.recvBuf.take size } := by
  have heof : x.eof = false := by
    by_contra heof
    have hall := h.eof (Bool.not_eq_false _ ▸ heof)
    have hle := h.length_le hst
    have hpos := List.length_pos_of_ne_nil hne
    rw [← hall] at hle
    omega
  refine ⟨heof, ?_, fun ht => ?_⟩
  · obtain ⟨done, left, todo, hpeer, htallies, hstands, hbetween⟩ := h.tallies
    have hapart := (st.afterTake size).apart_update
    have hb : (st.afterTake size).Bounded := by
      have := h.bounded hst
      unfold Stream.Bounded at this ⊢
      simp only [Stream.afterTake, List.length_drop]
      omega
    have hst' : (x.session.updateWindow id (st.afterTake size)).streams id =
        some (st.afterTake size).update.2 := x.session.setStream_same _ _
    refine ⟨done, left, todo, hpeer, ⟨?_, fun hnone => ?_, fun st₁ h₁ => ?_,
      fun st₁ h₁ he => ?_, fun hin st₁ h₁ => ?_⟩, fun hf => ?_, hbetween⟩
    · have htotal := htallies.total
      rw [heldFor_some hst] at htotal
      change x.returned ++ st.recvBuf.take size ++ _ ++ x.session.owedTo id left = _
      rw [heldFor_some hst', hapart.recvBuf, ← htotal]
      simp only [Stream.afterTake, List.append_assoc, List.take_append_drop]
    · rw [hst'] at hnone
      cases hnone
    · obtain rfl := Option.some.inj (hst'.symm.trans h₁)
      exact (hapart.bounded hb).1
    · obtain rfl := Option.some.inj (hst'.symm.trans h₁)
      exact htallies.ended st hst (hapart.ended.mp he)
    · obtain rfl := Option.some.inj (hst'.symm.trans h₁)
      exact (htallies.fits hin st hst).trans (hapart.bounded hb).2
    · have hplace := hstands hf
      exact ⟨hplace.input, hplace.rxOk, hplace.between, hplace.within⟩
  · have ht' : x.eof = true := ht
    rw [heof] at ht'
    cases ht'

/-- A call in time keeps the account. -/
theorem Sound.step (hpeer : Frame.FinLast id peer) (h : Sound id peer x) {c : Api}
    (hok : Timely id x c) (hstep : x.Step id c y) : Sound id peer y := by
  cases hstep with
  | @feed data rest r t hdata hexec =>
    rw [exec_sessionRecvBufWrite] at hexec
    cases hexec
    exact h.feed hdata
  | @process r t hexec =>
    obtain ⟨hf, hlen, hc⟩ := hok
    obtain ⟨done, left, todo, -, -, hstands, -⟩ := h.tallies
    obtain ⟨r', t', hexec', hp⟩ := exec_sessionProcess (hstands hf).rxOk hlen
    rw [hexec] at hexec'
    cases hexec'
    exact h.process hf hc hp
  | @read size r bytes t hexec =>
    obtain ⟨st, hst, ⟨rfl, rfl, rfl⟩ | ⟨rfl, rfl, rfl, he, hempty⟩ | ⟨hr, rfl, hne, rfl⟩⟩ :=
      exec_streamRead (fun _ => h.bounded) hexec
    · rw [List.append_nil]
      exact ⟨h.tallies, fun heof => h.eof (by simpa using heof)⟩
    · rw [List.append_nil]
      exact ⟨h.tallies, fun _ => (h.read_eof hpeer hst he hempty).mpr (hok rfl st hst he hempty)⟩
    · obtain ⟨heof, htaken⟩ := h.take size hst hne
      have hsame : (x.eof || decide (r = 0)) = x.eof := by
        rw [decide_eq_false (by omega), Bool.or_false]
      rw [hsame]
      exact htaken
  | @openStream tries t hexec =>
    rcases exec_openStream hexec with rfl | ⟨hfree, rfl⟩
    · exact h
    · exact h.openStream hfree
  | @apart c t hc hexec =>
    have hacts : Acts socketsOk (Apart id) c.code := apart_code hc
    have hend := Env.wp_exec socketsOk_true (hacts.wp_alone .refl .trans x.session)
    rw [hexec] at hend
    exact h.apart hend

theorem Run.sound (hpeer : Frame.FinLast id peer) (h : Run (Timely id) id peer client rcvbuf x) :
    Sound id peer x := by
  induction h with
  | init => exact .init
  | call _ c hok hstep ih => exact ih.step hpeer hok hstep
  | @nonblock x i st _ hst b ih =>
    exact ih.apart (@Apart.of_touches id i _ _ Stream.Apart (fun _ _ _ h => h)
      (.stream hst (.of_eq rfl rfl rfl)))

end Reading

/-- In a run in time, once a read has returned 0 all the payload that the peer sends for the
stream has been returned, and no later read returns any. Whether the next read that returns 0
has been preceded by all of it depends on the place of the session: it must not be in the
middle of a frame of the stream. -/
theorem eof_after_data {id : UInt32} {peer : List Frame} (hpeer : Frame.FinLast id peer)
    {client : Bool} {rcvbuf : UInt32} {x : Reading}
    (h : Reading.Run (Reading.Timely id) id peer client rcvbuf x) :
    (x.eof = true → x.returned = Frame.payloadFor id peer ∧
      ∀ size r bytes t, (streamRead id size).exec x.session = (.ret (r, bytes), t) → r ≤ 0) ∧
    ∀ size bytes t, (streamRead id size).exec x.session = (.ret (0, bytes), t) →
      (x.returned = Frame.payloadFor id peer ↔ ¬ x.session.AmidFrame id) := by
  have hs := h.sound hpeer
  refine ⟨fun heof => ⟨hs.eof heof, fun size r bytes t hexec => ?_⟩, fun size bytes t hexec => ?_⟩
  · obtain ⟨st, hst, ⟨rfl, -, -⟩ | ⟨rfl, -, -, -, -⟩ | ⟨-, -, hne, -⟩⟩ :=
      exec_streamRead (fun _ => hs.bounded) hexec
    · decide
    · exact le_rfl
    · have hopen := (hs.take size hst hne).1
      rw [heof] at hopen
      cases hopen
  · obtain ⟨st, hst, ⟨hr, -, -⟩ | ⟨-, -, -, he, hempty⟩ | ⟨hr, -, -, -⟩⟩ :=
      exec_streamRead (fun _ => hs.bounded) hexec
    · cases hr
    · exact hs.read_eof hpeer hst he hempty
    · exact absurd hr (lt_irrefl 0)

/-! ## A frame with data and FIN -/

/-- The peer opens stream 1, sends one byte and closes, all in one frame. -/
def farewell : Frame := Frame.data (FLAG_SYN ||| FLAG_FIN) 1 [7] (by decide)

theorem finLast_farewell (id : UInt32) : Frame.FinLast id [farewell] := by
  intro done f todo h _
  have hlen := congrArg List.length h
  simp only [List.length_append, List.length_cons, List.length_nil] at hlen
  have hnil : todo = [] := by
    rw [← List.length_eq_zero_iff]
    omega
  rw [hnil]
  exact fun g hg => absurd hg List.not_mem_nil

theorem exec_ret {α : Type} {p : Op α} {s : Session} {a : α} (h : (p.exec s).1 = .ret a) :
    p.exec s = (.ret a, (p.exec s).2) :=
  Prod.ext h rfl

namespace Reading

variable {ok : Reading → Api → Prop} {id : UInt32} {peer : List Frame} {client : Bool}
  {rcvbuf : UInt32} {x : Reading}

/-- The calls on a session, as functions of the run so far. -/
def fed (x : Reading) (data rest : Bytes) : Reading :=
  { x with session := x.session.more data, unfed := rest }

def processed (x : Reading) : Reading := { x with session := (sessionProcess.exec x.session).2 }

def afterRead (x : Reading) (id : UInt32) (size : Nat) (r : Int) (bytes : Bytes) : Reading :=
  { x with
    session := ((streamRead id size).exec x.session).2
    returned := x.returned ++ bytes
    eof := x.eof || decide (r = 0) }

theorem Run.fed (h : Run ok id peer client rcvbuf x) (data rest : Bytes)
    (hdata : x.unfed = data ++ rest) (hok : ok x (.recvBufWrite data)) :
    Run ok id peer client rcvbuf (x.fed data rest) :=
  h.call _ hok (.feed hdata (exec_sessionRecvBufWrite data x.session))

theorem Run.processed (h : Run ok id peer client rcvbuf x) (hok : ok x .process)
    (hret : (sessionProcess.exec x.session).1 = .ret 0) :
    Run ok id peer client rcvbuf x.processed := by
  have hstep : x.Step id .process _ := .process (exec_ret hret)
  rw [decide_eq_false (fun h => h rfl), Bool.or_false] at hstep
  exact h.call _ hok hstep

theorem Run.afterRead (h : Run ok id peer client rcvbuf x) (size : Nat) (r : Int) (bytes : Bytes)
    (hok : ok x (.read id size)) (hret : ((streamRead id size).exec x.session).1 = .ret (r, bytes)) :
    Run ok id peer client rcvbuf (x.afterRead id size r bytes) :=
  h.call _ hok (.read (exec_ret hret))

/-- A session to which nothing was fed yet. -/
def begun (peer : List Frame) : Reading :=
  ⟨sessionInit true 4096, Frame.encode peer, [], false, false⟩

/-- The byte arrives with its header, and is read before the end of the stream. -/
def whole : Reading :=
  (((begun [farewell]).fed farewell.bytes []).processed.afterRead 1 1 1 [7]).afterRead 1 1 0 []

/-- The byte arrives after the end of the stream was read. -/
def parted : Reading :=
  ((((begun [farewell]).fed farewell.hdr [7]).processed.afterRead 1 1 0 []).fed [7] []).processed

end Reading

/-- The header of the frame arrives without its payload. A read returns 0 and a later one the
byte. -/
theorem eof_before_data : Frame.FinLast 1 [farewell] ∧
    Reading.Run (fun _ _ => True) 1 [farewell] true 4096 Reading.parted ∧
    Reading.parted.eof = true ∧ Reading.parted.returned ≠ Frame.payloadFor 1 [farewell] ∧
    ∃ t, (streamRead 1 1).exec Reading.parted.session = (.ret (1, [7]), t) := by
  refine ⟨finLast_farewell 1, ?_, rfl, by decide, _, exec_ret (by decide +kernel)⟩
  have hfed := (Reading.Run.init : Reading.Run (fun _ _ => True) 1 [farewell] true 4096
    (Reading.begun [farewell])).fed farewell.hdr [7] rfl trivial
  have hread := (hfed.processed trivial (by decide +kernel)).afterRead 1 0 [] trivial
    (by decide +kernel)
  exact (hread.fed [7] [] rfl trivial).processed trivial (by decide +kernel)

theorem Session.Heedful.of_payload {s t : Session} {id : UInt32}
    (hf : s.front = some (.payload t)) (hlive : (t.streams (hdrStreamId t.hdr)).isSome = true) :
    s.Heedful id := by
  have hsame (u : Session) (hu : s.front = some (.payload u)) :
      (u.streams (hdrStreamId u.hdr)).isSome = true := by
    obtain rfl := Entry.payload.inj (Option.some.inj (hf.symm.trans hu))
    exact hlive
  refine ⟨fun ⟨u, hu, hnone, _⟩ => ?_, fun ⟨u, hu, hid, hnone, _⟩ => ?_,
    fun ⟨r, u, st, _, hu, _⟩ => ?_⟩
  · have hsome := hsame u hu
    rw [hnone] at hsome
    cases hsome
  · have hsome := hsame u hu
    rw [hid, hnone] at hsome
    cases hsome
  · rw [hf] at hu
    cases hu

theorem Session.Heedful.of_starved {s : Session} (hs : s.Starved) (id : UInt32) : s.Heedful id := by
  have hf := front_starved hs
  refine ⟨fun ⟨u, hu, _⟩ => ?_, fun ⟨u, hu, _⟩ => ?_, fun ⟨r, u, st, _, hu, _⟩ => ?_⟩
  · rw [hf] at hu
    cases hu
  · rw [hf] at hu
    cases hu
  · rw [hf] at hu
    cases hu

/-- The whole frame takes one round. -/
theorem heedful_farewell {s : Session} (h : ((Reading.begun [farewell]).fed farewell.bytes
    []).session.Passes s) : s.Heedful 1 := by
  have hend : ((Reading.begun [farewell]).fed farewell.bytes []).session.round.2.Starved := by
    decide +kernel
  have main : s = ((Reading.begun [farewell]).fed farewell.bytes []).session ∨
      s = ((Reading.begun [farewell]).fed farewell.bytes []).session.round.2 := by
    induction h with
    | start => exact .inl rfl
    | next _ hr ih =>
      rcases ih with rfl | rfl
      · exact .inr (congrArg Prod.snd hr).symm
      · rw [round_starved hend] at hr
        cases hr
  rcases main with rfl | rfl
  · have hlive : (((Reading.begun [farewell]).fed farewell.bytes []).session.front.elim false
        fun e => match e with
          | .payload t => (t.streams (hdrStreamId t.hdr)).isSome
          | .done _ _ => false) = true := by decide +kernel
    cases hf : ((Reading.begun [farewell]).fed farewell.bytes []).session.front with
    | none =>
      rw [hf] at hlive
      cases hlive
    | some e =>
      rw [hf] at hlive
      cases e with
      | done r t => cases hlive
      | payload t => exact .of_payload hf hlive
  · exact .of_starved hend 1

/-- The same frame in one piece. -/
theorem eof_after_data_whole : Reading.whole.eof = true ∧ Reading.whole.returned = [7] ∧
    ((Reading.whole.eof = true → Reading.whole.returned = Frame.payloadFor 1 [farewell] ∧
      ∀ size r bytes t, (streamRead 1 size).exec Reading.whole.session = (.ret (r, bytes), t) →
        r ≤ 0) ∧
    ∀ size bytes t, (streamRead 1 size).exec Reading.whole.session = (.ret (0, bytes), t) →
      (Reading.whole.returned = Frame.payloadFor 1 [farewell] ↔
        ¬ Reading.whole.session.AmidFrame 1)) := by
  have hfed := (Reading.Run.init : Reading.Run (Reading.Timely 1) 1 [farewell] true 4096
    (Reading.begun [farewell])).fed farewell.bytes [] rfl trivial
  have hdone := hfed.processed ⟨rfl, by decide +kernel, fun s hs => heedful_farewell hs⟩
    (by decide +kernel)
  have houtside : ¬ ((Reading.begun [farewell]).fed farewell.bytes []).processed.session.AmidFrame
      1 := by decide +kernel
  have hbyte := hdone.afterRead 1 1 [7] (fun _ _ _ _ _ => houtside) (by decide +kernel)
  have hrun := hbyte.afterRead 1 0 [] (fun _ _ _ _ _ => by decide +kernel) (by decide +kernel)
  exact ⟨rfl, rfl, eof_after_data (finLast_farewell 1) hrun⟩

end Yamux
