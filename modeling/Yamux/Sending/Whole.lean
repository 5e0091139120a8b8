import Yamux.Sending.Queueing

/-!
# Whole frames in the send buffer

The header of a DATA frame and its payload are queued one after the other, and another
thread may queue something in between. In a run in which that does not happen the bytes
queued are whole frames whenever no call is in progress, and each payload is the one
that the call has announced.
-/

namespace Yamux

open Core Prog

variable {τ : Type}

/-- The header of a DATA frame that has a payload. -/
def announcesData (b : Bytes) : Prop :=
  b.length = hdrSize ∧ hdrType b = TYPE_DATA ∧ hdrLength b ≠ 0

instance (b : Bytes) : Decidable (announcesData b) :=
  inferInstanceAs (Decidable (_ ∧ _ ∧ _))

/-- The thread that owes a payload after a step of thread `i`. -/
def owingAfter (i : τ) (owing : Option τ) (s t : Session) : Option τ :=
  if t.sendBuf = s.sendBuf then owing
  else
    match owing with
    | some _ => none
    | none => if announcesData (t.sendBuf.drop s.sendBuf.length) then some i else none

/-- Thread `i` queues nothing while another thread owes a payload. -/
def Undisturbed (i : τ) (owing : Option τ) (s t : Session) : Prop :=
  t.sendBuf ≠ s.sendBuf → owing = none ∨ owing = some i

/-- The pools that runs of any threads lead to from an empty send buffer, with the thread
that owes a payload and the calls that were made. Every step meets `ok`. -/
inductive QueueRun [DecidableEq τ] (ok : τ → Option τ → Session → Session → Prop) :
    Option τ → List (τ × Api) → Pool Call Mutex Session Api τ → Prop where
  | start {s : Session} (h : s.sendBuf = []) : QueueRun ok none [] (.start s)
  | step {owing : Option τ} {calls : List (τ × Api)} {P Q : Pool Call Mutex Session Api τ} {i : τ}
      (h : QueueRun ok owing calls P)
      (hs : Pool.Step Api.code (fun _ c => c.queues) allocOk i P Q)
      (hok : ok i owing P.state Q.state) :
      QueueRun ok (owingAfter i owing P.state Q.state)
        (((Q.threads i).map fun cp => (i, cp.1)).toList ++ calls) Q

/-- The payload of a DATA frame comes from a call for its stream. -/
def Frame.From (calls : List (τ × Api)) (f : Frame) : Prop :=
  f.type = TYPE_DATA → ∃ i data, (i, Api.write f.id data) ∈ calls ∧
    f.payload = data.take f.length.toNat

/-- What was queued: whole frames, or whole frames and the header of one more, whose
thread owes the payload. -/
inductive Queued (calls : List (τ × Api)) (g : τ → Option Bytes) : Option τ → Bytes → Prop where
  | whole {fs : List Frame} {b : Bytes} (hb : b = Frame.encode fs)
      (hfs : ∀ f ∈ fs, f.From calls) (hg : ∀ j, g j = none) : Queued calls g none b
  | header {fs : List Frame} {b : Bytes} {i : τ} {flags : UInt16} {id max : UInt32} {data : Bytes}
      (hb : b = Frame.encode fs ++ hdrEncode TYPE_DATA flags id max)
      (hfs : ∀ f ∈ fs, f.From calls) (hi : g i = some (data.take max.toNat))
      (hg : ∀ j, j ≠ i → g j = none) (hcall : (i, Api.write id data) ∈ calls)
      (hmax : max.toNat ≤ data.length) (h0 : max ≠ 0) : Queued calls g (some i) b

theorem Queued.mono {calls calls' : List (τ × Api)} {g : τ → Option Bytes} {owing : Option τ}
    {b : Bytes} (h : Queued calls g owing b) (hsub : ∀ c ∈ calls, c ∈ calls') :
    Queued calls' g owing b := by
  have hfrom {f : Frame} (hf : f.From calls) : f.From calls' := by
    intro htype
    obtain ⟨i, data, hcall, hpay⟩ := hf htype
    exact ⟨i, data, hsub _ hcall, hpay⟩
  cases h with
  | whole hb hfs hg => exact .whole hb (fun f hf => hfrom (hfs f hf)) hg
  | header hb hfs hi hg hcall hmax h0 =>
    exact .header hb (fun f hf => hfrom (hfs f hf)) hi hg (hsub _ hcall) hmax h0

/-- A frame with the payload that a call has announced. -/
theorem exists_frame {i : τ} {calls : List (τ × Api)} {flags : UInt16} {id max : UInt32}
    {data : Bytes} (hcall : (i, Api.write id data) ∈ calls) (hmax : max.toNat ≤ data.length) :
    ∃ f : Frame, f.hdr = hdrEncode TYPE_DATA flags id max ∧ f.payload = data.take max.toNat ∧
      f.From calls := by
  have hlen : (data.take max.toNat).length = max.toNat := by
    rw [List.length_take, min_eq_left hmax]
  refine ⟨⟨hdrEncode TYPE_DATA flags id max, data.take max.toNat, rfl, ?_⟩, rfl, rfl, ?_⟩
  · rw [hlen, hdrType_hdrEncode, hdrLength_hdrEncode, if_pos rfl]
  · intro _
    refine ⟨i, data, ?_, ?_⟩
    · change (i, Api.write (hdrStreamId (hdrEncode TYPE_DATA flags id max)) data) ∈ calls
      rwa [hdrStreamId_hdrEncode]
    · change data.take max.toNat =
        data.take (hdrLength (hdrEncode TYPE_DATA flags id max)).toNat
      rw [hdrLength_hdrEncode]

theorem Frame.encode_concat (fs : List Frame) (f : Frame) :
    encode (fs ++ [f]) = encode fs ++ (f.hdr ++ f.payload) := by
  rw [encode_append, encode_cons, encode_nil, List.append_nil]

theorem from_concat {calls : List (τ × Api)} {fs : List Frame} {f : Frame}
    (hfs : ∀ f ∈ fs, f.From calls) (hf : f.From calls) : ∀ f' ∈ fs ++ [f], f'.From calls := by
  intro f' hf'
  rcases List.mem_append.mp hf' with h | h
  · exact hfs f' h
  · rw [List.mem_singleton.mp h]
    exact hf

variable [DecidableEq τ]

theorem ne_of_append {b c d : Bytes} (h : c = b ++ d) (hd : d ≠ []) : c ≠ b := by
  intro he
  rw [he] at h
  exact hd (List.self_eq_append_right.mp h)

omit [DecidableEq τ] in
/-- Queueing a frame, or its header, when nothing is owed. -/
theorem owingAfter_none {i : τ} {s t : Session} {b : Bytes} (h : t.sendBuf = s.sendBuf ++ b)
    (hb : b ≠ []) : owingAfter i none s t = if announcesData b then some i else none := by
  unfold owingAfter
  rw [if_neg (ne_of_append h hb), h, List.drop_left]

omit [DecidableEq τ] in
/-- Paying. -/
theorem owingAfter_some {i j : τ} {s t : Session} {b : Bytes} (h : t.sendBuf = s.sendBuf ++ b)
    (hb : b ≠ []) : owingAfter i (some j) s t = none := by
  unfold owingAfter
  rw [if_neg (ne_of_append h hb)]

theorem hdrEncode_ne_nil (type : UInt8) (flags : UInt16) (id len : UInt32) :
    hdrEncode type flags id len ≠ [] := List.cons_ne_nil _ _

theorem update_none {g : τ → Option Bytes} {i : τ} (h : ∀ j, j ≠ i → g j = none) (j : τ) :
    Function.update g i none j = none := by
  by_cases hj : j = i
  · rw [hj, Function.update_self]
  · rw [Function.update_of_ne hj]
    exact h j hj

omit [DecidableEq τ] in
/-- A thread that owes nothing and may queue finds whole frames. -/
theorem Queued.whole_of {calls : List (τ × Api)} {g : τ → Option Bytes} {owing : Option τ}
    {b : Bytes} {i : τ} (h : Queued calls g owing b) (hok : owing = none ∨ owing = some i)
    (hi : g i = none) : owing = none ∧ (∀ j, g j = none) ∧
      ∃ fs, b = Frame.encode fs ∧ ∀ f ∈ fs, f.From calls := by
  cases h with
  | whole hb hfs hg => exact ⟨rfl, hg, _, hb, hfs⟩
  | header _ _ hj =>
    obtain h | h := hok
    · cases h
    · rw [Option.some.inj h, hi] at hj
      cases hj

/-- A step that meets the condition keeps the frames whole. -/
theorem Queued.step {calls : List (τ × Api)} {g : τ → Option Bytes} {owing : Option τ}
    {s t : Session} {i : τ} {c : Api} {owed : Option Bytes} (h : Queued calls g owing s.sendBuf)
    (hok : Undisturbed i owing s t) (hcall : (i, c) ∈ calls) (hR : SendStep c (g i) s t owed) :
    Queued calls (Function.update g i owed) (owingAfter i owing s t) t.sendBuf := by
  generalize hi : g i = before at hR
  cases hR with
  | quiet hsame =>
    unfold owingAfter
    rw [← hi, Function.update_eq_self, if_pos hsame, hsame]
    exact h
  | @control type flags id len _ _ htype ht =>
    have hne := hdrEncode_ne_nil type flags id len
    obtain ⟨rfl, hg, fs, hb, hfs⟩ := h.whole_of (hok (ne_of_append ht hne)) hi
    have hplain : ¬ announcesData (hdrEncode type flags id len) := fun ha => htype ha.2.1
    rw [owingAfter_none ht hne, if_neg hplain]
    refine @Queued.whole _ _ _ (fs ++ [Frame.control type flags id len htype]) _ ?_
      (from_concat hfs fun hd => absurd hd htype) (update_none fun j _ => hg j)
    rw [ht, hb, Frame.encode_concat]
    exact congrArg _ (List.append_nil _).symm
  | @header flags id max data _ _ hc hmax ht =>
    have hne := hdrEncode_ne_nil TYPE_DATA flags id max
    obtain ⟨rfl, hg, fs, hb, hfs⟩ := h.whole_of (hok (ne_of_append ht hne)) hi
    rw [owingAfter_none ht hne, ht, hb]
    by_cases h0 : max = 0
    · -- the frame is whole at once
      have hplain : ¬ announcesData (hdrEncode TYPE_DATA flags id max) := by
        rintro ⟨-, -, hlen⟩
        rw [hdrLength_hdrEncode] at hlen
        exact hlen h0
      obtain ⟨f, hhdr, hpay, hfrom⟩ := @exists_frame _ _ _ flags _ _ _ (hc ▸ hcall) hmax
      rw [if_neg hplain, if_pos h0]
      refine @Queued.whole _ _ _ (fs ++ [f]) _ ?_ (from_concat hfs hfrom) (update_none fun j _ => hg j)
      rw [Frame.encode_concat, hhdr, hpay, h0]
      exact congrArg _ (List.append_nil _).symm
    · have hdata : announcesData (hdrEncode TYPE_DATA flags id max) := by
        refine ⟨rfl, rfl, ?_⟩
        rwa [hdrLength_hdrEncode]
      rw [if_pos hdata, if_neg h0]
      refine .header rfl hfs (Function.update_self _ _ _) (fun j hj => ?_) (hc ▸ hcall) hmax h0
      rw [Function.update_of_ne hj]
      exact hg j
  | payload ht =>
    cases h with
    | whole _ _ hg =>
      rw [hg i] at hi
      cases hi
    | @header fs _ j flags id max data hb hfs hj hg hcall' hmax h0 =>
      have hij : i = j := by
        by_contra hne
        rw [hg i hne] at hi
        cases hi
      subst hij
      obtain rfl := Option.some.inj (hj.symm.trans hi)
      have hne : data.take max.toNat ≠ [] := by
        intro he
        have hlen := congrArg List.length he
        rw [List.length_take, min_eq_left hmax] at hlen
        exact h0 (UInt32.toNat_inj.mp hlen)
      obtain ⟨f, hhdr, hpay, hfrom⟩ := @exists_frame _ _ _ flags _ _ _ hcall' hmax
      rw [owingAfter_some ht hne]
      refine @Queued.whole _ _ _ (fs ++ [f]) _ ?_ (from_concat hfs hfrom) (update_none hg)
      rw [Frame.encode_concat, hhdr, hpay, ht, hb, List.append_assoc]

/-- What a run keeps: every thread pays what it owes, and the calls in progress were made. -/
theorem QueueRun.queued {owing : Option τ} {calls : List (τ × Api)}
    {P : Pool Call Mutex Session Api τ} (h : QueueRun Undisturbed owing calls P) :
    ∃ g, P.Follow (fun _ c => c.queues) allocOk SendStep none g ∧
      (∀ i c p, P.threads i = some (c, p) → (i, c) ∈ calls) ∧
      Queued calls g owing P.state.sendBuf := by
  induction h with
  | @start s h =>
    refine ⟨fun _ => none, Pool.follow_start s, fun i c p hi => ?_,
      @Queued.whole _ _ _ [] _ h (fun f hf => ?_) fun _ => rfl⟩
    · cases hi
    · cases hf
  | @step owing calls P Q i _ hs hok ih =>
    obtain ⟨g, hfollow, hmade, hqueued⟩ := ih
    have hsub : ∀ c ∈ calls, c ∈ ((Q.threads i).map fun cp => (i, cp.1)).toList ++ calls :=
      fun c hc => List.mem_append_right _ hc
    have hmade' : ∀ j c p, Q.threads j = some (c, p) →
        (j, c) ∈ ((Q.threads i).map fun cp => (i, cp.1)).toList ++ calls := by
      intro j c p hj
      by_cases hji : j = i
      · subst hji
        rw [hj]
        exact List.mem_append_left _ (List.mem_singleton.mpr rfl)
      · exact hsub _ (hmade j c p ((hs.others hji).symm.trans hj))
    rcases hfollow.step (fun c hc => follows_code hc) hs with
      ⟨hstate, hfollow'⟩ | ⟨c, p, q, owed, hp, hq, hR, hfollow'⟩
    · refine ⟨g, hfollow', hmade', ?_⟩
      unfold owingAfter
      rw [hstate, if_pos rfl]
      exact hqueued.mono hsub
    · exact ⟨_, hfollow', hmade', (hqueued.mono hsub).step hok (hmade' i c q hq) hR⟩

/-! ## Writers at rest -/

instance (c : Api) : Decidable c.queues :=
  match c with
  | .sendBufConsume _ => inferInstanceAs (Decidable False)
  | .recvBufWrite _ | .process | .sendBufPending | .sendBufPeek _ | .openStream _
  | .acceptStream | .read _ _ | .write _ _ | .goAway => inferInstanceAs (Decidable True)

theorem allocOk_true (c : Call) : allocOk c true := fun _ => rfl

/-- A schedule whose steps all meet the condition is a run. -/
theorem QueueRun.play {ok : τ → Option τ → Session → Session → Prop}
    (hok : ∀ i owing s t, ok i owing s t) {s : Session} (hs : s.sendBuf = [])
    {schedule : List (τ × Option Api)} {P : Pool Call Mutex Session Api τ}
    (h : Pool.play Api.code (fun _ c => c.queues) (fun _ _ _ => true) schedule (.start s) =
      some P) : ∃ owing calls, QueueRun ok owing calls P :=
  Pool.play_keeps (R := fun P => ∃ owing calls, QueueRun ok owing calls P) allocOk_true
    (fun _ _ => rfl) (fun _ _ _ ⟨_, _, hP⟩ hs _ => ⟨_, _, hP.step hs (hok _ _ _ _)⟩)
    ⟨none, [], .start hs⟩ h

end Yamux
