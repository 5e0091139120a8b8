import Yamux.Lifecycle.Course

/-!
# Reset streams

The state of a stream moves forward only, whatever is called and whatever fails, and
`RESET` is its end. From there on `stream_read` and `stream_write` return at once. That
`session_accept` does not speak for a stream that was reset before it was accepted is owed
to its windows: nobody has read from it, so there is no credit to announce.
-/

namespace Yamux

open Core Prog Session

/-! ## The order of the states -/

/-- How far a stream has come. -/
def StreamState.rank : StreamState → Nat
  | .init => 0
  | .synSent => 1
  | .synReceived => 1
  | .established => 2
  | .localClose => 3
  | .remoteClose => 3
  | .closed => 4
  | .reset => 5

/-- The same state, or one that is further on. -/
def StreamState.Forward (a b : StreamState) : Prop := a = b ∨ a.rank < b.rank

instance (a b : StreamState) : Decidable (a.Forward b) :=
  inferInstanceAs (Decidable (a = b ∨ a.rank < b.rank))

theorem StreamState.Forward.refl (a : StreamState) : a.Forward a := .inl rfl

theorem StreamState.Forward.trans {a b c : StreamState} (h : a.Forward b) (h' : b.Forward c) :
    a.Forward c := by
  obtain rfl | h := h
  · exact h'
  · obtain rfl | h' := h'
    · exact .inr h
    · exact .inr (h.trans h')

/-- Nothing is further on than `RESET`. -/
theorem StreamState.Forward.reset {b : StreamState} (h : StreamState.reset.Forward b) :
    b = .reset := by
  obtain rfl | h := h
  · rfl
  · cases b <;> exact absurd h (by decide)

section Stream

variable {st st' : Stream} {flags : UInt16}

/-- The flags of a frame move a stream forward, and RST to the end. -/
theorem Stream.processFlags_forward (h : st.processFlags flags = some st') :
    st.state.Forward st'.state ∧ (hasFlag flags FLAG_RST = true → st'.state = .reset) := by
  obtain ⟨st₁, hfin, rfl⟩ := Option.map_eq_some_iff.mp h
  have hack : st.state.Forward (st.processAck flags).state := by
    unfold Stream.processAck
    split
    · rename_i hc
      rw [hc.2]
      exact show StreamState.synSent.Forward .established by decide
    · exact .refl _
  have hclose : (st.processAck flags).state.Forward st₁.state := by
    unfold Stream.processFin at hfin
    split at hfin
    · cases hst : (st.processAck flags).state with
      | synSent | synReceived | established =>
        rw [hst] at hfin
        cases hfin
        exact .inr (show _ < StreamState.remoteClose.rank by decide)
      | localClose =>
        rw [hst] at hfin
        cases hfin
        exact show StreamState.localClose.Forward .closed by decide
      | init | remoteClose | closed | reset =>
        rw [hst] at hfin
        cases hfin
    · cases hfin
      exact .refl _
  unfold Stream.processRst
  split
  · refine ⟨?_, fun _ => rfl⟩
    change st.state.Forward .reset
    cases st.state <;> decide
  · exact ⟨hack.trans hclose, fun hrst => absurd hrst ‹_›⟩

theorem Stream.sendFlags_forward (st : Stream) : st.state.Forward st.sendFlags.2.state := by
  unfold Stream.sendFlags
  split
  · rename_i hst
    rw [hst]
    exact show StreamState.init.Forward .synSent by decide
  · rename_i hst
    rw [hst]
    exact show StreamState.synReceived.Forward .established by decide
  · exact .refl _

/-! ## Credit that is left to announce -/

theorem ofInt_toInt32 (n : Nat) : UInt32.ofInt (toInt32 n) = UInt32.ofNat n := by
  have hmod : toInt32 n % 2 ^ 32 = (n : Int) % 2 ^ 32 := by
    unfold toInt32
    exact Int.bmod_emod
  have hnat : ((n : Int) % 2 ^ 32).toNat = n % 2 ^ 32 := by omega
  apply UInt32.toNat_inj.mp
  rw [UInt32.ofInt, hmod, hnat, UInt32.toNat_ofNat', UInt32.toNat_ofNat', Nat.mod_mod]

theorem Stream.delta_eq (st : Stream) :
    st.delta = MAX_STREAM_WINDOW_SIZE - UInt32.ofNat st.recvBuf.length - st.recvWindow := by
  rw [Stream.delta, bioPending, ofInt_toInt32]

@[simp] theorem Stream.delta_fresh (state : StreamState) (padding : UInt32) :
    (Stream.fresh state padding).delta = 0 := by
  rw [Stream.delta_eq]
  change MAX_STREAM_WINDOW_SIZE - 0 - MAX_STREAM_WINDOW_SIZE = 0
  rw [UInt32.sub_zero, UInt32.sub_self]

/-- A slice takes as much off the window as it leaves in the buffer. -/
theorem Stream.delta_slice (st : Stream) (slice : Bytes) :
    ({ st with
      recvBuf := st.recvBuf ++ slice
      recvWindow := st.recvWindow - UInt32.ofNat slice.length } : Stream).delta = st.delta := by
  rw [Stream.delta_eq, Stream.delta_eq]
  dsimp only
  rw [List.length_append, UInt32.ofNat_add]
  grind

theorem Stream.delta_sendFlags_eq (st : Stream) : st.sendFlags.2.delta = st.delta := by
  obtain ⟨state, h⟩ := st.sendFlags_state
  rw [h]
  rfl

/-- A window update leaves nothing to announce where there was nothing. -/
theorem Stream.delta_grant (h : st.delta = 0) : (st.grant flags).2.delta = 0 := by
  unfold Stream.grant
  split
  · exact h
  · rw [h]
    change ({ st with recvWindow := st.recvWindow + 0 } : Stream).delta = 0
    rw [UInt32.add_zero]
    exact h

end Stream

/-! ## The course that all calls keep to -/

/-- States move forward, and but for the stream that is read from nothing is left to announce
where nothing was. -/
def Course.forward (busy : Option UInt32) : Course where
  step id st st' := st.state.Forward st'.state ∧ (busy ≠ some id → st.delta = 0 → st'.delta = 0)
  born id st := busy ≠ some id → st.delta = 0
  refl _ st := ⟨.refl st.state, fun _ h => h⟩
  trans h h' := ⟨h.1.trans h'.1, fun hb hd => h'.2 hb (h.2 hb hd)⟩
  grows h h' hb := h'.2 hb (h hb)

/-- The stream that a call reads from. -/
def Api.busy : Api → Option UInt32
  | .read id _ => some id
  | _ => none

section Calls

variable {ok : Call → Bool → Prop} {ans ans' : Answers Call} {s t u : Session} {id : UInt32}
  {busy : Option UInt32} {st st' : Stream}

/-- A change of other fields. -/
theorem forward_other (hstate : st'.state = st.state) (hdelta : st'.delta = st.delta) :
    (Course.forward busy).step id st st' :=
  ⟨hstate ▸ .refl st.state, fun _ h => hdelta.trans h⟩

theorem forward_receives (busy : Option UInt32) : (Course.forward busy).Receives where
  flags h := by
    obtain ⟨st₁, hflags, r, w, rfl, -⟩ := h
    exact ⟨(Stream.processFlags_forward hflags).1, fun _ hd => hd⟩
  slice _ st slice := forward_other rfl (st.delta_slice slice)
  credit _ _ _ := forward_other rfl rfl
  readable _ _ := forward_other rfl rfl
  writeable _ _ := forward_other rfl rfl
  fresh _ _ _ := Stream.delta_fresh _ _

theorem forward_windowUpdated (h : st.WindowUpdated st') :
    (Course.forward busy).step id st st' := by
  cases h with
  | flags => exact ⟨st.sendFlags_forward, fun _ hd => st.delta_sendFlags_eq.trans hd⟩
  | grant flags =>
    obtain ⟨window, hw⟩ := st.grant_window flags
    refine ⟨?_, fun _ => Stream.delta_grant⟩
    rw [hw]
    exact .refl _

theorem forward_readBy (h : st.ReadBy st') : (Course.forward (some id)).step id st st' := by
  cases h with
  | take size => exact ⟨.refl _, fun hb => absurd rfl hb⟩
  | waiting => exact forward_other rfl rfl
  | update h => exact forward_windowUpdated h

theorem forward_writtenBy (h : st.WrittenBy st') : (Course.forward busy).step id st st' := by
  cases h with
  | flags => exact forward_windowUpdated .flags
  | debit | waiting => exact forward_other rfl rfl

theorem ends_forward_open (tries : Nat) : Ends ok
    (fun _ _ t => (Course.forward none).Follows s t) (sessionOpen tries) ans s := by
  refine .seq (.read ?_)
  split
  · exact .pure (.refl s)
  · have hcount : Acts ok (Course.forward none).Follows (takeId tries) :=
      changes_takeId .refl (fun _ => .of_streams rfl) tries
    refine .seq ((Course.ends_follows hcount).mono fun taken ans₁ t ht => ?_)
    cases taken with
    | none => exact .pure ht
    | some id =>
      refine .seq (ends_streamNew (fun ans₂ => .pure ht) fun hnone ans₂ _ => ?_)
      rw [if_pos rfl]
      have hinsert : (Course.forward none).Follows t
          (t.setStream id (Stream.fresh .init t.rcvbuf)) :=
        .insert hnone fun _ => Stream.delta_fresh _ _
      have hupdate : Acts ok (Course.forward none).Follows (sendWindowUpdate id) :=
        touches_sendWindowUpdate.mono fun _ _ => .of_touches fun _ _ => forward_windowUpdated
      refine .seq ((Course.ends_follows_after (ht.trans hinsert) hupdate).mono
        fun r ans₃ u hu => ?_)
      split
      · -- the stream was not there before the call, so nothing is lost with it
        have hbefore : s.streams id = none := by
          cases hs : s.streams id with
          | none => rfl
          | some st =>
            obtain ⟨st', hst', -⟩ := ht.old id st hs
            rw [hnone] at hst'
            cases hst'
        exact .seq (.seq (.crit (.check fun _ => .pure (hu.remove hbefore))))
      · exact .pure hu

/-- A call moves all streams forward. -/
theorem ends_forward_code (c : Api) :
    Ends ok (fun _ _ t => (Course.forward c.busy).Follows s t) c.code ans s := by
  have forgets {C : Course} {α : Type} {p : Op α} (hp : Acts ok C.Follows p) :
      Ends ok (fun _ _ t => C.Follows s t) (forget p) ans s :=
    Course.ends_follows (acts_forget hp)
  cases c with
  | recvBufWrite data =>
    exact forgets (.bind (acts_bioWrite _) fun _ => .bind (.modify fun _ => .of_streams rfl)
      fun _ => .pure _)
  | process =>
    refine .seq ?_
    intro _ r ans' t hrun
    exact .pure (Course.follows_process (forward_receives none) hrun)
  | sendBufPending | sendBufPeek => exact forgets (.read .refl)
  | sendBufConsume => exact forgets (.crit fun _ => .of_streams rfl)
  | openStream tries => exact .seq ((ends_forward_open tries).mono fun _ _ _ ht => .pure ht)
  | acceptStream =>
    exact forgets (changes_sessionAccept (fun _ => .of_streams rfl) fun _ _ _ =>
      .of_touches fun _ _ => forward_windowUpdated)
  | read id size =>
    exact forgets ((touches_streamRead size).mono fun _ _ => .of_touches fun _ _ => forward_readBy)
  | write id data =>
    refine forgets ((queues_streamWrite data).mono fun s t h => ?_)
    cases h with
    | touch h => exact .of_touches (fun _ _ => forward_writtenBy) h
    | data => exact .of_streams rfl
  | goAway => exact forgets (Course.follows_goAway _)

end Calls

/-! ## Runs -/

/-- Nobody reads from a stream whose id waits: `session_accept` hands it out. -/
def Session.Allows (s : Session) : Api → Prop
  | .read id _ => id ∉ s.accepts
  | _ => True

/-- What calls lead to, one after the other, whatever fails in them. -/
inductive Session.Calls (s : Session) : Session → Prop where
  | start : Calls s s
  | call {t u : Session} {ans ans' : Answers Call} {c : Api} (h : Calls s t) (hc : t.Allows c)
      (hrun : c.code.run ans t = (.ret (), ans', u)) : Calls s u
  /-- The application sets or clears `O_NONBLOCK` on the descriptor of a stream. -/
  | nonblock {t : Session} {id : UInt32} {st : Stream} (h : Calls s t)
      (hst : t.streams id = some st) (b : Bool) :
      Calls s (t.setStream id { st with nonblock := b })

/-- The ids that wait are those of different streams, with nothing left to announce. -/
structure Session.Calm (s : Session) : Prop where
  once : s.accepts.Nodup
  level : ∀ id ∈ s.accepts, ∃ st, s.streams id = some st ∧ st.delta = 0

section Run

variable {ans ans' : Answers Call} {s t u : Session} {id : UInt32} {busy : Option UInt32}

/-- Where no new ids wait and none that is read from. -/
theorem Session.Calm.follows (h : s.Calm) (hf : (Course.forward busy).Follows s t)
    (hbusy : ∀ id ∈ s.accepts, busy ≠ some id) (haccepts : t.accepts.Sublist s.accepts) :
    t.Calm := by
  refine ⟨haccepts.nodup h.once, fun id hid => ?_⟩
  have hold := haccepts.subset hid
  obtain ⟨st, hst, hd⟩ := h.level id hold
  obtain ⟨st', hst', -, hd'⟩ := hf.old id st hst
  exact ⟨st', hst', hd' (hbusy id hold) hd⟩

/-- Where the new ids are those of new streams. -/
theorem Session.Calm.admits {ids : List UInt32} (h : s.Calm)
    (hf : (Course.forward none).Follows s t) (ha : Admits s t ids) (hids : ids.Nodup) :
    t.Calm := by
  have hnew : ∀ id ∈ s.accepts, id ∉ ids := by
    intro id hid hmem
    obtain ⟨st, hst, -⟩ := h.level id hid
    rw [ha.fresh id hmem] at hst
    cases hst
  refine ⟨?_, fun id hid => ?_⟩
  · rw [ha.accepts]
    exact h.once.append hids fun id hid hmem => hnew id hid hmem
  · rw [ha.accepts] at hid
    obtain hid | hid := List.mem_append.mp hid
    · obtain ⟨st, hst, hd⟩ := h.level id hid
      obtain ⟨st', hst', -, hd'⟩ := hf.old id st hst
      exact ⟨st', hst', hd' nofun hd⟩
    · obtain ⟨st, hst⟩ := Option.isSome_iff_exists.mp ((ha.domain id).mpr (.inr hid))
      exact ⟨st, hst, hf.new id st (ha.fresh id hid) hst nofun⟩

theorem Session.Calm.round {r : Option Int} (h : s.Calm)
    (hrun : processRound.run ans s = (.ret r, ans', t)) : t.Calm :=
  h.admits
    (Course.ends_follows_round (forward_receives none) (allowed_anyAnswer _) _ _ _ hrun)
    (ends_arrived (allowed_anyAnswer _) _ _ _ hrun) nodup_arrived

theorem Session.Calm.call {c : Api} (h : s.Calm) (hc : s.Allows c)
    (hrun : c.code.run ans s = (.ret (), ans', t)) : t.Calm := by
  have hf := ends_forward_code c (allowed_anyAnswer _) _ _ _ hrun
  have keeps (hbusy : ∀ id ∈ s.accepts, c.busy ≠ some id) (hids : c.KeepsIds) : t.Calm := by
    have hsame := ends_sameIds (sameIds_code hids) (allowed_anyAnswer _) _ _ _ hrun
    exact h.follows hf hbusy (hsame.accepts ▸ List.Sublist.refl _)
  cases c with
  | recvBufWrite | sendBufPending | sendBufPeek | sendBufConsume | goAway | write =>
    exact keeps nofun trivial
  | read id size =>
    refine keeps (fun i hi hid => ?_) trivial
    obtain rfl := Option.some.inj hid
    exact hc hi
  | process =>
    obtain ⟨r, ans₁, v, hprocess, hret⟩ := run_bind_ret hrun
    cases hret
    obtain ⟨ans₂, x, hrounds, hexit⟩ := sessionProcess_exits hprocess
    have hx : x.Calm := by
      clear hexit
      induction hrounds with
      | start => exact h
      | next _ hround ih => exact ih.round hround
    exact hx.round hexit
  | openStream tries =>
    obtain ⟨r, ans₁, v, hopen, hret⟩ := run_bind_ret hrun
    cases hret
    obtain ⟨haccepts, -⟩ := ends_sessionOpen _ (allowed_anyAnswer _) _ _ _ hopen
    exact h.follows hf nofun (haccepts ▸ List.Sublist.refl _)
  | acceptStream =>
    obtain ⟨r, ans₁, v, haccept, hret⟩ := run_bind_ret hrun
    cases hret
    refine h.follows hf nofun ?_
    cases ends_acceptGreets (allowed_anyAnswer _) _ _ _ haccept with
    | nothing _ hids => exact hids.accepts ▸ List.Sublist.refl _
    | stream ha =>
      rw [ha]
      exact List.sublist_cons_self _ _

theorem Session.Calls.calm (h : s.Calls t) (hs : s.Calm) : t.Calm := by
  induction h with
  | start => exact hs
  | call _ hc hrun ih => exact ih.call hc hrun
  | @nonblock t id st _ hst b ih =>
    have hfollows : (Course.forward none).Follows t (t.setStream id { st with nonblock := b }) :=
      .setStream hst (forward_other rfl rfl)
    exact ih.follows hfollows nofun (List.Sublist.refl _)

theorem calm_sessionInit (client : Bool) (rcvbuf : UInt32) : (sessionInit client rcvbuf).Calm :=
  ⟨List.nodup_nil, nofun⟩

/-- A reset stream stays one. -/
theorem Session.Calls.reset (h : s.Calls t)
    (hs : ∃ st, s.streams id = some st ∧ st.state = .reset) :
    ∃ st, t.streams id = some st ∧ st.state = .reset := by
  have moves {busy : Option UInt32} {t u : Session} (hf : (Course.forward busy).Follows t u)
      (ht : ∃ st, t.streams id = some st ∧ st.state = .reset) :
      ∃ st, u.streams id = some st ∧ st.state = .reset := by
    obtain ⟨st, hst, hreset⟩ := ht
    obtain ⟨st', hst', hforward, -⟩ := hf.old id st hst
    rw [hreset] at hforward
    exact ⟨st', hst', hforward.reset⟩
  induction h with
  | start => exact hs
  | call _ _ hrun ih => exact moves (ends_forward_code _ (allowed_anyAnswer _) _ _ _ hrun) ih
  | @nonblock t id st _ hst b ih =>
    have hfollows : (Course.forward none).Follows t (t.setStream id { st with nonblock := b }) :=
      .setStream hst (forward_other rfl rfl)
    exact moves hfollows ih

end Run

/-! ## Taking RST -/

/-- A header that resets the stream with this id. -/
def Resets (id : UInt32) (h : Bytes) : Prop :=
  (hdrType h = TYPE_DATA ∨ hdrType h = TYPE_WINDOW_UPDATE) ∧
    hasFlag (hdrFlags h) FLAG_RST = true ∧ hdrStreamId h = id

/-- A call of `session_process` from `s` to `t` returns 0, and one of its rounds takes a frame
with RST for a stream that is there. -/
def Session.TakesReset (s : Session) (id : UInt32) (t : Session) : Prop :=
  ∃ ans ans' ans₁ ans₂ x y, sessionProcess.run ans s = (.ret 0, ans', t) ∧
    Rounds processRound ans s ans₁ x ∧ x.newFrame = true ∧ Resets id (x.recvBuf.take hdrSize) ∧
    processRound.run ans₁ x = (.ret none, ans₂, y) ∧ (y.streams id).isSome = true

/-- If the stream is there, it is reset. -/
def Session.Buried (s : Session) (id : UInt32) : Prop :=
  ∀ st, s.streams id = some st → st.state = .reset

/-- An action that leaves streams buried. -/
def Session.Buries (id : UInt32) (s t : Session) : Prop := s.Buried id → t.Buried id

section Taking

variable {ok : Call → Bool → Prop} {ans : Answers Call} {s u : Session} {id i : UInt32}

theorem buries_of_touches {s t : Session} (h : Touches i SameState s t) : Buries id s t := by
  intro hs st hst
  cases h with
  | none | send | leave => exact hs st hst
  | @stream st₀ st' hst₀ hsame =>
    rw [Session.setStream_streams] at hst
    split at hst
    · rename_i hi
      obtain rfl := Option.some.inj hst
      rw [show _ = _ from hsame]
      exact hs st₀ (hi ▸ hst₀)
    · exact hs st hst

theorem buries_startPayload (live : Bool) (len : UInt32) :
    Acts ok (Buries id) (startPayload i live len) := by
  refine (pays_startPayload live len).mono fun s t h => ?_
  cases h with
  | touch h =>
    refine buries_of_touches (h.mono ?_)
    rintro st st' (_ | _)
    · rfl
    · rfl
  | input => exact fun hs => hs

/-- Work on a session where the stream is buried. -/
theorem ends_buried {α : Type} {p : Op α} (h : u.Buried id) (hp : Acts ok (Buries id) p) :
    Ends ok (fun _ _ t => t.Buried id) p ans u :=
  (Ends.acts (fun _ hs => hs) (fun h h' hs => h' (h hs)) hp).mono fun _ _ _ ht => ht h

/-- The flags of the header, where RST is among them. -/
theorem ends_buried_flags {st : Stream} {flags : UInt16} (hst : u.streams id = some st)
    (hrst : hasFlag flags FLAG_RST = true) :
    Ends ok (fun r _ t => r = 0 → t.Buried id) (streamProcessFlags id flags) ans u := by
  refine ends_processFlags hst (fun _ _ h => absurd h (by decide)) fun st' _ hst' _ st₂ hst₂ => ?_
  obtain ⟨st₁, hflags, r, w, rfl, -⟩ := hst'
  obtain rfl := Option.some.inj ((u.setStream_same id _).symm.trans hst₂)
  exact (Stream.processFlags_forward hflags).2 hrst

theorem ends_buried_goAway {r : Int} (hr : r ≠ 0) (reason : UInt32) :
    Ends ok (fun r _ t => r = 0 → t.Buried id) (do
      let _ ← sessionGoAwayForReason reason
      pure r : Op Int) ans u :=
  .seq (fun _ _ _ _ _ => .pure fun h => absurd h hr)

theorem ends_buried_dataHeader (hrst : hasFlag (hdrFlags u.hdr) FLAG_RST = true) :
    Ends ok (fun r _ t => r = 0 → t.Buried (hdrStreamId u.hdr)) handleDataHeader ans u := by
  refine .seq (.read (.seq (.read ?_)))
  cases hst : u.streams (hdrStreamId u.hdr) with
  | none =>
    have hnone : u.Buried (hdrStreamId u.hdr) := by
      intro st hst'
      rw [hst] at hst'
      cases hst'
    exact (ends_buried hnone (buries_startPayload _ _)).mono fun _ _ _ ht _ => ht
  | some st =>
    rw [if_pos (show (some st).isSome = true from rfl)]
    refine .seq ((ends_buried_flags hst hrst).mono fun r ans₁ t ht => ?_)
    split
    · exact ends_buried_goAway (by decide) _
    · rename_i hr
      have hburied := ht (Decidable.not_not.mp hr)
      split
      · exact .pure fun _ => hburied
      · refine (ends_buried hburied (.bind (.acquire _) fun _ => .bind ?_ fun window => ?_)).mono
          fun _ _ _ ht _ => ht
        · exact (touches_readStream _ _).mono fun _ _ => buries_of_touches
        · split
          · exact .bind ((@touches_sessionGoAwayForReason _ 0 _ _).mono
              fun _ _ => buries_of_touches) fun _ => .bind (.release _) fun _ => .pure _
          · exact .bind (.release _) fun _ => buries_startPayload _ _

theorem ends_buried_updateHeader {hdr : Bytes} (hrst : hasFlag (hdrFlags hdr) FLAG_RST = true) :
    Ends ok (fun r _ t => r = 0 → t.Buried (hdrStreamId hdr)) (do
      let id := hdrStreamId hdr
      let live ← sessionFindStream id
      if live then do
        let r ← streamProcessFlags id (hdrFlags hdr)
        if r ≠ 0 then do
          let _ ← sessionGoAwayForReason GO_AWAY_PROTO_ERR
          pure (-1)
        else if hdrLength hdr = 0 then pure 0
        else do
          modifyStream [.send id] id fun st =>
            { st with sendWindow := st.sendWindow + hdrLength hdr }
          let woken ← streamWriteableNotify id
          if woken ≠ 0 then do
            let _ ← sessionGoAwayForReason GO_AWAY_INTERNAL_ERR
            pure (-1)
          else pure 0
      else pure 0 : Op Int) ans u := by
  refine .seq (.read ?_)
  cases hst : u.streams (hdrStreamId hdr) with
  | none =>
    refine .pure fun _ st hst' => ?_
    rw [hst] at hst'
    cases hst'
  | some st =>
    rw [if_pos (show (some st).isSome = true from rfl)]
    refine .seq ((ends_buried_flags hst hrst).mono fun r ans₁ t ht => ?_)
    split
    · exact ends_buried_goAway (by decide) _
    · rename_i hr
      have hburied := ht (Decidable.not_not.mp hr)
      split
      · exact .pure fun _ => hburied
      · refine (ends_buried hburied (.bind ?_ fun _ => .bind ?_ fun woken => ?_)).mono
          fun _ _ _ ht _ => ht
        · refine (touches_onStream (N := SameState) _ _ fun st => .inr ?_).mono
            fun _ _ => buries_of_touches
          exact state_sendWindow st _
        · exact (touches_streamWriteableNotify (N := SameState) fun _ => rfl).mono
            fun _ _ => buries_of_touches
        · split
          · exact .bind ((@touches_sessionGoAwayForReason _ 0 _ _).mono
              fun _ _ => buries_of_touches) fun _ => .pure _
          · exact .pure _

/-- The SYN flag and what the handler does then. -/
theorem ends_buried_syn {p : Op Int}
    (hp : ∀ ans' u, u.hdr = s.hdr → Ends ok (fun r _ t => r = 0 → t.Buried id) p ans' u) :
    Ends ok (fun r _ t => r = 0 → t.Buried id) (do
      let r ← (if hasFlag (hdrFlags s.hdr) FLAG_SYN then incomingStream else pure 0)
      if r ≠ 0 then pure (-1) else p) ans s := by
  have fails {ans₁ : Answers Call} {t : Session} :
      Ends ok (fun r _ t => r = 0 → t.Buried id)
        (if (-1 : Int) ≠ 0 then pure (-1) else p) ans₁ t := by
    rw [if_pos (by decide)]
    exact .pure fun h => absurd h (by decide)
  have rest {ans₁ : Answers Call} {t : Session} (hhdr : t.hdr = s.hdr) :
      Ends ok (fun r _ t => r = 0 → t.Buried id)
        (if (0 : Int) ≠ 0 then pure (-1) else p) ans₁ t := by
    rw [if_neg (by decide)]
    exact hp ans₁ t hhdr
  split
  · exact .seq (ends_syn (fun _ _ _ _ _ _ => fails) (fun _ _ _ _ _ => fails)
      (fun _ _ _ _ _ hhdr _ => rest hhdr) fun _ _ _ => rest rfl)
  · exact .seq (.pure (rest rfl))

theorem ends_buried_handle (hnew : s.newFrame = true)
    (htype : hdrType s.hdr = TYPE_DATA ∨ hdrType s.hdr = TYPE_WINDOW_UPDATE)
    (hrst : hasFlag (hdrFlags s.hdr) FLAG_RST = true) :
    Ends ok (fun r _ t => r = 0 → t.Buried (hdrStreamId s.hdr)) sessionHandle ans s := by
  refine .seq (.read ?_)
  split
  · refine .seq (.read (.seq (.read ?_)))
    rw [if_pos hnew]
    refine ends_buried_syn fun ans₁ u hhdr => ?_
    rw [← hhdr] at hrst ⊢
    exact ends_buried_dataHeader hrst
  · rw [if_pos (htype.resolve_left ‹_›)]
    exact .seq (.read (.seq (.check fun _ => .seq (.read
      (ends_buried_syn fun _ _ _ => ends_buried_updateHeader hrst)))))

/-- A round that takes a frame with RST and goes on leaves the stream reset. -/
theorem ends_buried_round (hnew : s.newFrame = true) (h : Resets id (s.recvBuf.take hdrSize)) :
    Ends ok (fun r _ t => r = none → t.Buried id) processRound ans s := by
  obtain ⟨htype, hrst, rfl⟩ := h
  -- a round that exits has nothing to show
  have exits {r : Int} {t : Session} : Ends ok (fun r _ t => r = none → t.Buried
      (hdrStreamId (s.recvBuf.take hdrSize))) (pure (some r) : Op (Option Int)) ans t := by
    apply Ends.pure
    intro hnone
    cases hnone
  refine .seq (.read (.seq (.read ?_)))
  split
  · exact exits
  · split
    · exact exits
    · refine .seq (.seq (.crit (.seq (.check fun _ => .pure ?_))))
      split
      · have hhandle := @ends_buried_handle ok ans
          { s with hdr := s.recvBuf.take hdrSize, recvBuf := s.recvBuf.drop hdrSize }
          hnew htype hrst
        refine .seq (hhandle.mono fun r ans₁ t ht => .pure fun hnone => ht ?_)
        split at hnone
        · cases hnone
        · exact Decidable.not_not.mp ‹_›
      · exact exits

/-- After the call the stream is reset. -/
theorem Session.TakesReset.reset {t : Session} (h : s.TakesReset id t) :
    ∃ st, t.streams id = some st ∧ st.state = .reset := by
  obtain ⟨ans, ans', ans₁, ans₂, x, y, hrun, hx, hnew, hreset, hround, hsome⟩ := h
  obtain ⟨st, hst⟩ := Option.isSome_iff_exists.mp hsome
  have hstate := ends_buried_round hnew hreset (allowed_anyAnswer _) _ _ _ hround rfl st hst
  obtain ⟨ans₃, u, hu, hexit⟩ := sessionProcess_exits hrun
  have hfollows : (Course.forward none).Follows y t := by
    have hlast := Course.ends_follows_round (forward_receives none) (allowed_anyAnswer _) _ _ _ hexit
    obtain hyu | huy := (hx.next hround).linear hu
    · exact (Course.follows_rounds (forward_receives none) hyu).trans hlast
    · -- the call exits in the round that starts at `u`
      obtain ⟨-, rfl⟩ | ⟨_, _, hgoes, -⟩ := huy.head
      · exact hlast
      · rw [hexit] at hgoes
        cases hgoes
  obtain ⟨st', hst', hforward, -⟩ := hfollows.old id st hst
  rw [hstate] at hforward
  exact ⟨st', hst', hforward.reset⟩

end Taking

/-! ## Speaking for a stream -/

/-- A header with another id. The frames with which a session goes away are for no stream,
whatever their id field says. -/
def Foreign (id : UInt32) (h : Bytes) : Prop :=
  hdrStreamId h ≠ id ∨ ∃ reason, h = hdrEncode TYPE_GO_AWAY 0 0 reason

/-- The frames that a call appends to the send buffer are none for the stream. -/
def Session.Ignores (s : Session) (id : UInt32) (t : Session) : Prop :=
  ∃ w, t.sendBuf = s.sendBuf ++ w ∧ ∀ h ∈ headers w, Foreign id h

/-- A header without payload that is none for the stream. -/
def Aside (id : UInt32) (h : Bytes) : Prop :=
  h.length = hdrSize ∧ Frame.payloadSize h = 0 ∧ Foreign id h

section Speaking

variable {ok : Call → Bool → Prop} {ans : Answers Call} {s t : Session} {id i : UInt32}
  {st : Stream}

theorem aside_goAway (reason : UInt32) : Aside id (hdrEncode TYPE_GO_AWAY 0 0 reason) :=
  ⟨length_hdrEncode _ _ _ _, if_neg (show TYPE_GO_AWAY ≠ TYPE_DATA by decide), .inr ⟨reason, rfl⟩⟩

theorem aside_update (hi : i ≠ id) (flags : UInt16) (delta : UInt32) :
    Aside id (hdrEncode TYPE_WINDOW_UPDATE flags i delta) := by
  refine ⟨length_hdrEncode _ _ _ _, if_neg (show TYPE_WINDOW_UPDATE ≠ TYPE_DATA by decide),
    .inl ?_⟩
  rw [hdrStreamId_hdrEncode]
  exact hi

theorem Session.Ignores.of_sends (h : Sends (Aside id) s t) : s.Ignores id t := by
  obtain ⟨hs, hP, he⟩ := h
  refine ⟨hs.flatten, he, fun x hx => ?_⟩
  rw [headers_flatten fun y hy => ⟨(hP y hy).1, (hP y hy).2.1⟩] at hx
  exact (hP x hx).2.2

theorem Session.Ignores.refl (s : Session) (id : UInt32) : s.Ignores id s := .of_sends (.refl s)

theorem ends_aside {α : Type} {p : Op α} (hp : Acts ok (Sends (Aside id)) p) :
    Ends ok (fun _ _ t => Sends (Aside id) s t) p ans s :=
  Ends.acts .refl .trans hp

/-- A DATA frame of another stream, its payload whole or cut short, and headers after it. -/
theorem ignores_write (flags : UInt16) {max : UInt32} {part : Bytes} (hs : List Bytes)
    (hi : i ≠ id) (hP : ∀ x ∈ hs, Aside id x)
    (hlen : part.length = max.toNat ∨ (part.length ≤ max.toNat ∧ hs = []))
    (ht : t.sendBuf = s.sendBuf ++ (hdrEncode TYPE_DATA flags i max ++ (part ++ hs.flatten))) :
    s.Ignores id t := by
  refine ⟨_, ht, fun x hx => ?_⟩
  have hrest : (part ++ hs.flatten).drop max.toNat = hs.flatten := by
    obtain h | ⟨h, rfl⟩ := hlen
    · rw [← h, List.drop_left]
    · rw [List.flatten_nil, List.append_nil, List.drop_eq_nil_iff]
      exact h
  have hsize : Frame.payloadSize (hdrEncode TYPE_DATA flags i max) = max.toNat := by
    rw [Frame.payloadSize, hdrType_hdrEncode, if_pos rfl, hdrLength_hdrEncode]
  rw [headers_frame (length_hdrEncode _ _ _ _), hsize, hrest,
    headers_flatten fun y hy => ⟨(hP y hy).1, (hP y hy).2.1⟩] at hx
  obtain rfl | hx := List.mem_cons.mp hx
  · left
    rw [hdrStreamId_hdrEncode]
    exact hi
  · exact (hP x hx).2.2

/-! ### Other streams -/

theorem sends_sendWindowUpdate {P : Bytes → Prop}
    (hP : ∀ flags delta, P (hdrEncode TYPE_WINDOW_UPDATE flags i delta)) :
    Acts ok (Sends P) (sendWindowUpdate i) := by
  refine .bind sends_onStream fun flags => .bind sends_onStream fun delta => ?_
  cases delta with
  | none => exact .pure _
  | some delta => exact .bind (sends_header (hP _ _)) fun _ => .pure _

theorem sends_streamRead {P : Bytes → Prop}
    (hP : ∀ flags delta, P (hdrEncode TYPE_WINDOW_UPDATE flags i delta)) (size : Nat) :
    Acts ok (Sends P) (streamRead i size) := by
  have same {α : Type} {ms : List Mutex} {g : Stream → α} :
      Acts ok (Sends P) (readStream ms i g) := sends_onStream
  refine .bind (.bind (.acquire _) fun _ => .bind same fun state => .bind ?_ fun _ =>
    .bind (.release _) fun _ => .pure _) fun early => ?_
  · cases state with
    | localClose | remoteClose | closed => exact .bind same fun _ => .pure _
    | init | synSent | synReceived | established | reset => exact .pure _
  · cases early with
    | some r => exact .pure _
    | none =>
      refine .bind same fun r => ?_
      split
      · refine .bind same fun nonblock => ?_
        split
        · exact .pure _
        · refine .bind (.query _) fun selected => ?_
          split
          · exact .bind (.await _) fun _ => trivial
          · exact .pure _
      · refine .bind sends_onStream fun ⟨r, bytes, pending⟩ => .bind (.check _) fun _ =>
          .bind ?_ fun waiting => ?_
        · split
          · exact sends_streamReadableWaiting
          · exact .pure _
        · split
          · exact .pure _
          · exact .bind (sends_sendWindowUpdate hP) fun _ => .pure _

theorem ignores_writeFrame (hi : i ≠ id) (data : Bytes) (window : UInt32) :
    Ends ok (fun _ _ t => s.Ignores id t) (streamWriteFrame i data window) ans s := by
  have hpart : (data.take (writeMax window data.length).toNat).length =
      (writeMax window data.length).toNat := by
    rw [List.length_take, min_eq_left (writeMax_le window data.length)]
  refine .seq (ends_onStream fun st hst => ?_)
  refine .seq (ends_sendHeader (fun ans₁ => ?_) fun ans₁ => ?_)
  · rw [if_pos rfl]
    exact .pure (.of_sends (.of_eq rfl))
  · rw [if_neg (by decide)]
    refine .seq (ends_sendBytes fun r ans₂ w hle hall => ?_)
    rw [hpart] at hle
    have hsent : (((s.setStream i st.sendFlags.2).queue (hdrEncode TYPE_DATA st.sendFlags.1 i
        (writeMax window data.length))).queue w).sendBuf = s.sendBuf ++ (hdrEncode TYPE_DATA
          st.sendFlags.1 i (writeMax window data.length) ++ w) :=
      List.append_assoc s.sendBuf _ _
    split
    · refine .pure (ignores_write st.sendFlags.1 [] hi (by simp)
        (.inr ⟨hle, rfl⟩) ?_)
      rw [hsent, List.flatten_nil, List.append_nil]
    · rename_i hr
      obtain rfl := hall hr
      have hdebit : Acts ok (Sends (Aside id)) (streamWriteDebit i (writeMax window data.length)) := by
        refine .bind sends_onStream fun window => .bind ?_ fun waiting => ?_
        · split
          · exact sends_streamWriteableWaiting
          · exact .pure _
        · split
          · exact sends_goAway_then (aside_goAway _) (.pure _)
          · exact .pure _
      refine (ends_aside hdebit).mono fun _ _ t ht => ?_
      obtain ⟨hs, hP, he⟩ := ht
      refine ignores_write st.sendFlags.1 _ hi hP (.inl hpart) ?_
      rw [he, hsent, List.append_assoc, List.append_assoc]

theorem ignores_streamWrite (hi : i ≠ id) (data : Bytes) :
    Ends ok (fun _ _ t => s.Ignores id t) (streamWrite i data) ans s := by
  have live : Ends ok (fun _ _ t => s.Ignores id t) (do
      let window ← readStream [.send i] i Stream.sendWindow
      if window = 0 then do
        if ← readStream [] i Stream.nonblock then pure (-1)
        else do
          let selected ← query .sock
          if selected then do
            await fun s => (s.streams i).any Stream.writeable
            again
          else pure (-1)
      else streamWriteFrame i data window) ans s := by
    refine .seq (ends_readStream fun st hst => ?_)
    split
    · refine .seq (ends_readStream fun st hst => ?_)
      split
      · exact .pure (.refl s id)
      · refine .seq (.query fun _ => ?_)
        split
        · exact .seq (.await fun _ => .again)
        · exact .pure (.refl s id)
    · exact ignores_writeFrame hi data _
  refine .seq (ends_readStream fun st hst => ?_)
  cases hstate : st.state with
  | localClose | closed | reset => exact .pure (.refl s id)
  | init | synSent | synReceived | established | remoteClose => exact live

/-! ### The stream itself -/

theorem run_streamRead_reset (hst : s.streams id = some st) (hreset : st.state = .reset)
    (size : Nat) (ans : Answers Call) :
    (streamRead id size).run ans s = (.ret (-1, []), ans, s) := by
  simp [streamRead, streamReadClosed, run_readStream ans hst, hreset]

theorem run_streamWrite_reset (hst : s.streams id = some st) (hreset : st.state = .reset)
    (data : Bytes) (ans : Answers Call) :
    (streamWrite id data).run ans s = (.ret 0, ans, s) := by
  simp [streamWrite, run_readStream ans hst, hreset]

/-- No update goes out for a reset stream with nothing to announce. -/
theorem run_sendWindowUpdate_reset (hst : s.streams id = some st) (hreset : st.state = .reset)
    (hd : st.delta = 0) (ans : Answers Call) :
    (sendWindowUpdate id).run ans s = (.ret 0, ans, s) := by
  have hflags : st.sendFlags = (0, st) := by
    rw [Stream.sendFlags, hreset]
  have hgrant : st.grant 0 = (none, st) := by
    refine if_pos ⟨?_, rfl⟩
    rw [hd]
    unfold MAX_STREAM_WINDOW_SIZE
    decide
  have hsame := Session.setStream_eq_self hst
  simp [sendWindowUpdate, streamSendFlags, run_onStream ans hst, hflags, hsame, hgrant]

theorem ignores_sessionAccept (hcalm : s.Calm) (hst : s.streams id = some st)
    (hreset : st.state = .reset) :
    Ends ok (fun _ _ t => s.Ignores id t) sessionAccept ans s := by
  refine .seq (.query fun _ => ?_)
  split
  · refine .seq (.await fun _ => .seq (.crit ?_))
    cases ha : s.accepts with
    | nil => exact .again
    | cons i rest =>
      refine .seq (.read (.seq (.check fun _ => ?_)))
      have hwaits : i ∈ s.accepts := ha ▸ List.mem_cons_self
      by_cases hi : i = id
      · -- the stream itself waits: its update has nothing to say
        subst hi
        obtain ⟨st', hst', hd⟩ := hcalm.level i hwaits
        obtain rfl := Option.some.inj (hst.symm.trans hst')
        refine .seq ?_
        intro _ r ans' t hrun
        have hidle := run_sendWindowUpdate_reset
          (s := { s with accepts := (i :: rest).tail }) hst hreset hd
        rw [hidle] at hrun
        cases hrun
        exact .pure (.of_sends (.of_eq rfl))
      · exact .seq ((ends_aside (sends_sendWindowUpdate (aside_update hi))).mono
          fun r ans₁ t ht => .pure (.of_sends ((Sends.of_eq rfl).trans ht)))
  · exact .seq ((ends_aside (sends_sessionGoAwayForReason (aside_goAway _))).mono
      fun r ans₁ t ht => .pure (.of_sends ht))

end Speaking

/-! ## Dead streams -/

/-- The calls that send frames for streams. -/
def Api.Speaks : Api → Prop
  | .read _ _ => True
  | .write _ _ => True
  | .acceptStream => True
  | _ => False

/-- The stream is reset, nothing can be read from it or written to it, and no call speaks
for it. -/
structure Session.Dead (s : Session) (id : UInt32) : Prop where
  state : ∃ st, s.streams id = some st ∧ st.state = .reset
  read : ∀ size ans, (streamRead id size).run ans s = (.ret (-1, []), ans, s)
  write : ∀ data ans, (streamWrite id data).run ans s = (.ret 0, ans, s)
  silent : ∀ (c : Api) ans ans' t, c.Speaks → c.code.run ans s = (.ret (), ans', t) →
    s.Ignores id t

theorem Session.Calm.dead {s : Session} {id : UInt32} (hcalm : s.Calm)
    (h : ∃ st, s.streams id = some st ∧ st.state = .reset) : s.Dead id := by
  obtain ⟨st, hst, hreset⟩ := h
  refine ⟨⟨st, hst, hreset⟩, run_streamRead_reset hst hreset, run_streamWrite_reset hst hreset,
    fun c ans ans' t hc hrun => ?_⟩
  cases c with
  | read i size =>
    obtain ⟨r, ans₁, u, hread, hret⟩ := run_bind_ret hrun
    cases hret
    by_cases hi : i = id
    · subst hi
      rw [run_streamRead_reset hst hreset] at hread
      cases hread
      exact .refl s i
    · exact .of_sends (ends_aside (sends_streamRead (aside_update hi) size)
        (allowed_anyAnswer _) _ _ _ hread)
  | write i data =>
    obtain ⟨r, ans₁, u, hwrite, hret⟩ := run_bind_ret hrun
    cases hret
    by_cases hi : i = id
    · subst hi
      rw [run_streamWrite_reset hst hreset] at hwrite
      cases hwrite
      exact .refl s i
    · exact ignores_streamWrite hi data (allowed_anyAnswer _) _ _ _ hwrite
  | acceptStream =>
    obtain ⟨r, ans₁, u, haccept, hret⟩ := run_bind_ret hrun
    cases hret
    exact ignores_sessionAccept hcalm hst hreset (allowed_anyAnswer _) _ _ _ haccept
  | recvBufWrite | process | sendBufPending | sendBufPeek | sendBufConsume | openStream | goAway =>
    exact hc.elim

/-- A stream for which a call of `session_process` has taken RST and returned 0 is dead after
any further calls; and every call leaves every stream in its tree and moves its state forward
only. -/
theorem reset_is_final :
    (∀ (client : Bool) (rcvbuf : UInt32) (s t u : Session) (id : UInt32),
      (sessionInit client rcvbuf).Calls s → s.TakesReset id t → t.Calls u → u.Dead id) ∧
    ∀ (c : Api) (s t : Session) (ans ans' : Answers Call),
      c.code.run ans s = (.ret (), ans', t) →
        ∀ id st, s.streams id = some st →
          ∃ st', t.streams id = some st' ∧ st.state.Forward st'.state := by
  refine ⟨fun client rcvbuf s t u id hs hreset hu => ?_, fun c s t ans ans' hrun id st hst => ?_⟩
  · have hprocess : s.Calls t := by
      obtain ⟨ans, ans', -, -, -, -, hrun, -⟩ := hreset
      have hcode : Api.process.code.run ans s = (.ret (), ans', t) := by
        change (sessionProcess >>= fun _ => pure ()).run ans s = _
        rw [run_bind, hrun]
        rfl
      exact Session.Calls.start.call (c := .process) trivial hcode
    have hcalm : t.Calm := hprocess.calm (hs.calm (calm_sessionInit client rcvbuf))
    exact (hu.calm hcalm).dead (hu.reset hreset.reset)
  · obtain ⟨st', hst', hforward, -⟩ :=
      (ends_forward_code c (allowed_anyAnswer _) _ _ _ hrun).old id st hst
    exact ⟨st', hst', hforward⟩

/-- A SYN with RST, and then `session_accept`: stream 2 is accepted and dead. -/
theorem reset_is_final_syn : ∃ u : Session, u.Dead 2 ∧ u.accepts = [] := by
  let hdr := hdrEncode TYPE_WINDOW_UPDATE (FLAG_SYN ||| FLAG_RST) 2 0
  let s := fedHeader hdr
  let t := (sessionProcess.exec s).2
  let u := (sessionAccept.exec t).2
  have hfed : (sessionInit true 4096).Calls s := by
    have hcode : (Api.recvBufWrite hdr).code.run noFail (sessionInit true 4096) =
        (.ret (), noFail, s) := by
      rw [run_noFail, Api.code, exec_forget (exec_sessionRecvBufWrite _ _)]
      rfl
    exact Session.Calls.start.call (c := .recvBufWrite hdr) trivial hcode
  have hround : processRound.run noFail s = (.ret none, noFail, (processRound.exec s).2) :=
    run_of_exec (by decide +kernel)
  have hreset : s.TakesReset 2 t := by
    refine ⟨noFail, noFail, noFail, noFail, s, (processRound.exec s).2,
      run_of_exec (by decide +kernel), .start, rfl, ⟨.inr ?_, ?_, ?_⟩, hround, ?_⟩ <;>
      decide +kernel
  have haccept : t.Calls u := by
    have hrun : sessionAccept.run noFail t = (.ret (some 2), noFail, u) :=
      run_of_exec (by decide +kernel)
    have hcode : Api.acceptStream.code.run noFail t = (.ret (), noFail, u) := by
      change (sessionAccept >>= fun _ => pure ()).run noFail t = _
      rw [run_bind, hrun]
      rfl
    exact Session.Calls.start.call (c := .acceptStream) trivial hcode
  exact ⟨u, reset_is_final.1 true 4096 s t u 2 hfed hreset haccept, by decide +kernel⟩

end Yamux
