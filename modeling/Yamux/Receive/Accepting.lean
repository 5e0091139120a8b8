import Yamux.Receive.Draining
import Yamux.Receive.Rejection

/-!
# The ids that wait for `session_accept`

A SYN creates a stream in the tree and puts its id into the socket pair of the session.
The two are kept by different functions. What one round of `session_process` does to
them is said once; over a run of rounds and calls they agree, and the ids come out in
the order in which the streams were created.
-/

namespace Yamux

open Core Prog

/-! ## Actions that leave both alone -/

/-- The ids that wait and the set of streams are as they were. -/
structure SameIds (s t : Session) : Prop where
  accepts : t.accepts = s.accepts
  domain : ∀ i, (t.streams i).isSome = (s.streams i).isSome

theorem SameIds.refl (s : Session) : SameIds s s := ⟨rfl, fun _ => rfl⟩

theorem SameIds.trans {s t u : Session} (h : SameIds s t) (h' : SameIds t u) : SameIds s u :=
  ⟨h'.accepts.trans h.accepts, fun i => (h'.domain i).trans (h.domain i)⟩

theorem SameIds.of_streams {s t : Session} (h : t.streams = s.streams)
    (ha : t.accepts = s.accepts) : SameIds s t :=
  ⟨ha, fun i => by rw [h]⟩

theorem StreamsOnly.sameIds {s t : Session} (h : StreamsOnly s t) : SameIds s t :=
  ⟨h.accepts, h.domain⟩

theorem Handles.sameIds {s t : Session} (h : Handles s t) : SameIds s t := by
  cases h with
  | pay h =>
    cases h with
    | touch h => exact h.streamsOnly.sameIds
    | input => exact ⟨rfl, fun _ => rfl⟩
  | remote => exact ⟨rfl, fun _ => rfl⟩

section Ends

variable {α : Type} {ok : Call → Bool → Prop} {ans : Answers Call} {s : Session}

theorem ends_sameIds {p : Op α} (hp : Acts ok SameIds p) :
    Ends ok (fun _ _ t => SameIds s t) p ans s :=
  Ends.acts .refl .trans hp

theorem ends_handles {p : Op α} (hp : Acts ok Handles p) :
    Ends ok (fun _ _ t => SameIds s t) p ans s :=
  ends_sameIds (hp.mono fun _ _ h => h.sameIds)

/-! ## What a round does to them -/

/-- There are new streams with these ids, and no others. -/
structure Adds (s t : Session) (ids : List UInt32) : Prop where
  domain : ∀ i, (t.streams i).isSome = true ↔ (s.streams i).isSome = true ∨ i ∈ ids
  fresh : ∀ i ∈ ids, s.streams i = none

/-- There are new streams with these ids, which wait at the end. -/
structure Admits (s t : Session) (ids : List UInt32) : Prop extends Adds s t ids where
  accepts : t.accepts = s.accepts ++ ids

theorem SameIds.adds {s t : Session} (h : SameIds s t) : Adds s t [] := by
  refine ⟨fun i => ?_, fun _ hi => absurd hi List.not_mem_nil⟩
  rw [h.domain]
  simp

theorem Adds.sameIds {s t u : Session} {ids : List UInt32} (h : Adds s t ids) (h' : SameIds t u) :
    Adds s u ids :=
  ⟨fun i => by rw [h'.domain, h.domain], h.fresh⟩

theorem SameIds.then_adds {s t u : Session} {ids : List UInt32} (h : SameIds s t)
    (h' : Adds t u ids) : Adds s u ids := by
  refine ⟨fun i => by rw [h'.domain, h.domain], fun i hi => ?_⟩
  have hnone := h'.fresh i hi
  rwa [← Option.not_isSome_iff_eq_none, h.domain, Option.not_isSome_iff_eq_none] at hnone

theorem adds_setStream {id : UInt32} (h : s.streams id = none) (st : Stream) :
    Adds s (s.setStream id st) [id] := by
  refine ⟨fun i => ?_, fun i hi => ?_⟩
  · rw [Session.setStream_streams]
    by_cases hi : i = id
    · rw [if_pos hi]
      simp [hi]
    · rw [if_neg hi]
      simp [hi]
  · rw [List.mem_singleton.mp hi]
    exact h

theorem SameIds.admits {s t : Session} (h : SameIds s t) : Admits s t [] :=
  ⟨h.adds, by rw [h.accepts, List.append_nil]⟩

theorem Admits.sameIds {s t u : Session} {ids : List UInt32} (h : Admits s t ids)
    (h' : SameIds t u) : Admits s u ids :=
  ⟨h.toAdds.sameIds h', h'.accepts.trans h.accepts⟩

theorem SameIds.then_admits {s t u : Session} {ids : List UInt32} (h : SameIds s t)
    (h' : Admits t u ids) : Admits s u ids :=
  ⟨h.then_adds h'.toAdds, by rw [h'.accepts, h.accepts]⟩

theorem admits_enroll {id : UInt32} (h : s.streams id = none) : Admits s (s.enroll id) [id] := by
  have hadds := adds_setStream h (Stream.fresh .synReceived s.rcvbuf)
  exact ⟨⟨hadds.domain, hadds.fresh⟩, rfl⟩

/-- The stream of the header, if any, is new, and the header has the SYN flag. -/
def Session.AdmitsSyn (s t : Session) : Prop :=
  Admits s t [] ∨ (s.newFrame = true ∧ hasFlag (hdrFlags s.hdr) FLAG_SYN = true ∧
    Admits s t [hdrStreamId s.hdr])

theorem Session.AdmitsSyn.sameIds {s t u : Session} (h : s.AdmitsSyn t) (h' : SameIds t u) :
    s.AdmitsSyn u :=
  h.imp (fun h => h.sameIds h') fun h => ⟨h.1, h.2.1, h.2.2.sameIds h'⟩

/-- The SYN flag and what the handler does then. -/
theorem ends_synThen {p : Op Int} (hn : s.newFrame = true) (hp : Acts ok Handles p) :
    Ends ok (fun _ _ t => s.AdmitsSyn t) (do
      let r ← (if hasFlag (hdrFlags s.hdr) FLAG_SYN then incomingStream else pure 0)
      if r ≠ 0 then pure (-1) else p) ans s := by
  have rest {r : Int} {ans₁ : Answers Call} {t : Session} (ht : s.AdmitsSyn t) :
      Ends ok (fun _ _ u => s.AdmitsSyn u) (if r ≠ 0 then pure (-1) else p) ans₁ t := by
    split
    · exact .pure ht
    · exact (ends_handles hp).mono fun _ _ _ hu => ht.sameIds hu
  have same {t : Session} (hstreams : t.streams = s.streams) (haccepts : t.accepts = s.accepts) :
      s.AdmitsSyn t := .inl (SameIds.of_streams hstreams haccepts).admits
  cases hsyn : hasFlag (hdrFlags s.hdr) FLAG_SYN with
  | false =>
    rw [if_neg Bool.false_ne_true]
    exact .seq (.pure (rest (same rfl rfl)))
  | true =>
    rw [if_pos rfl]
    refine .seq (ends_syn (fun _ ans₁ t hstreams haccepts _ => rest (same hstreams haccepts))
      (fun ans₁ t _ hstreams haccepts => rest (same hstreams haccepts))
      (fun ans₁ t _ hstreams haccepts _ _ => rest (same hstreams haccepts)) fun _ hnone ans₁ => ?_)
    exact rest (.inr ⟨hn, hsyn, admits_enroll hnone⟩)

theorem ends_admits : Ends ok (fun _ _ t => s.AdmitsSyn t) sessionHandle ans s := by
  have handled {p : Op Int} (hp : Acts ok Handles p) :
      Ends ok (fun _ _ t => s.AdmitsSyn t) p ans s :=
    (ends_handles hp).mono fun _ _ _ ht => .inl ht.admits
  refine .seq (.read ?_)
  split
  · refine .seq (.read (.seq (.read ?_)))
    cases hn : s.newFrame with
    | true =>
      rw [if_pos rfl]
      exact ends_synThen hn handles_handleDataHeader
    | false =>
      rw [if_neg Bool.false_ne_true]
      exact .seq (.read (handled (handles_pay (pays_handlePayload _))))
  · split
    · refine .seq (.read (.seq (.check fun hn => .seq (.read ?_))))
      exact ends_synThen hn (handles_updateHeader s.hdr)
    · split
      · exact handled handles_sessionHandlePing
      · split
        · exact handled handles_sessionHandleGoAway
        · exact .pure (.inl (SameIds.refl s).admits)

/-- The id of the stream that a SYN has created in a round, if there is one. -/
def arrived (s t : Session) : List UInt32 :=
  if s.newFrame = true ∧ hasFlag (hdrFlags (s.recvBuf.take hdrSize)) FLAG_SYN = true ∧
      s.streams (hdrStreamId (s.recvBuf.take hdrSize)) = none ∧
      (t.streams (hdrStreamId (s.recvBuf.take hdrSize))).isSome = true then
    [hdrStreamId (s.recvBuf.take hdrSize)]
  else []

theorem Admits.none_arrived {t : Session} (h : Admits s t []) : arrived s t = [] := by
  apply if_neg
  rintro ⟨-, -, hnone, hsome⟩
  have hi := (h.domain _).mp hsome
  rw [hnone] at hi
  simp at hi

theorem Session.AdmitsSyn.arrived {u t : Session} (h : u.AdmitsSyn t)
    (hstreams : u.streams = s.streams) (haccepts : u.accepts = s.accepts)
    (hnew : u.newFrame = s.newFrame) (hhdr : s.newFrame = true → u.hdr = s.recvBuf.take hdrSize) :
    Admits s t (Yamux.arrived s t) := by
  have hs : SameIds s u := .of_streams hstreams haccepts
  rcases h with h | ⟨hn, hsyn, h⟩
  · have h := hs.then_admits h
    rwa [h.none_arrived]
  · have h := hs.then_admits h
    rw [hnew] at hn
    rw [hhdr hn] at h hsyn
    have hid : Yamux.arrived s t = [hdrStreamId (s.recvBuf.take hdrSize)] := by
      refine if_pos ⟨hn, hsyn, h.fresh _ List.mem_cons_self, ?_⟩
      exact (h.domain _).mpr (.inr List.mem_cons_self)
    rwa [hid]

/-- A round creates the streams that have arrived in it and queues their ids; it leaves all
other streams and ids alone, whatever fails. -/
theorem ends_arrived : Ends ok (fun _ _ t => Admits s t (arrived s t)) processRound ans s := by
  have same {t : Session} (h : SameIds s t) : Admits s t (arrived s t) := by
    rw [h.admits.none_arrived]
    exact h.admits
  refine .seq (.read (.seq (.read ?_)))
  split
  · exact .pure (same (.refl s))
  · split
    · exact .pure (same (.refl s))
    · cases hn : s.newFrame with
      | false =>
        rw [if_neg Bool.false_ne_true]
        refine .seq (.pure ?_)
        rw [if_pos rfl]
        refine .seq (ends_admits.mono fun r ans₁ t ht => .pure ?_)
        exact ht.arrived rfl rfl rfl fun h => absurd (h.symm.trans hn) (by decide)
      | true =>
        rw [if_pos rfl]
        refine .seq (.seq (.crit (.seq (.check fun _ => .pure ?_))))
        split
        · refine .seq (ends_admits.mono fun r ans₁ t ht => .pure ?_)
          exact ht.arrived rfl rfl rfl fun _ => rfl
        · exact .pure (same (.of_streams rfl rfl))

/-! ## What the other calls do to them -/

/-- An opened stream is new; a call that fails leaves the streams as they were. -/
theorem ends_sessionOpen (tries : Nat) : Ends ok (fun r _ t => t.accepts = s.accepts ∧
    Adds s t r.toList) (sessionOpen tries) ans s := by
  have fails {ans₁ : Answers Call} {t : Session} (ht : SameIds s t) :
      Ends ok (fun r _ t => t.accepts = s.accepts ∧ Adds s t r.toList)
        (pure none : Op (Option UInt32)) ans₁ t := .pure ⟨ht.accepts, ht.adds⟩
  refine .seq (.read ?_)
  split
  · exact fails (.refl s)
  · refine .seq ((ends_sameIds (changes_takeId .refl (fun _ => .of_streams rfl rfl) _)).mono
      fun taken ans₁ t ht => ?_)
    cases taken with
    | none => exact fails ht
    | some id =>
      refine .seq (ends_streamNew (fun ans₂ => fails ht) fun hnone ans₂ _ => ?_)
      rw [if_pos rfl]
      have hupdate : Acts ok SameIds (sendWindowUpdate id) :=
        touches_sendWindowUpdate.mono fun _ _ h => h.streamsOnly.sameIds
      refine .seq ((ends_sameIds hupdate).mono fun r ans₃ u hu => ?_)
      have hadds := (adds_setStream hnone (Stream.fresh .init t.rcvbuf)).sameIds hu
      split
      · refine .seq (.seq (.crit (.check fun _ => fails ⟨hu.accepts.trans ht.accepts, fun i => ?_⟩)))
        rw [← ht.domain]
        change (Function.update u.streams id none i).isSome = _
        by_cases hi : i = id
        · subst hi
          rw [Function.update_self, hnone]
        · rw [Function.update_of_ne hi, Bool.eq_iff_iff, hadds.domain]
          simp [hi]
      · exact .pure ⟨hu.accepts.trans ht.accepts, ht.then_adds hadds⟩

/-- An accepted id was the oldest that waited. -/
theorem ends_sessionAccept : Ends ok (fun r _ t => ∀ id, r = some id →
    s.accepts = id :: t.accepts ∧ ∀ i, (t.streams i).isSome = (s.streams i).isSome)
    sessionAccept ans s := by
  refine .seq (.query fun _ => ?_)
  split
  · refine .seq (.await fun _ => .seq (.crit ?_))
    cases ha : s.accepts with
    | nil => exact .again
    | cons i rest =>
      refine .seq (.read (.seq (.check fun _ => ?_)))
      have hupdate : Acts ok SameIds (sendWindowUpdate i) :=
        touches_sendWindowUpdate.mono fun _ _ h => h.streamsOnly.sameIds
      refine .seq ((ends_sameIds hupdate).mono fun r ans₁ t ht => .pure fun id hid => ?_)
      split at hid
      · cases hid
      · cases hid
        exact ⟨by rw [ht.accepts]; rfl, ht.domain⟩
  · refine .seq ((ends_sameIds ?_).mono fun r ans₁ t _ => .pure fun id hid => ?_)
    · exact (acts_sessionGoAwayForReason _).mono fun _ _ h => h.sameIds
    · cases hid

/-- The calls that neither receive nor open nor accept. -/
def Api.KeepsIds : Api → Prop
  | .process | .openStream _ | .acceptStream => False
  | _ => True

theorem sameIds_code {c : Api} (hc : c.KeepsIds) : Acts ok SameIds c.code := by
  cases c with
  | recvBufWrite data =>
    exact .bind (.bind (acts_bioWrite _) fun _ => .bind (.modify fun _ => .of_streams rfl rfl)
      fun _ => .pure _) fun _ => .pure _
  | sendBufPending | sendBufPeek => exact .bind (.read .refl) fun _ => .pure _
  | sendBufConsume => exact .bind (.crit fun _ => .of_streams rfl rfl) fun _ => .pure _
  | read id size =>
    exact acts_forget ((touches_streamRead size).mono fun _ _ h => h.streamsOnly.sameIds)
  | write id data =>
    refine acts_forget ((queues_streamWrite data).mono fun s t h => ?_)
    cases h with
    | touch h => exact h.streamsOnly.sameIds
    | data => exact .of_streams rfl rfl
  | goAway => exact acts_forget ((acts_sessionGoAwayForReason _).mono fun _ _ h => h.sameIds)
  | process | openStream | acceptStream => exact hc.elim

end Ends

/-! ## Runs -/

/-- The ids of a run: of the streams that SYNs have created, of those that `session_accept`
has returned, and of those that `session_open` has returned, each oldest first. -/
structure Enrolled where
  created : List UInt32
  returned : List UInt32
  opened : List UInt32

/-- The states that rounds of `session_process` and calls lead to, whatever fails in them.
Only a call of `session_accept` has to succeed. -/
inductive AcceptRun (client : Bool) (rcvbuf : UInt32) : Session → Enrolled → Prop where
  | init : AcceptRun client rcvbuf (sessionInit client rcvbuf) ⟨[], [], []⟩
  | round {s t : Session} {e : Enrolled} {ans ans' : Answers Call} {r : Option Int}
      (h : AcceptRun client rcvbuf s e) (hrun : processRound.run ans s = (.ret r, ans', t)) :
      AcceptRun client rcvbuf t { e with created := e.created ++ arrived s t }
  | opens {s t : Session} {e : Enrolled} {ans ans' : Answers Call} {tries : Nat}
      {r : Option UInt32} (h : AcceptRun client rcvbuf s e)
      (hrun : (sessionOpen tries).run ans s = (.ret r, ans', t)) :
      AcceptRun client rcvbuf t { e with opened := e.opened ++ r.toList }
  | accepts {s t : Session} {e : Enrolled} {ans ans' : Answers Call} {id : UInt32}
      (h : AcceptRun client rcvbuf s e)
      (hrun : sessionAccept.run ans s = (.ret (some id), ans', t)) :
      AcceptRun client rcvbuf t { e with returned := e.returned ++ [id] }
  | other {s t : Session} {e : Enrolled} {ans ans' : Answers Call} {c : Api}
      (h : AcceptRun client rcvbuf s e) (hc : c.KeepsIds)
      (hrun : c.code.run ans s = (.ret (), ans', t)) : AcceptRun client rcvbuf t e

section Run

variable {client : Bool} {rcvbuf : UInt32} {s t : Session} {e : Enrolled}

/-- A call of `session_process` is some rounds. -/
theorem AcceptRun.process {ans ans' : Answers Call} {r : Int} (h : AcceptRun client rcvbuf s e)
    (hrun : sessionProcess.run ans s = (.ret r, ans', t)) : ∃ ids,
      AcceptRun client rcvbuf t { e with created := e.created ++ ids } := by
  have rounds {ans₁ : Answers Call} {u : Session} (hu : Rounds processRound ans s ans₁ u) :
      ∃ ids, AcceptRun client rcvbuf u { e with created := e.created ++ ids } := by
    induction hu with
    | start =>
      refine ⟨[], ?_⟩
      rw [List.append_nil]
      exact h
    | next _ hround ih =>
      obtain ⟨ids, hids⟩ := ih
      have hnext := hids.round hround
      rw [List.append_assoc] at hnext
      exact ⟨_, hnext⟩
  obtain ⟨ans₁, u, hu, hexit⟩ := sessionProcess_exits hrun
  obtain ⟨ids, hids⟩ := rounds hu
  have hlast := hids.round hexit
  rw [List.append_assoc] at hlast
  exact ⟨_, hlast⟩

/-- The ids of a run in terms of its state: the created ones have been returned, or they
wait; all name streams; and the opened ones are others. -/
structure Enrolled.Agrees (e : Enrolled) (s : Session) : Prop where
  order : e.created = e.returned ++ s.accepts
  once : e.created.Nodup
  created : ∀ id ∈ e.created, (s.streams id).isSome = true
  opened : ∀ id ∈ e.opened, (s.streams id).isSome = true
  apart : ∀ id ∈ e.opened, id ∉ e.created

theorem Enrolled.Agrees.sameIds (h : e.Agrees s) (hst : SameIds s t) : e.Agrees t := by
  refine ⟨by rw [hst.accepts]; exact h.order, h.once, fun id hid => ?_, fun id hid => ?_, h.apart⟩
  · rw [hst.domain]
    exact h.created id hid
  · rw [hst.domain]
    exact h.opened id hid

theorem Enrolled.Agrees.admits {ids : List UInt32} (h : e.Agrees s) (ha : Admits s t ids)
    (hids : ids.Nodup) : ({ e with created := e.created ++ ids } : Enrolled).Agrees t := by
  have old (id : UInt32) (hid : (s.streams id).isSome = true) : id ∉ ids := by
    intro hmem
    rw [ha.fresh id hmem] at hid
    cases hid
  refine ⟨?_, ?_, fun id hid => ?_, fun id hid => ?_, fun id hid hmem => ?_⟩
  · rw [ha.accepts, h.order, List.append_assoc]
  · refine h.once.append hids ?_
    intro id hid hmem
    exact old id (h.created id hid) hmem
  · rcases List.mem_append.mp hid with hid | hid
    · exact (ha.domain id).mpr (.inl (h.created id hid))
    · exact (ha.domain id).mpr (.inr hid)
  · exact (ha.domain id).mpr (.inl (h.opened id hid))
  · rcases List.mem_append.mp hmem with hmem | hmem
    · exact h.apart id hid hmem
    · exact old id (h.opened id hid) hmem

theorem Enrolled.Agrees.opens {ids : List UInt32} (h : e.Agrees s) (hacc : t.accepts = s.accepts)
    (ha : Adds s t ids) : ({ e with opened := e.opened ++ ids } : Enrolled).Agrees t := by
  refine ⟨by rw [hacc]; exact h.order, h.once, fun id hid => ?_, fun id hid => ?_,
    fun id hid hmem => ?_⟩
  · exact (ha.domain id).mpr (.inl (h.created id hid))
  · rcases List.mem_append.mp hid with hid | hid
    · exact (ha.domain id).mpr (.inl (h.opened id hid))
    · exact (ha.domain id).mpr (.inr hid)
  · rcases List.mem_append.mp hid with hid | hid
    · exact h.apart id hid hmem
    · have hsome := h.created id hmem
      rw [ha.fresh id hid] at hsome
      cases hsome

theorem nodup_arrived : (arrived s t).Nodup := by
  unfold arrived
  split
  · exact List.nodup_singleton _
  · exact List.nodup_nil

theorem AcceptRun.agrees (h : AcceptRun client rcvbuf s e) : e.Agrees s := by
  induction h with
  | init =>
    exact ⟨rfl, List.nodup_nil, fun _ h => absurd h List.not_mem_nil,
      fun _ h => absurd h List.not_mem_nil, fun _ h => absurd h List.not_mem_nil⟩
  | round h hrun ih =>
    exact ih.admits (ends_arrived (allowed_anyAnswer _) _ _ _ hrun) nodup_arrived
  | opens h hrun ih =>
    obtain ⟨hacc, hadds⟩ := ends_sessionOpen _ (allowed_anyAnswer _) _ _ _ hrun
    exact ih.opens hacc hadds
  | accepts h hrun ih =>
    obtain ⟨hacc, hdomain⟩ := ends_sessionAccept (allowed_anyAnswer _) _ _ _ hrun _ rfl
    refine ⟨?_, ih.once, fun id hid => ?_, fun id hid => ?_, ih.apart⟩
    · rw [ih.order, hacc, List.append_assoc]
      rfl
    · rw [hdomain]
      exact ih.created id hid
    · rw [hdomain]
      exact ih.opened id hid
  | other h hc hrun ih =>
    exact ih.sameIds (ends_sameIds (sameIds_code hc) (allowed_anyAnswer _) _ _ _ hrun)

/-- Where all ids that wait name streams, `session_accept` fails no assertion. -/
theorem sessionAccept_asserts (h : ∀ id ∈ s.accepts, (s.streams id).isSome = true)
    (ans : Answers Call) : (sessionAccept.run ans s).1 ≠ .abort := by
  have hwp : (Env.alone anyAnswer).wp sessionAccept (fun o _ => o ≠ .abort) s := by
    have returns {α : Type} {p : Op α} {t : Session} (hp : Quiet anyAnswer p t) :
        (Env.alone anyAnswer).wp p (fun o _ => o ≠ .abort) t := by
      refine Env.wp_mono _ hp ?_
      rintro o u ⟨⟨a, rfl⟩, -⟩
      exact fun hc => by cases hc
    rw [sessionAccept, Env.wp_bind, Env.alone_query]
    intro io _
    rw [Env.post_ret]
    split
    · rw [Env.wp_bind, Env.alone_await]
      split
      · rw [Env.post_ret, Env.wp_bind, Env.alone_crit, Env.post_ret]
        cases ha : s.accepts with
        | nil => exact Env.alone_again.mpr fun hc => by cases hc
        | cons id rest =>
          have hlive : (s.streams id).isSome = true := by
            apply h
            rw [ha]
            exact List.mem_cons_self
          dsimp only [List.head?_cons]
          rw [sessionFindStream, Env.alone_read_bind, Env.alone_check_bind hlive]
          refine returns (quiet_bind (quiet_sendWindowUpdate hlive) fun r u _ => quiet_pure _)
      · exact fun hc => by cases hc
    · exact returns (quiet_bind (quiet_sessionGoAwayForReason _) fun _ _ _ => quiet_pure _)
  exact (Env.wp_run hwp (allowed_anyAnswer ans)).1

/-- Accepting is a FIFO: the ids that `session_accept` has returned and those that wait are
the ids of the streams that SYNs have created, in that order and each once; those that wait
name streams, so the assertion holds; and no opened stream is among them. -/
structure FifoAccepts (s : Session) (e : Enrolled) : Prop where
  order : e.created = e.returned ++ s.accepts
  once : e.created.Nodup
  queued : ∀ id ∈ s.accepts, (s.streams id).isSome = true
  asserts : ∀ ans, (sessionAccept.run ans s).1 ≠ .abort
  apart : ∀ id ∈ e.opened, id ∉ e.returned

theorem accepts_fifo (h : AcceptRun client rcvbuf s e) : FifoAccepts s e := by
  have ha := h.agrees
  have hqueued : ∀ id ∈ s.accepts, (s.streams id).isSome = true := by
    intro id hid
    apply ha.created
    rw [ha.order]
    exact List.mem_append_right _ hid
  refine ⟨ha.order, ha.once, hqueued, sessionAccept_asserts hqueued, fun id hid hmem => ?_⟩
  apply ha.apart id hid
  rw [ha.order]
  exact List.mem_append_left _ hmem

end Run

/-- A new session with two SYNs to process. -/
def twoSyns : Session := (sessionInit true 4096).more
  (hdrEncode TYPE_WINDOW_UPDATE FLAG_SYN 2 0 ++ hdrEncode TYPE_WINDOW_UPDATE FLAG_SYN 4 0)

/-- The first of the two streams is accepted, the second one waits. -/
theorem accepts_fifo_two : ∃ (s : Session) (ids : List UInt32),
    AcceptRun true 4096 s ⟨ids, [2], []⟩ ∧ s.accepts = [4] ∧ FifoAccepts s ⟨ids, [2], []⟩ := by
  have hfed : AcceptRun true 4096 twoSyns ⟨[], [], []⟩ := by
    refine @AcceptRun.other _ _ _ _ _ noFail noFail (.recvBufWrite (hdrEncode TYPE_WINDOW_UPDATE
      FLAG_SYN 2 0 ++ hdrEncode TYPE_WINDOW_UPDATE FLAG_SYN 4 0)) .init trivial ?_
    rw [run_noFail, Api.code, exec_forget (exec_sessionRecvBufWrite _ _)]
    rfl
  have hprocess : (sessionProcess.exec twoSyns).1 = .ret 0 := by decide +kernel
  have haccept : (sessionAccept.exec (sessionProcess.exec twoSyns).2).1 = .ret (some 2) ∧
      (sessionAccept.exec (sessionProcess.exec twoSyns).2).2.accepts = [4] := by
    decide +kernel
  obtain ⟨ids, hids⟩ := hfed.process (by rw [run_noFail, hprocess])
  have hrun : AcceptRun true 4096 _ ⟨ids, [2], []⟩ :=
    hids.accepts (by rw [run_noFail, haccept.1])
  exact ⟨_, ids, hrun, haccept.2, accepts_fifo hrun⟩

end Yamux
