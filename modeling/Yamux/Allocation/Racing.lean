import Yamux.Allocation.Counter
import Yamux.Allocation.Collision
import Yamux.Core.Landing
import Yamux.Sequential.Stream

/-!
# Concurrent opens

Any number of threads take ids at once. Between its load of `next_id` and its compare
and swap a thread may be overtaken, and then it goes round again. A thread has an id
when it reaches the call of `stream_new`, and the step that takes it there is the one
that moves the counter on.
-/

namespace Yamux

open Core Prog

/-! ## The way to `stream_new` -/

/-- What `session_open` does from its call of `stream_new` on. -/
def openWith (id : UInt32) : Op (Option UInt32) := do
  let created ← streamNew id .init
  if created then do
    let r ← sendWindowUpdate id
    if r ≠ 0 then do
      streamFree id
      pure none
    else pure (some id)
  else pure none

/-- The part of `session_open` after its first check. -/
def takeAndOpen (tries : Nat) : Op (Option UInt32) := do
  match ← takeId tries with
  | none => pure none
  | some id => openWith id

theorem sessionOpen_eq (tries : Nat) : sessionOpen tries = (do
    let leaving ← read [] Session.remoteGoAway
    if leaving then pure none else takeAndOpen tries) := rfl

/-- A call of `session_open` has come to call `stream_new` with this id. -/
def Reaches (c : Api) (q : Op Unit) (id : UInt32) : Prop :=
  (∃ tries, c = .openStream tries) ∧ q = forget (openWith id)

/-- The counter moves on where a call reaches `stream_new`, and only there. -/
def Counts (c : Api) (s t : Session) (q : Op Unit) : Prop :=
  (∀ id, Reaches c q id → s.nextId = id ∧ t.nextId = id + 2) ∧
    ((∀ id, ¬ Reaches c q id) → t.nextId = s.nextId)

/-- The counter is as it was. -/
def SameCounter (s t : Session) : Prop := t.nextId = s.nextId

theorem SameCounter.refl (s : Session) : SameCounter s s := rfl

theorem Touches.sameCounter {id : UInt32} {N : Stream → Stream → Prop} {s t : Session}
    (h : Touches id N s t) : SameCounter s t := h.streamsOnly.nextId

section Never

/-! ### What comes after the socket calls -/

theorem never_onStream {α : Type} {c : Call} {ms : List Mutex} {id : UInt32}
    {g : Stream → α × Stream} : Never c (onStream ms id g) := by
  intro s
  dsimp only
  split <;> trivial

theorem never_sessionSendBufWrite (data : Bytes) : Never .sock (sessionSendBufWrite data) := by
  have nodes (fuel : Nat) : ∀ rest, Never .sock
      (Bio.writeNodes fuel rest : Prog Call Mutex Session (Bool × List Bytes)) := by
    induction fuel with
    | zero => exact fun _ => .pure _
    | succ fuel ih =>
      intro rest
      rw [Bio.writeNodes]
      split
      · exact .pure _
      · apply Never.bind (.query (by decide))
        intro b
        split
        · exact .bind (ih _) fun _ => .pure _
        · exact .pure _
  exact .bind (.bind (nodes _ _) fun _ => .pure _) fun _ => .bind .crit fun _ => .pure _

theorem never_sendWindowUpdate (id : UInt32) : Never .sock (sendWindowUpdate id) := by
  apply Never.bind never_onStream
  intro flags
  apply Never.bind never_onStream
  intro delta
  cases delta with
  | none => exact .pure _
  | some delta => exact .bind (never_sessionSendBufWrite _) fun _ => .pure _

/-- What follows the four questions of `stream_new` in `session_open`. -/
def openAfter (id : UInt32) (setup : Bool) : Op (Option UInt32) := do
  let created ← (if setup then do
      let padding ← read [] Session.rcvbuf
      sessionInsertStream id (Stream.fresh .init padding)
      pure true
    else pure false)
  if created then do
    let r ← sendWindowUpdate id
    if r ≠ 0 then do
      streamFree id
      pure none
    else pure (some id)
  else pure none

/-- The next steps of a call that has reached `stream_new`. -/
theorem forget_openWith (id : UInt32) : forget (openWith id) =
    .ask .alloc fun stream => .ask .alloc fun bio => .ask .sock fun pair => .ask .sock fun setup =>
      forget (openAfter id (stream && bio && pair && setup)) := rfl

theorem never_openAfter (id : UInt32) (setup : Bool) : Never .sock (forget (openAfter id setup)) := by
  refine .bind (.bind ?_ fun created => ?_) fun _ => .pure _
  · cases setup with
    | false => exact .pure _
    | true =>
      exact .bind .crit fun _ => .bind (.bind .crit fun _ => .check _) fun _ => .pure _
  · cases created with
    | false => exact .pure _
    | true =>
      apply Never.bind (never_sendWindowUpdate id)
      intro r
      split
      · exact .bind (.bind .crit fun _ => .check _) fun _ => .pure _
      · exact .pure _

end Never

/-- A program without the socket calls of `stream_new` has not come to call it. -/
theorem not_reaches {c : Api} {q : Op Unit} (h : Never .sock q) (id : UInt32) :
    ¬ Reaches c q id := by
  rintro ⟨-, rfl⟩
  rw [forget_openWith] at h
  exact ((h.2 true).2 true).1 rfl


section Lands

variable {ok : Call → Bool → Prop}

/-- Programs that leave the counter alone on the way to no further socket call. -/
theorem lands_never {c : Api} {p : Op Unit} (hn : Never .sock p) (hp : Acts ok SameCounter p) :
    Lands ok (Counts c) p := by
  apply (hn.lands.and (hp.lands .refl)).mono
  rintro s t q ⟨hq, hst⟩
  exact ⟨fun id hid => absurd hid (not_reaches hq id), fun _ => hst⟩

/-- Any other call leaves the counter alone. -/
theorem lands_other {c : Api} {p : Op Unit} (hc : ∀ tries, c ≠ .openStream tries)
    (hp : Acts ok SameCounter p) : Lands ok (Counts c) p := by
  apply (hp.lands .refl).mono
  intro s t q hst
  exact ⟨fun id ⟨⟨tries, he⟩, _⟩ => absurd he (hc tries), fun _ => hst⟩

theorem sameCounter_openAfter (id : UInt32) (setup : Bool) :
    Acts ok SameCounter (forget (openAfter id setup)) := by
  refine .bind (.bind ?_ fun created => ?_) fun _ => .pure _
  · cases setup with
    | false => exact .pure _
    | true =>
      refine .bind (.read .refl) fun _ => .bind (.bind (.crit fun s => ?_) fun _ => .check _)
        fun _ => .pure _
      split <;> exact .refl s
  · cases created with
    | false => exact .pure _
    | true =>
      apply Acts.bind (touches_sendWindowUpdate.mono fun _ _ h => h.sameCounter)
      intro r
      split
      · exact .bind (.bind (.crit fun s => .refl s) fun _ => .check _) fun _ => .pure _
      · exact .pure _

/-- A step within `session_open` that is not the one to `stream_new`. -/
theorem counts_elsewhere {c : Api} {s : Session} {q : Op Unit} (h : ∀ id, ¬ Reaches c q id) :
    Counts c s s q := ⟨fun id hid => absurd hid (h id), fun _ => rfl⟩

/-- A call that has come to `stream_new` allocates twice before it asks for a socket. -/
theorem Reaches.shape {c : Api} {q : Op Unit} {id : UInt32} (h : Reaches c q id) :
    ∃ k : Bool → Bool → Op Unit, q = .ask .alloc fun stream => .ask .alloc (k stream) :=
  ⟨_, h.2.trans (forget_openWith id)⟩

theorem lands_openWith {c : Api} (id : UInt32) : Lands ok (Counts c) (forget (openWith id)) := by
  rw [forget_openWith]
  intro stream _
  refine ⟨fun s => counts_elsewhere fun i hi => ?_, fun bio _ =>
    ⟨fun s => counts_elsewhere fun i hi => ?_, fun pair _ =>
      ⟨fun s => counts_elsewhere fun i hi => ?_, fun setup _ => ⟨fun s => ?_, ?_⟩⟩⟩⟩
  · obtain ⟨k, hk⟩ := Reaches.shape hi
    have htrue := congrFun (Prog.ask.inj hk).2 true
    cases htrue
  · obtain ⟨k, hk⟩ := Reaches.shape hi
    cases hk
  · obtain ⟨k, hk⟩ := Reaches.shape hi
    cases hk
  · exact counts_elsewhere fun i => not_reaches (never_openAfter id _) i
  · exact lands_never (never_openAfter id _) (sameCounter_openAfter id _)

theorem exec_forget_state {α : Type} (p : Op α) (s : Session) :
    ((forget p).exec s).2 = (p.exec s).2 := by
  rw [forget, exec_bind]
  cases p.exec s with
  | mk o t => cases o <;> rfl

/-- The id with which a call reaches `stream_new` can be told from what it does next. -/
theorem forget_openWith_inj {id i : UInt32} (h : forget (openWith id) = forget (openWith i)) :
    id = i := by
  by_contra hne
  have hnew : (((openWith id).exec (sessionInit true 0)).2.streams id).isSome := by
    rw [openWith, exec_bind, exec_streamNew rfl, andThen_ret, if_pos rfl, exec_bind,
      exec_sendWindowUpdate (Session.setStream_same _ _ _), andThen_ret, if_neg (by decide)]
    simp only [exec_pure, Session.updateWindow]
    simp
  have hnot : ((openWith i).exec (sessionInit true 0)).2.streams id = none := by
    have hacts : Acts anyAnswer (Grows i) (openWith i) := acts_openWith
    exact (Env.wp_exec (fun _ => trivial) (hacts.wp_alone .refl .trans _)).others id hne rfl
  rw [← exec_forget_state, h, exec_forget_state, hnot] at hnew
  cases hnew

/-- The compare and swap of a round that has loaded `id`. -/
def swapId (id : UInt32) (s : Session) : Bool × Session :=
  if s.nextId = id then (true, { s with nextId := id + 2 }) else (false, s)

/-- A round of `session_open` that finds an id left. -/
theorem forget_takeAndOpen_succ (tries : Nat) : forget (takeAndOpen (tries + 1)) =
    .act [] (fun s => s) fun s =>
      if 4294967295 ≤ s.nextId then .ret ()
      else .act [] (fun t => (swapId s.nextId t).2) fun t =>
        if (swapId s.nextId t).1 then forget (openWith s.nextId)
        else forget (takeAndOpen tries) := by
  refine congrArg (Prog.act [] fun s => s) (funext fun s => ?_)
  simp only [Prog.bind]
  by_cases hmax : 4294967295 ≤ s.nextId
  · rw [if_pos hmax, if_pos hmax]
    rfl
  · rw [if_neg hmax, if_neg hmax]
    refine congrArg (Prog.act [] fun t => (swapId s.nextId t).2) (funext fun t => ?_)
    by_cases hid : t.nextId = s.nextId
    · simp only [Prog.bind, swapId, if_pos hid]
      rfl
    · simp only [Prog.bind, swapId, if_neg hid]
      rfl

/-- A program whose next step is an action has not come to a question. -/
theorem not_reaches_act {c : Api} {ms : List Mutex} {f : Session → Session}
    {k : Session → Op Unit} (id : UInt32) : ¬ Reaches c (.act ms f k) id := by
  intro h
  obtain ⟨k', hk⟩ := h.shape
  cases hk

theorem lands_takeAndOpen (tries n : Nat) :
    Lands ok (Counts (.openStream n)) (forget (takeAndOpen tries)) ∧
      ∀ id, ¬ Reaches (.openStream n) (forget (takeAndOpen tries)) id := by
  induction tries with
  | zero =>
    refine ⟨⟨fun s => counts_elsewhere fun id h => ?_, trivial⟩, fun id h => ?_⟩
    · obtain ⟨k, hk⟩ := h.shape
      cases hk
    · obtain ⟨k, hk⟩ := h.shape
      cases hk
  | succ tries ih =>
    rw [forget_takeAndOpen_succ]
    refine ⟨fun s => ?_, not_reaches_act⟩
    dsimp only
    split
    · refine ⟨counts_elsewhere fun id h => ?_, trivial⟩
      obtain ⟨k, hk⟩ := h.shape
      cases hk
    · refine ⟨counts_elsewhere not_reaches_act, fun t => ?_⟩
      dsimp only [swapId]
      split
      · -- the swap succeeds
        rename_i hid
        refine ⟨⟨fun i hi => ?_, fun hnone => ?_⟩, lands_openWith _⟩
        · rw [← forget_openWith_inj hi.2]
          exact ⟨hid, rfl⟩
        · exact absurd ⟨⟨n, rfl⟩, rfl⟩ (hnone s.nextId)
      · -- another thread was faster
        exact ⟨counts_elsewhere ih.2, ih.1⟩

theorem lands_sessionOpen (tries : Nat) :
    Lands ok (Counts (.openStream tries)) (forget (sessionOpen tries)) := by
  rw [sessionOpen_eq]
  intro s
  have hrest : Lands ok (Counts (.openStream tries))
        (forget (if s.remoteGoAway then pure none else takeAndOpen tries)) ∧
      ∀ id, ¬ Reaches (.openStream tries)
        (forget (if s.remoteGoAway then pure none else takeAndOpen tries)) id := by
    split
    · refine ⟨trivial, fun id h => ?_⟩
      obtain ⟨k, hk⟩ := h.shape
      cases hk
    · exact lands_takeAndOpen tries tries
  exact ⟨counts_elsewhere hrest.2, hrest.1⟩

theorem Intake.sameCounter {g g' : Option UInt32} {s t : Session} (h : Intake s g t g') :
    SameCounter s t := by
  cases h with
  | handle h =>
    cases h with
    | pay h =>
      cases h with
      | touch h => exact h.sameCounter
      | input => exact .refl s
    | remote => exact .refl s
  | header | insert | queue | remove => exact .refl s

/-- Every call counts where it reaches `stream_new`. -/
theorem lands_code (c : Api) : Lands ok (Counts c) c.code := by
  have other {c : Api} {α : Type} {p : Op α} (hc : ∀ tries, c ≠ .openStream tries)
      (hp : Acts ok SameCounter p) : Lands ok (Counts c) (forget p) :=
    lands_other hc (acts_forget hp)
  cases c with
  | recvBufWrite data =>
    exact other nofun (.bind (acts_bioWrite _) fun _ => .bind (.modify .refl) fun _ => .pure _)
  | process => exact other nofun ((@takesIn_sessionProcess ok none).toActs fun _ _ _ _ _ h =>
      Intake.sameCounter h)
  | sendBufPending | sendBufPeek => exact other nofun (.read .refl)
  | sendBufConsume n => exact other nofun (.crit .refl)
  | openStream tries => exact lands_sessionOpen tries
  | acceptStream =>
    exact other nofun (changes_sessionAccept .refl fun _ _ _ h => h.sameCounter)
  | read id size =>
    exact other nofun ((touches_streamRead size).mono fun _ _ h => h.sameCounter)
  | write id data =>
    refine other nofun ((queues_streamWrite data).mono fun s t h => ?_)
    cases h with
    | touch h => exact h.sameCounter
    | data => exact .refl s
  | goAway =>
    exact other nofun ((acts_sessionGoAwayForReason _).mono fun _ _ h => h.nextId)

/-- No call begins at `stream_new`. -/
theorem counts_start (c : Api) (s : Session) : Counts c s s c.code := by
  apply counts_elsewhere
  rintro id ⟨⟨tries, rfl⟩, hq⟩
  rw [forget_openWith] at hq
  cases hq

end Lands

/-! ## Any number of threads -/

section Race

variable {τ : Type} [DecidableEq τ] {client : Bool} {rcvbuf : UInt32}

/-- Thread `i` has come to call `stream_new` with this id. -/
def AtStreamNew (P : Pool Call Mutex Session Api τ) (i : τ) (id : UInt32) : Prop :=
  ∃ c q, P.threads i = some (c, q) ∧ Reaches c q id

/-- The counter keeps away from the end of its range. -/
def Session.Counting (s : Session) : Prop := s.nextId.toNat < 2 ^ 32 - 3

instance (s : Session) : Decidable s.Counting := inferInstanceAs (Decidable (_ < _))

/-- The pools that threads with any calls lead to from a new session, and the ids with
which calls have reached `stream_new`, oldest first. -/
inductive RacingRun (client : Bool) (rcvbuf : UInt32) :
    Pool Call Mutex Session Api τ → List UInt32 → Prop where
  | start : RacingRun client rcvbuf (.start (sessionInit client rcvbuf)) []
  | step {P Q : Pool Call Mutex Session Api τ} {taken : List UInt32} {i : τ}
      (h : RacingRun client rcvbuf P taken)
      (hs : Pool.Step Api.code (fun _ _ => True) anyAnswer i P Q) (hlow : Q.state.Counting)
      (hnot : ∀ id, ¬ AtStreamNew Q i id) : RacingRun client rcvbuf Q taken
  | take {P Q : Pool Call Mutex Session Api τ} {taken : List UInt32} {i : τ} {id : UInt32}
      (h : RacingRun client rcvbuf P taken)
      (hs : Pool.Step Api.code (fun _ _ => True) anyAnswer i P Q) (hlow : Q.state.Counting)
      (hat : AtStreamNew Q i id) : RacingRun client rcvbuf Q (taken ++ [id])

/-- The first id that a side hands out. -/
def firstId (client : Bool) : Nat := if client then 1 else 2

/-- These ids are distinct, of the role's parity, and exactly those from the first one
up to the counter. -/
structure HandedOut (client : Bool) (s : Session) (taken : List UInt32) : Prop where
  distinct : taken.Nodup
  parity : ∀ id ∈ taken, ofRole client id
  all : ∀ n, (∃ id ∈ taken, id.toNat = n) ↔ ∃ k, n = firstId client + 2 * k ∧ n + 2 ≤ s.nextId.toNat

/-- The ids so far, one after the other, and the counter behind them. -/
structure Tallied (client : Bool) (s : Session) (taken : List UInt32) : Prop where
  low : s.Counting
  counter : s.nextId.toNat = firstId client + 2 * taken.length
  ids : taken.map UInt32.toNat = (List.range taken.length).map fun k => firstId client + 2 * k

theorem tallied_init : Tallied client (sessionInit client rcvbuf) [] := by
  refine ⟨?_, ?_, rfl⟩
  · change (if client then (1 : UInt32) else 2).toNat < 2 ^ 32 - 3
    cases client <;> decide
  · cases client <;> rfl

theorem Tallied.same {s t : Session} {taken : List UInt32} (h : Tallied client s taken)
    (ht : t.nextId = s.nextId) : Tallied client t taken := by
  refine ⟨?_, ?_, h.ids⟩
  · rw [Session.Counting, ht]
    exact h.low
  · rw [ht]
    exact h.counter

/-- The id that the counter showed is the next one of the row. -/
theorem Tallied.take {s t : Session} {taken : List UInt32} {id : UInt32}
    (h : Tallied client s taken) (hs : s.nextId = id) (ht : t.nextId = id + 2)
    (hlow : t.Counting) : Tallied client t (taken ++ [id]) := by
  have hid : id.toNat = firstId client + 2 * taken.length := by
    rw [← hs]
    exact h.counter
  have hmax : id.toNat < 2 ^ 32 - 3 := by
    rw [← hs]
    exact h.low
  refine ⟨hlow, ?_, ?_⟩
  · rw [ht, UInt32.toNat_add, List.length_append, List.length_singleton]
    change (id.toNat + 2) % 2 ^ 32 = _
    omega
  · rw [List.length_append, List.length_singleton, List.range_succ, List.map_append,
      List.map_append, h.ids, List.map_singleton, List.map_singleton, hid]

theorem Tallied.handedOut {s : Session} {taken : List UInt32} (h : Tallied client s taken) :
    HandedOut client s taken := by
  have mem (n : Nat) : (∃ id ∈ taken, id.toNat = n) ↔
      ∃ k < taken.length, firstId client + 2 * k = n := by
    rw [← List.mem_map, h.ids, List.mem_map]
    simp only [List.mem_range]
  refine ⟨?_, fun id hid => ?_, fun n => ?_⟩
  · apply List.Nodup.of_map UInt32.toNat
    rw [h.ids]
    apply List.Nodup.map _ List.nodup_range
    intro j k hjk
    have : firstId client + 2 * j = firstId client + 2 * k := hjk
    omega
  · obtain ⟨k, -, hk⟩ := (mem id.toNat).mp ⟨id, hid, rfl⟩
    rw [ofRole, ← hk, firstId]
    cases client <;> simp only [if_pos, Bool.false_eq_true, if_false] <;> omega
  · rw [mem, h.counter]
    constructor
    · rintro ⟨k, hk, rfl⟩
      exact ⟨k, rfl, by omega⟩
    · rintro ⟨k, rfl, hk⟩
      exact ⟨k, by omega, rfl⟩

theorem RacingRun.landing {P : Pool Call Mutex Session Api τ} {taken : List UInt32}
    (h : RacingRun client rcvbuf P taken) : Pool.Landing anyAnswer Counts P := by
  induction h with
  | start => exact Pool.landing_start _
  | step h hs hlow hnot ih => exact (ih.step lands_code counts_start hs).1
  | take h hs hlow hat ih => exact (ih.step lands_code counts_start hs).1

theorem RacingRun.tallied {P : Pool Call Mutex Session Api τ} {taken : List UInt32}
    (h : RacingRun client rcvbuf P taken) : Tallied client P.state taken := by
  induction h with
  | start => exact tallied_init
  | step h hs hlow hnot ih =>
    rcases (h.landing.step lands_code counts_start hs).2 with ⟨-, hsame⟩ | ⟨c, q, hth, hc⟩
    · rw [hsame]
      exact ih
    · exact ih.same (hc.2 fun id hid => hnot id ⟨c, q, hth, hid⟩)
  | take h hs hlow hat ih =>
    obtain ⟨c', q', hth', hreach⟩ := hat
    rcases (h.landing.step lands_code counts_start hs).2 with ⟨hnone, -⟩ | ⟨c, q, hth, hc⟩
    · rw [hnone] at hth'
      cases hth'
    · cases hth.symm.trans hth'
      obtain ⟨hs', ht'⟩ := hc.1 _ hreach
      exact ih.take hs' ht' hlow

/-- However the threads interleave, no id is handed out twice and none is skipped. -/
theorem opens_distinct {P : Pool Call Mutex Session Api τ} {taken : List UInt32}
    (h : RacingRun client rcvbuf P taken) : HandedOut client P.state taken :=
  h.tallied.handedOut

end Race

/-- Two threads load the same id; the one whose swap comes second goes round again. -/
def overtaken : List (Bool × Option Api) :=
  Pool.begins true (.openStream 2) 2 ++ Pool.begins false (.openStream 2) 3 ++
    List.replicate 3 (true, none)

/-- A schedule in which the counter stays low is a run. -/
theorem RacingRun.play {τ : Type} [DecidableEq τ] {client : Bool} {rcvbuf : UInt32}
    {schedule : List (τ × Option Api)} {P : Pool Call Mutex Session Api τ}
    (h : Pool.play Api.code (fun _ _ => True) (fun _ s t => decide (s.Counting → t.Counting))
      schedule (.start (sessionInit client rcvbuf)) = some P) :
    ∃ taken, RacingRun client rcvbuf P taken := by
  apply Pool.play_keeps (R := fun P => ∃ taken, RacingRun client rcvbuf P taken)
    (show ∀ q, anyAnswer q true from fun _ => trivial) (fun _ _ => decide_eq_true id) ?_
    ⟨[], .start⟩ h
  rintro P Q i ⟨taken, hP⟩ hs hcheck
  have hlow : Q.state.Counting := of_decide_eq_true hcheck hP.tallied.low
  by_cases hat : ∃ id, AtStreamNew Q i id
  · obtain ⟨id, hid⟩ := hat
    exact ⟨_, hP.take hs hlow hid⟩
  · exact ⟨taken, hP.step hs hlow fun id hid => hat ⟨id, hid⟩⟩

theorem opens_distinct_overtaken : ∃ (P : Pool Call Mutex Session Api Bool) (taken : List UInt32),
    P.state.nextId = 5 ∧ RacingRun true 4096 P taken ∧ HandedOut true P.state taken := by
  have hplay : (Pool.play Api.code (fun _ _ => True)
      (fun _ s t => decide (s.Counting → t.Counting)) overtaken
      (.start (sessionInit true 4096))).any (fun P => P.state.nextId == 5) = true := by
    decide +kernel
  obtain ⟨P, hP, hid⟩ := Option.any_eq_true _ _ |>.mp hplay
  obtain ⟨taken, hrun⟩ := RacingRun.play hP
  exact ⟨P, taken, beq_iff_eq.mp hid, hrun, opens_distinct hrun⟩

end Yamux
