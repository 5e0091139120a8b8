import Yamux.Epoll.Loop

/-!
# Records in the tree

What `event_add` and `event_delete` do is said once, on the records that the tree finds and
on the interest list, whatever the outside decides. The tree holds records in use, and the
kernel refers to the record of the descriptor.
-/

namespace Yamux.Epoll

variable {φ δ : Type} {loop : EventLoop φ δ} {fd : Int} {p : Nat} {e : Event φ δ}

/-- The record of a descriptor. -/
def EventLoop.event? (loop : EventLoop φ δ) (fd : Int) : Option (Event φ δ) :=
  (loop.findEvent fd).map fun p => (loop.records p).event

/-- A record that was given out and not removed. -/
def EventLoop.Live (loop : EventLoop φ δ) (p : Nat) : Prop := (loop.records p).removed = false

/-- The tree holds live records under their descriptors, memory that was not given out is not
live, and the kernel refers to the records of the tree. -/
structure EventLoop.Ok (loop : EventLoop φ δ) : Prop where
  live : ∀ fd p, loop.events fd = some p → loop.Live p
  fd : ∀ fd p, loop.events fd = some p → (loop.records p).event.fd = fd
  given : ∀ p, loop.Live p → p < loop.fresh
  refers : ∀ fd ee, loop.interest fd = some ee → loop.events fd = some ee.ptr

theorem ok_eventLoopNew : (eventLoopNew : EventLoop φ δ).Ok where
  live _ _ h := nomatch h
  fd _ _ h := nomatch h
  given _ h := nomatch h
  refers _ _ h := nomatch h

/-! ## Parts of the calls -/

namespace EventLoop

/-- What `epoll_ctl` answers about a record. -/
def ask (loop : EventLoop φ δ) (fine : Bool) (op : CtlOp) (p : Nat) (e : Event φ δ) : Int :=
  (epollCtl loop.interest fine op e.fd ⟨epollMask e.flags, p⟩).1

/-- The loop after a record was written and `epoll_ctl` was asked about it. -/
def write (loop : EventLoop φ δ) (fine : Bool) (op : CtlOp) (p : Nat) (e : Event φ δ) :
    EventLoop φ δ :=
  { loop.put p e with
    interest := (epollCtl loop.interest fine op e.fd ⟨epollMask e.flags, p⟩).2 }

theorem event?_eq_none : loop.event? fd = none ↔ loop.events fd = none := Option.map_eq_none_iff

theorem event?_of_events (h : loop.events fd = some p) :
    loop.event? fd = some (loop.records p).event := by
  rw [event?, findEvent, h]
  rfl

namespace Ok

/-- Two descriptors have different records. -/
theorem ne_of_fd (h : loop.Ok) {fd' : Int} {q : Nat} (hp : loop.events fd = some p)
    (hq : loop.events fd' = some q) (hfd : fd' ≠ fd) : q ≠ p := by
  rintro rfl
  exact hfd ((h.fd fd' q hq).symm.trans (h.fd fd q hp))

/-- Writing to the record of a descriptor changes what the tree finds for that one. -/
theorem put (h : loop.Ok) (hp : loop.events fd = some p) (he : e.fd = fd) :
    (loop.put p e).Ok ∧ (loop.put p e).event? = Function.update loop.event? fd (some e) := by
  have hrecord (q : Nat) (hq : q ≠ p) : (loop.put p e).records q = loop.records q :=
    Function.update_of_ne hq _ _
  have hself : (loop.put p e).records p = ⟨e, false⟩ := Function.update_self _ _ _
  refine ⟨⟨fun fd' q hq => ?_, fun fd' q hq => ?_, fun q hq => ?_, h.refers⟩, ?_⟩
  · by_cases hqp : q = p
    · rw [Live, hqp, hself]
    · rw [Live, hrecord q hqp]
      exact h.live fd' q hq
  · by_cases hqp : q = p
    · subst hqp
      rw [hself, he]
      exact (h.fd fd q hp).symm.trans (h.fd fd' q hq)
    · rw [hrecord q hqp]
      exact h.fd fd' q hq
  · by_cases hqp : q = p
    · exact hqp ▸ h.given p (h.live fd p hp)
    · rw [Live, hrecord q hqp] at hq
      exact h.given q hq
  · funext fd'
    by_cases hfd : fd' = fd
    · subst hfd
      have hq : (loop.put p e).events fd' = some p := hp
      rw [Function.update_self, event?_of_events hq, hself]
    · rw [Function.update_of_ne hfd]
      cases hq : loop.events fd' with
      | none =>
        have hput : (loop.put p e).events fd' = none := hq
        rw [event?_eq_none.mpr hq, event?_eq_none.mpr hput]
      | some q =>
        have hput : (loop.put p e).events fd' = some q := hq
        rw [event?_of_events hq, event?_of_events hput, hrecord q (h.ne_of_fd hp hq hfd)]

/-- A new record for a descriptor that has none. -/
theorem insert (h : loop.Ok) (hnone : loop.events fd = none) :
    (loop.insert fd).Ok ∧
      (loop.insert fd).event? = Function.update loop.event? fd (some (eventNew fd)) := by
  have hdead : ¬ loop.Live loop.fresh := fun hlive => lt_irrefl _ (h.given _ hlive)
  have hrecord (q : Nat) (hq : q ≠ loop.fresh) : (loop.insert fd).records q = loop.records q :=
    Function.update_of_ne hq _ _
  have hself : (loop.insert fd).records loop.fresh = ⟨eventNew fd, false⟩ :=
    Function.update_self _ _ _
  have hevents (fd' : Int) (hfd : fd' ≠ fd) : (loop.insert fd).events fd' = loop.events fd' :=
    Function.update_of_ne hfd _ _
  have hfresh : (loop.insert fd).events fd = some loop.fresh := Function.update_self _ _ _
  have hold {fd' : Int} {q : Nat} (hq : loop.events fd' = some q) : q ≠ loop.fresh := by
    rintro rfl
    exact hdead (h.live fd' _ hq)
  refine ⟨⟨fun fd' q hq => ?_, fun fd' q hq => ?_, fun q hq => ?_, fun fd' ee hee => ?_⟩, ?_⟩
  · by_cases hfd : fd' = fd
    · rw [hfd, hfresh] at hq
      obtain rfl := Option.some.inj hq
      rw [Live, hself]
    · rw [hevents fd' hfd] at hq
      rw [Live, hrecord q (hold hq)]
      exact h.live fd' q hq
  · by_cases hfd : fd' = fd
    · rw [hfd, hfresh] at hq
      obtain rfl := Option.some.inj hq
      rw [hself, hfd]
      rfl
    · rw [hevents fd' hfd] at hq
      rw [hrecord q (hold hq)]
      exact h.fd fd' q hq
  · by_cases hq' : q = loop.fresh
    · rw [hq']
      exact Nat.lt_succ_self _
    · rw [Live, hrecord q hq'] at hq
      exact Nat.lt_succ_of_lt (h.given q hq)
  · have hin : loop.events fd' = some ee.ptr := h.refers fd' ee hee
    have hfd : fd' ≠ fd := by
      rintro rfl
      rw [hnone] at hin
      cases hin
    exact (hevents fd' hfd).trans hin
  · funext fd'
    by_cases hfd : fd' = fd
    · subst hfd
      rw [Function.update_self, event?_of_events hfresh, hself]
    · rw [Function.update_of_ne hfd]
      cases hq : loop.events fd' with
      | none => rw [event?_eq_none.mpr hq, event?_eq_none.mpr ((hevents fd' hfd).trans hq)]
      | some q =>
        rw [event?_of_events hq, event?_of_events ((hevents fd' hfd).trans hq),
          hrecord q (hold hq)]

/-- Taking a record out of the tree, for a descriptor that is not registered. -/
theorem remove (h : loop.Ok) (hp : loop.events fd = some p) (hout : loop.interest fd = none) :
    (loop.remove p).Ok ∧ (loop.remove p).event? = Function.update loop.event? fd none := by
  have hrecord (q : Nat) (hq : q ≠ p) : (loop.remove p).records q = loop.records q :=
    Function.update_of_ne hq _ _
  have hself : ¬ (loop.remove p).Live p := by
    change ¬ (Function.update loop.records p ⟨(loop.records p).event, true⟩ p).removed = false
    rw [Function.update_self]
    exact Bool.noConfusion
  have htree : (loop.remove p).events = Function.update loop.events fd none := by
    rw [← h.fd fd p hp]
    rfl
  have hevents (fd' : Int) (hfd : fd' ≠ fd) : (loop.remove p).events fd' = loop.events fd' := by
    rw [htree, Function.update_of_ne hfd]
  have hgone : (loop.remove p).events fd = none := by rw [htree, Function.update_self]
  have hother {fd' : Int} {q : Nat} (hq : (loop.remove p).events fd' = some q) :
      fd' ≠ fd ∧ loop.events fd' = some q ∧ q ≠ p := by
    have hfd : fd' ≠ fd := by
      rintro rfl
      rw [hgone] at hq
      cases hq
    rw [hevents fd' hfd] at hq
    exact ⟨hfd, hq, h.ne_of_fd hp hq hfd⟩
  refine ⟨⟨fun fd' q hq => ?_, fun fd' q hq => ?_, fun q hq => ?_, fun fd' ee hee => ?_⟩, ?_⟩
  · obtain ⟨-, hq', hne⟩ := hother hq
    rw [Live, hrecord q hne]
    exact h.live fd' q hq'
  · obtain ⟨-, hq', hne⟩ := hother hq
    rw [hrecord q hne]
    exact h.fd fd' q hq'
  · have hne : q ≠ p := by
      rintro rfl
      exact hself hq
    rw [Live, hrecord q hne] at hq
    exact h.given q hq
  · have hfd : fd' ≠ fd := by
      rintro rfl
      have hnone : (loop.remove p).interest fd' = none := hout
      rw [hnone] at hee
      cases hee
    exact (hevents fd' hfd).trans (h.refers fd' ee hee)
  · funext fd'
    by_cases hfd : fd' = fd
    · subst hfd
      rw [Function.update_self, event?_eq_none.mpr hgone]
    · rw [Function.update_of_ne hfd]
      cases hq : loop.events fd' with
      | none => rw [event?_eq_none.mpr hq, event?_eq_none.mpr ((hevents fd' hfd).trans hq)]
      | some q =>
        rw [event?_of_events hq, event?_of_events ((hevents fd' hfd).trans hq),
          hrecord q (h.ne_of_fd hp hq hfd)]

/-- What the kernel is told refers to the record of the descriptor. -/
theorem ctl (h : loop.Ok) (hp : loop.events fd = some p) (fine : Bool) (op : CtlOp)
    (events : UInt32) :
    ({ loop with interest := (epollCtl loop.interest fine op fd ⟨events, p⟩).2 } :
      EventLoop φ δ).Ok := by
  refine ⟨h.live, h.fd, h.given, fun fd' ee hee => ?_⟩
  change (epollCtl loop.interest fine op fd ⟨events, p⟩).2 fd' = some ee at hee
  change loop.events fd' = some ee.ptr
  unfold epollCtl at hee
  split at hee
  · dsimp only at hee
    by_cases hfd : fd' = fd
    · subst hfd
      rw [Function.update_self] at hee
      cases op with
      | add | mod =>
        obtain rfl := Option.some.inj hee
        exact hp
      | del => cases hee
    · rw [Function.update_of_ne hfd] at hee
      exact h.refers fd' ee hee
  · exact h.refers fd' ee hee

/-- Both together: a record is written, and the kernel is asked about it. -/
theorem write (h : loop.Ok) (hp : loop.events fd = some p) (he : e.fd = fd) (fine : Bool)
    (op : CtlOp) :
    (loop.write fine op p e).Ok ∧
      (loop.write fine op p e).event? = Function.update loop.event? fd (some e) := by
  have hput := h.put hp he
  have hat : (loop.put p e).events fd = some p := hp
  have hctl := hput.1.ctl hat fine op (epollMask e.flags)
  rw [← he] at hctl
  exact ⟨hctl, hput.2⟩

end Ok

/-- Writing to a live record leaves all records live that are. -/
theorem Live.write {q : Nat} (h : loop.Live q) (fine : Bool) (op : CtlOp) :
    (loop.write fine op p e).Live q := by
  change (Function.update loop.records p ⟨e, false⟩ q).removed = false
  by_cases hq : q = p
  · rw [hq, Function.update_self]
  · rw [Function.update_of_ne hq]
    exact h

/-- What the kernel answers decides what it has registered. -/
theorem interest_write (loop : EventLoop φ δ) (p : Nat) (e : Event φ δ) (fine : Bool)
    (op : CtlOp) :
    (loop.ask fine op p e = 0 ∧ op.takes (loop.interest e.fd).isSome = true ∧ fine = true ∧
      (loop.write fine op p e).interest =
        Function.update loop.interest e.fd (op.leaves ⟨epollMask e.flags, p⟩)) ∨
    (loop.ask fine op p e = -1 ∧ ¬ (op.takes (loop.interest e.fd).isSome = true ∧ fine = true) ∧
      (loop.write fine op p e).interest = loop.interest) := by
  simp only [ask, EventLoop.write, epollCtl]
  by_cases hc : (op.takes (loop.interest e.fd).isSome && fine) = true
  · left
    rw [if_pos hc]
    exact ⟨rfl, (Bool.and_eq_true_iff.mp hc).1, (Bool.and_eq_true_iff.mp hc).2, rfl⟩
  · right
    rw [if_neg hc]
    exact ⟨rfl, fun hboth => hc (Bool.and_eq_true_iff.mpr hboth), rfl⟩

end EventLoop

/-! ## `event_add` -/

@[simp] theorem Event.withCallback_flags (flags : UInt32) (fn : Option φ) (data : Option δ) :
    (e.withCallback flags fn data).flags = e.flags := by
  simp only [withCallback]
  split <;> split <;> rfl

@[simp] theorem Event.withCallback_fd (flags : UInt32) (fn : Option φ) (data : Option δ) :
    (e.withCallback flags fn data).fd = e.fd := by
  simp only [withCallback]
  split <;> split <;> rfl

/-- The record that `event_add` leaves. -/
def Event.added (e : Event φ δ) (flags : UInt32) (fn : Option φ) (data : Option δ) :
    Event φ δ :=
  { e.withCallback flags fn data with flags := e.flags ||| flags }

/-- The operation that `event_add` asks for. -/
def addOp (flags : UInt32) : CtlOp := if flags = EVENT_NONE then .add else .mod

section Add

variable (flags : UInt32) (fn : Option φ) (data : Option δ) {out : Outside}

@[simp] theorem Event.added_fd : (e.added flags fn data).fd = e.fd :=
  Event.withCallback_fd flags fn data

@[simp] theorem Event.added_flags : (e.added flags fn data).flags = e.flags ||| flags := rfl

/-- For a descriptor that has a record, `event_add` changes the record and asks. -/
theorem eventAdd_of_record (out : Outside) (hp : loop.events fd = some p)
    (hfd : (loop.records p).event.fd = fd) :
    let e := (loop.records p).event
    eventAdd loop fd flags fn data out =
      (loop.ask out.ctl (addOp e.flags) p (e.added flags fn data),
        loop.write out.ctl (addOp e.flags) p (e.added flags fn data)) := by
  intro e
  have hrecord : loop.recordFor fd out.mem = some (p, loop) := by
    rw [EventLoop.recordFor, EventLoop.findEvent, hp]
  have hat : (e.added flags fn data).fd = fd := (Event.added_fd flags fn data).trans hfd
  simp only [eventAdd, hrecord, Event.withCallback_flags]
  rw [← hat]
  change (if loop.ask out.ctl (addOp e.flags) p (e.added flags fn data) ≠ 0 then
    (-1, loop.write out.ctl (addOp e.flags) p (e.added flags fn data))
    else (0, loop.write out.ctl (addOp e.flags) p (e.added flags fn data))) = _
  obtain ⟨hr, -, -, -⟩ | ⟨hr, -, -⟩ :=
    loop.interest_write p (e.added flags fn data) out.ctl (addOp e.flags)
  · rw [hr]
    rfl
  · rw [hr]
    rfl

/-- For a descriptor that has none, `event_add` goes on as if it had an empty one. -/
theorem eventAdd_of_none (hnone : loop.events fd = none) (hmem : out.mem = true) :
    eventAdd loop fd flags fn data out = eventAdd (loop.insert fd) fd flags fn data out := by
  have hold : loop.recordFor fd out.mem = some (loop.fresh, loop.insert fd) := by
    rw [EventLoop.recordFor, EventLoop.findEvent, hnone]
    exact if_pos hmem
  have hnew : (loop.insert fd).recordFor fd out.mem = some (loop.fresh, loop.insert fd) := by
    have hin : (loop.insert fd).events fd = some loop.fresh := Function.update_self _ _ _
    rw [EventLoop.recordFor, EventLoop.findEvent, hin]
  simp only [eventAdd, hold, hnew]

/-- Without memory for a record nothing happens. -/
theorem eventAdd_of_memory (hnone : loop.events fd = none) (hmem : out.mem = false) :
    eventAdd loop fd flags fn data out = (-1, loop) := by
  have hold : loop.recordFor fd out.mem = none := by
    rw [EventLoop.recordFor, EventLoop.findEvent, hnone]
    exact if_neg (Bool.eq_false_iff.mp hmem)
  simp only [eventAdd, hold]

end Add

/-! ## `event_delete` -/

/-- The record that `event_delete` leaves, or takes out of the tree. -/
def Event.deleted (e : Event φ δ) (flags : UInt32) : Event φ δ :=
  { e with flags := e.flags &&& ~~~flags }

/-- The operation that `event_delete` asks for. -/
def deleteOp (flags : UInt32) : CtlOp := if flags = EVENT_NONE then .del else .mod

section Delete

variable (flags : UInt32) {out : Outside}

@[simp] theorem Event.deleted_flags : (e.deleted flags).flags = e.flags &&& ~~~flags := rfl

theorem eventDelete_of_none (hnone : loop.events fd = none) :
    eventDelete loop fd flags out = (-1, loop) := by
  simp only [eventDelete, EventLoop.findEvent, hnone]

/-- For a descriptor that has a record, `event_delete` changes the record, asks, and takes out
the record if no flag is left and the kernel agrees. -/
theorem eventDelete_of_record (out : Outside) (hp : loop.events fd = some p)
    (hfd : (loop.records p).event.fd = fd) :
    let e := (loop.records p).event.deleted flags
    let left := loop.write out.ctl (deleteOp e.flags) p e
    eventDelete loop fd flags out =
      (loop.ask out.ctl (deleteOp e.flags) p e,
        if loop.ask out.ctl (deleteOp e.flags) p e = 0 ∧ e.flags = EVENT_NONE then
          left.remove p
        else left) := by
  intro e left
  have hat : e.fd = fd := hfd
  simp only [eventDelete, EventLoop.findEvent, hp]
  change (if (epollCtl loop.interest out.ctl (deleteOp e.flags) fd ⟨epollMask e.flags, p⟩).1 ≠ 0
    then _ else _) = _
  rw [← hat]
  change (if loop.ask out.ctl (deleteOp e.flags) p e ≠ 0 then (-1, left)
    else if e.flags = 0 then (0, left.remove p) else (0, left)) = _
  obtain ⟨hr, -, -, -⟩ | ⟨hr, -, -⟩ :=
    loop.interest_write p e out.ctl (deleteOp e.flags)
  · rw [hr]
    by_cases hflags : e.flags = 0
    · simp [hflags, EVENT_NONE]
    · simp [hflags, EVENT_NONE]
  · rw [hr]
    simp

end Delete

/-! ## Every call -/

/-- The record that a call takes out of the tree: one that is left without flags, if the kernel
agrees. -/
def Request.removes (loop : EventLoop φ δ) (out : Outside) : Request φ δ → Option Nat
  | .add _ _ _ _ => none
  | .delete fd flags =>
    (loop.findEvent fd).filter fun p =>
      (loop.records p).event.flags &&& ~~~flags = EVENT_NONE &&
        (loop.interest fd).isSome && out.ctl

section Request

variable {c : Request φ δ} {out : Outside} {q : Nat}

/-- `event_add` leaves every live record live. -/
theorem ok_eventAdd (h : loop.Ok) (flags : UInt32) (fn : Option φ) (data : Option δ) :
    (eventAdd loop fd flags fn data out).2.Ok ∧
      (loop.Live q → (eventAdd loop fd flags fn data out).2.Live q) := by
  have hrecord {loop : EventLoop φ δ} (h : loop.Ok) {p : Nat} (hp : loop.events fd = some p) :
      (eventAdd loop fd flags fn data out).2.Ok ∧
        (loop.Live q → (eventAdd loop fd flags fn data out).2.Live q) := by
    have hfd := h.fd fd p hp
    rw [eventAdd_of_record flags fn data out hp hfd]
    exact ⟨(h.write hp ((Event.added_fd flags fn data).trans hfd) _ _).1, fun hq => hq.write _ _⟩
  cases hp : loop.events fd with
  | some p => exact hrecord h hp
  | none =>
    cases hmem : out.mem with
    | false =>
      rw [eventAdd_of_memory flags fn data hp hmem]
      exact ⟨h, id⟩
    | true =>
      rw [eventAdd_of_none flags fn data hp hmem]
      obtain ⟨hok, hlive⟩ := hrecord (h.insert hp).1 (p := loop.fresh) (Function.update_self _ _ _)
      refine ⟨hok, fun hq => hlive ?_⟩
      -- the new record is not one that was live
      have hne : q ≠ loop.fresh := fun heq => lt_irrefl _ (heq ▸ h.given q hq)
      change (Function.update loop.records loop.fresh ⟨eventNew fd, false⟩ q).removed = false
      rw [Function.update_of_ne hne]
      exact hq

/-- `event_delete` leaves every live record live but the one that it takes out. -/
theorem ok_eventDelete (h : loop.Ok) (flags : UInt32) :
    (eventDelete loop fd flags out).2.Ok ∧
      (loop.Live q → ((eventDelete loop fd flags out).2.Live q ↔
        (Request.delete fd flags : Request φ δ).removes loop out ≠ some q)) := by
  cases hp : loop.events fd with
  | none =>
    rw [eventDelete_of_none flags hp, Request.removes, EventLoop.findEvent, hp]
    exact ⟨h, fun hq => iff_of_true hq nofun⟩
  | some p =>
    have hfd := h.fd fd p hp
    rw [eventDelete_of_record flags out hp hfd]
    set e := (loop.records p).event.deleted flags with he
    have hat : e.fd = fd := hfd
    set op := deleteOp e.flags with hop
    obtain ⟨hok, -⟩ := h.write hp hat out.ctl op
    have hremoves : (Request.delete fd flags : Request φ δ).removes loop out =
        (some p).filter fun _ => e.flags = EVENT_NONE && (loop.interest fd).isSome && out.ctl := by
      rw [Request.removes, EventLoop.findEvent, hp]
      rfl
    have hasks := loop.interest_write p e out.ctl op
    rw [hat] at hasks
    by_cases hgone : loop.ask out.ctl op p e = 0 ∧ e.flags = EVENT_NONE
    · rw [if_pos hgone]
      obtain ⟨-, htakes, hctl, hinterest⟩ | ⟨hr, -, -⟩ := hasks
      · have hdel : op = .del := if_pos hgone.2
        rw [hdel] at htakes hinterest
        have hsome : (loop.interest fd).isSome = true := htakes
        have hnone : (loop.write out.ctl op p e).interest fd = none := by
          rw [hdel, hinterest, Function.update_self]
          rfl
        refine ⟨(hok.remove hp hnone).1, fun hq => ?_⟩
        have hfilter : (Request.delete fd flags : Request φ δ).removes loop out = some p := by
          rw [hremoves, Option.filter_some, hgone.2, hsome, hctl]
          rfl
        rw [hfilter]
        change (Function.update (loop.write out.ctl op p e).records p ⟨_, true⟩ q).removed = false
          ↔ _
        by_cases hqp : q = p
        · rw [hqp, Function.update_self]
          exact iff_of_false Bool.noConfusion (fun hne => hne rfl)
        · rw [Function.update_of_ne hqp]
          exact iff_of_true (hq.write out.ctl op) fun heq => hqp (Option.some.inj heq).symm
      · rw [hr] at hgone
        exact absurd hgone.1 (by decide)
    · rw [if_neg hgone]
      refine ⟨hok, fun hq => iff_of_true (hq.write _ _) fun hout => ?_⟩
      rw [hremoves, Option.filter_eq_some_iff] at hout
      obtain ⟨-, hall⟩ := hout
      obtain ⟨⟨hempty, hsome⟩, hctl⟩ : (e.flags = EVENT_NONE ∧
          (loop.interest fd).isSome = true) ∧ out.ctl = true := by
        simpa only [Bool.and_eq_true, decide_eq_true_eq] using hall
      have hdel : op = .del := if_pos hempty
      obtain ⟨hr, -, -, -⟩ | ⟨-, hno, -⟩ := hasks
      · exact hgone ⟨hr, hempty⟩
      · rw [hdel] at hno
        exact hno ⟨hsome, hctl⟩

/-- A call keeps the tree sound. -/
theorem Request.ok_code (h : loop.Ok) : (c.code loop out).2.Ok := by
  cases c with
  | add fd flags fn data => exact (ok_eventAdd (q := 0) h flags fn data).1
  | delete fd flags => exact (ok_eventDelete (q := 0) h flags).1

/-- A record stays live unless the call takes it out. -/
theorem Request.live_code (h : loop.Ok) (hq : loop.Live q) :
    (c.code loop out).2.Live q ↔ c.removes loop out ≠ some q := by
  cases c with
  | add fd flags fn data =>
    exact iff_of_true ((ok_eventAdd h flags fn data).2 hq) nofun
  | delete fd flags => exact (ok_eventDelete h flags).2 hq

end Request

end Yamux.Epoll
