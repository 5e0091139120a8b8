import Yamux.Epoll.Records

/-!
# The tree and the interest list

A call changes the record before it asks the kernel, and does not change it back when the
kernel refuses. The tree mirrors the interest list for as long as the calls that the kernel
refuses had nothing to change.
-/

namespace Yamux.Epoll

variable {φ δ : Type} {loop : EventLoop φ δ} {fd : Int} {p : Nat} {e : Event φ δ}

/-- A record with its flags registered, or neither a record nor a registration. -/
def InStep : Option (Event φ δ) → Option EpollEvent → Prop
  | none, none => True
  | some e, some ee => Wanted e.flags ∧ ee.events = epollMask e.flags
  | _, _ => False

/-- The tree mirrors the interest list, descriptor by descriptor. -/
def EventLoop.Mirrors (loop : EventLoop φ δ) : Prop :=
  ∀ fd, InStep (loop.event? fd) (loop.interest fd)

/-- The flags of a call are non-empty. -/
def Request.Valid : Request φ δ → Prop
  | .add _ flags _ _ => Wanted flags
  | .delete _ flags => Wanted flags

/-- Afterwards the tree mirrors the interest list, and a call that returns `-1` has changed no
record. -/
structure Request.Keeps (loop : EventLoop φ δ) (out : Outside) (c : Request φ δ) : Prop where
  mirrors : (c.code loop out).2.Mirrors
  failed : (c.code loop out).1 = -1 → (c.code loop out).2.event? = loop.event?

/-- The record has the flags and their callbacks already. -/
def Event.Covers (e : Event φ δ) (flags : UInt32) (fn : Option φ) (data : Option δ) : Prop :=
  e.flags ||| flags = e.flags ∧
    (hasEvent flags EVENT_IN = true → e.recvFn = fn ∧ e.recvData = data) ∧
    (hasEvent flags EVENT_OUT = true → e.sendFn = fn ∧ e.sendData = data)

/-- The kernel is spared an outside failure, or there is nothing to change: no memory for a new
record, a record that has the flags and callbacks already, no record to delete from, or none of
the flags in it. -/
def Request.Harmless (loop : EventLoop φ δ) (out : Outside) : Request φ δ → Prop
  | .add fd flags fn data =>
    out.ctl = true ∨ (loop.event? fd = none ∧ out.mem = false) ∨
      ∃ e, loop.event? fd = some e ∧ e.Covers flags fn data
  | .delete fd flags =>
    out.ctl = true ∨ ∀ e, loop.event? fd = some e → e.flags &&& ~~~flags = e.flags

/-- Loops that calls with non-empty flags lead to, each call allowed where it is made. -/
inductive Run (allowed : EventLoop φ δ → Outside → Request φ δ → Prop) :
    EventLoop φ δ → Prop where
  | init : Run allowed eventLoopNew
  | call {loop : EventLoop φ δ} {c : Request φ δ} {out : Outside} :
      Run allowed loop → c.Valid → allowed loop out c → Run allowed (c.code loop out).2

/-! ## Flags -/

theorem Wanted.ne_zero {flags : UInt32} (h : Wanted flags) : flags ≠ EVENT_NONE := by
  obtain rfl | rfl | rfl := h <;> decide

theorem Wanted.or {flags flags' : UInt32} (h : Wanted flags) (h' : Wanted flags') :
    Wanted (flags ||| flags') := by
  obtain rfl | rfl | rfl := h <;> obtain rfl | rfl | rfl := h' <;> unfold Wanted <;> decide

theorem Wanted.andNot {flags flags' : UInt32} (h : Wanted flags) (h' : Wanted flags') :
    flags &&& ~~~flags' = EVENT_NONE ∨ Wanted (flags &&& ~~~flags') := by
  obtain rfl | rfl | rfl := h <;> obtain rfl | rfl | rfl := h' <;> unfold Wanted <;> decide

theorem Event.added_eq_self {flags : UInt32} {fn : Option φ} {data : Option δ} :
    e.added flags fn data = e ↔ e.Covers flags fn data := by
  obtain ⟨fd, old, sendFn, recvFn, sendData, recvData⟩ := e
  unfold Event.added Event.Covers Event.withCallback
  by_cases hin : hasEvent flags EVENT_IN = true <;>
    by_cases hout : hasEvent flags EVENT_OUT = true <;>
    simp [hin, hout, eq_comm, and_comm, and_assoc, and_left_comm]

/-! ## One call -/

/-- Where one descriptor changes on both sides, only that one has to be in step. -/
theorem EventLoop.Mirrors.update (hm : loop.Mirrors) {after : EventLoop φ δ}
    {record : Option (Event φ δ)} {registered : Option EpollEvent}
    (hevent : after.event? = Function.update loop.event? fd record)
    (hinterest : after.interest = Function.update loop.interest fd registered)
    (hstep : InStep record registered) : after.Mirrors := by
  intro fd'
  rw [hevent, hinterest]
  by_cases hfd : fd' = fd
  · rw [hfd, Function.update_self, Function.update_self]
    exact hstep
  · rw [Function.update_of_ne hfd, Function.update_of_ne hfd]
    exact hm fd'

/-- The registration of a descriptor that has a record. -/
theorem EventLoop.Mirrors.registered (hm : loop.Mirrors) (he : loop.event? fd = some e) :
    Wanted e.flags ∧ (loop.interest fd).isSome = true := by
  have hstep := hm fd
  rw [he] at hstep
  cases hreg : loop.interest fd with
  | none =>
    rw [hreg] at hstep
    exact hstep.elim
  | some ee =>
    rw [hreg] at hstep
    exact ⟨hstep.1, rfl⟩

theorem EventLoop.Mirrors.unregistered (hm : loop.Mirrors) (hnone : loop.event? fd = none) :
    loop.interest fd = none := by
  have hstep := hm fd
  rw [hnone] at hstep
  cases hreg : loop.interest fd with
  | none => rfl
  | some ee =>
    rw [hreg] at hstep
    exact hstep.elim

section Add

variable {flags : UInt32} {fn : Option φ} {data : Option δ} {out : Outside}

/-- `event_add` on a record whose flags ask for an operation that the kernel takes. -/
theorem eventAdd_asks (flags : UInt32) (fn : Option φ) (data : Option δ) (out : Outside)
    (h : loop.Ok) (hp : loop.events fd = some p)
    (htakes : (addOp (loop.records p).event.flags).takes (loop.interest fd).isSome = true) :
    let e := (loop.records p).event.added flags fn data
    let after := eventAdd loop fd flags fn data out
    after.2.event? = Function.update loop.event? fd (some e) ∧
      (out.ctl = true → after.1 = 0 ∧
        after.2.interest = Function.update loop.interest fd (some ⟨epollMask e.flags, p⟩)) ∧
      (out.ctl = false → after.1 = -1 ∧ after.2.interest = loop.interest) := by
  intro e after
  have hfd : (loop.records p).event.fd = fd := h.fd fd p hp
  have hat : e.fd = fd := (Event.added_fd flags fn data).trans hfd
  have hafter : after = _ := eventAdd_of_record flags fn data out hp hfd
  rw [hafter]
  refine ⟨(h.write hp hat out.ctl _).2, fun hctl => ?_, fun hctl => ?_⟩
  · obtain ⟨hr, -, -, hinterest⟩ | ⟨-, hno, -⟩ :=
      loop.interest_write p e out.ctl (addOp (loop.records p).event.flags)
    · refine ⟨hr, hinterest.trans ?_⟩
      rw [hat]
      unfold addOp
      split <;> rfl
    · rw [hat] at hno
      exact absurd ⟨htakes, hctl⟩ hno
  · obtain ⟨-, -, hfine, -⟩ | ⟨hr, -, hinterest⟩ :=
      loop.interest_write p e out.ctl (addOp (loop.records p).event.flags)
    · rw [hctl] at hfine
      cases hfine
    · exact ⟨hr, hinterest⟩

/-- What `event_add` does to a loop whose tree mirrors the interest list. -/
theorem EventLoop.Mirrors.eventAdd (fn : Option φ) (data : Option δ) (out : Outside)
    (h : loop.Ok) (hm : loop.Mirrors) (hw : Wanted flags)
    (hmem : loop.event? fd = none → out.mem = true) :
    let e := ((loop.event? fd).getD (eventNew fd)).added flags fn data
    let after := eventAdd loop fd flags fn data out
    after.2.event? = Function.update loop.event? fd (some e) ∧
      (out.ctl = true → after.1 = 0 ∧ after.2.Mirrors) ∧
      (out.ctl = false → after.1 = -1 ∧ after.2.interest = loop.interest) := by
  cases hp : loop.events fd with
  | some p =>
    have he := EventLoop.event?_of_events hp
    obtain ⟨hwanted, hsome⟩ := hm.registered he
    have htakes : (addOp (loop.records p).event.flags).takes (loop.interest fd).isSome = true := by
      rw [addOp, if_neg hwanted.ne_zero, hsome]
      rfl
    obtain ⟨hevent, hfine, hrefused⟩ :=
      eventAdd_asks flags fn data out h hp htakes
    rw [he]
    exact ⟨hevent, fun hctl => ⟨(hfine hctl).1, hm.update hevent (hfine hctl).2
      ⟨hwanted.or hw, rfl⟩⟩, hrefused⟩
  | none =>
    have hnone := EventLoop.event?_eq_none.mpr hp
    obtain ⟨hok, hinsert⟩ := h.insert hp
    have hin : (loop.insert fd).events fd = some loop.fresh := Function.update_self _ _ _
    have hnew : ((loop.insert fd).records loop.fresh).event = eventNew fd := by
      have hself : (loop.insert fd).records loop.fresh = ⟨eventNew fd, false⟩ :=
        Function.update_self _ _ _
      rw [hself]
    have htakes : (addOp ((loop.insert fd).records loop.fresh).event.flags).takes
        ((loop.insert fd).interest fd).isSome = true := by
      have hfree : (loop.insert fd).interest fd = none := hm.unregistered hnone
      rw [hnew, hfree]
      rfl
    obtain ⟨hevent, hfine, hrefused⟩ :=
      eventAdd_asks flags fn data out hok hin htakes
    rw [hnew, hinsert, Function.update_idem] at hevent
    rw [hnew] at hfine
    rw [eventAdd_of_none flags fn data hp (hmem hnone), hnone]
    refine ⟨hevent, fun hctl => ⟨(hfine hctl).1, hm.update hevent (hfine hctl).2 ⟨?_, rfl⟩⟩,
      hrefused⟩
    change Wanted (0 ||| flags)
    rw [UInt32.zero_or]
    exact hw

end Add

section Delete

variable {flags : UInt32} {out : Outside}

/-- What `event_delete` does to a record of a tree that mirrors the interest list. -/
theorem EventLoop.Mirrors.eventDelete (out : Outside) (h : loop.Ok) (hm : loop.Mirrors)
    (hw : Wanted flags) (he : loop.event? fd = some e) :
    let after := eventDelete loop fd flags out
    (out.ctl = true → after.1 = 0 ∧ after.2.Mirrors) ∧
      (out.ctl = false → after.1 = -1 ∧ after.2.interest = loop.interest ∧
        after.2.event? = Function.update loop.event? fd (some (e.deleted flags))) := by
  intro after
  obtain ⟨p, hp, rfl⟩ := Option.map_eq_some_iff.mp he
  have hat : ((loop.records p).event.deleted flags).fd = fd := h.fd fd p hp
  obtain ⟨hwanted, hsome⟩ := hm.registered he
  set e := (loop.records p).event.deleted flags with hdeleted
  have hafter : after = _ := eventDelete_of_record flags out hp (h.fd fd p hp)
  rw [hafter, ← hdeleted]
  obtain ⟨hok, hevent⟩ := h.write hp hat out.ctl (deleteOp e.flags)
  have htakes : (deleteOp e.flags).takes (loop.interest e.fd).isSome = true := by
    rw [hat, hsome]
    unfold deleteOp
    split <;> rfl
  constructor
  · intro hctl
    obtain ⟨hr, -, -, hinterest⟩ | ⟨-, hno, -⟩ :=
      loop.interest_write p e out.ctl (deleteOp e.flags)
    · refine ⟨hr, ?_⟩
      rw [hat] at hinterest
      obtain hempty | hleft := hwanted.andNot hw
      · -- no flag is left: the record goes with the registration
        have hop : deleteOp e.flags = .del := if_pos hempty
        have hgone : (loop.write out.ctl (deleteOp e.flags) p e).interest fd = none := by
          rw [hinterest, Function.update_self, hop]
          rfl
        obtain ⟨-, hremoved⟩ := hok.remove hp hgone
        rw [if_pos ⟨hr, hempty⟩]
        have hnone : ((loop.write out.ctl (deleteOp e.flags) p e).remove p).event? =
            Function.update loop.event? fd none := by
          rw [hremoved, hevent, Function.update_idem]
        have hfree : ((loop.write out.ctl (deleteOp e.flags) p e).remove p).interest =
            Function.update loop.interest fd none := by
          rw [hop] at hinterest ⊢
          exact hinterest
        exact hm.update hnone hfree trivial
      · have hne : e.flags ≠ EVENT_NONE := hleft.ne_zero
        rw [if_neg fun hboth => hne hboth.2]
        refine hm.update hevent hinterest ?_
        rw [deleteOp, if_neg hne]
        exact ⟨hleft, rfl⟩
    · exact absurd ⟨htakes, hctl⟩ hno
  · intro hctl
    obtain ⟨-, -, hfine, -⟩ | ⟨hr, -, hinterest⟩ :=
      loop.interest_write p e out.ctl (deleteOp e.flags)
    · rw [hctl] at hfine
      cases hfine
    · refine ⟨hr, ?_⟩
      have hzero : ¬ (loop.ask out.ctl (deleteOp e.flags) p e = 0 ∧ e.flags = EVENT_NONE) := by
        rw [hr]
        exact fun hboth => absurd hboth.1 (by decide)
      rw [if_neg hzero]
      exact ⟨hinterest, hevent⟩

end Delete

/-! ## Which calls keep the tree in step -/

namespace Request

variable {c : Request φ δ} {out : Outside}

/-- A call that succeeds has kept the tree in step if it mirrors the interest list. -/
theorem Keeps.of_success (hr : (c.code loop out).1 = 0) (hm : (c.code loop out).2.Mirrors) :
    c.Keeps loop out :=
  ⟨hm, fun hfail => absurd (hr.symm.trans hfail) (by decide)⟩

/-- So has a call that changed neither the records nor the interest list. -/
theorem Keeps.of_same (hm : loop.Mirrors)
    (hevent : (c.code loop out).2.event? = loop.event?)
    (hinterest : (c.code loop out).2.interest = loop.interest) : c.Keeps loop out := by
  refine ⟨fun fd => ?_, fun _ => hevent⟩
  rw [hevent, hinterest]
  exact hm fd

theorem keeps_add_iff (h : loop.Ok) (hm : loop.Mirrors) {flags : UInt32} (hw : Wanted flags)
    (fn : Option φ) (data : Option δ) :
    (Request.add fd flags fn data).Keeps loop out ↔
      (Request.add fd flags fn data).Harmless loop out := by
  by_cases hmem : loop.event? fd = none ∧ out.mem = false
  · have hafter : (Request.add fd flags fn data).code loop out = (-1, loop) :=
      eventAdd_of_memory flags fn data (EventLoop.event?_eq_none.mp hmem.1) hmem.2
    exact iff_of_true (Keeps.of_same hm (by rw [hafter]) (by rw [hafter])) (Or.inr (Or.inl hmem))
  have hroom : loop.event? fd = none → out.mem = true := fun hnone =>
    Bool.eq_true_of_not_eq_false fun hno => hmem ⟨hnone, hno⟩
  obtain ⟨hevent, hfine, hrefused⟩ :=
    hm.eventAdd fn data out h hw hroom
  cases hctl : out.ctl with
  | true => exact iff_of_true (Keeps.of_success (hfine hctl).1 (hfine hctl).2) (Or.inl hctl)
  | false =>
    obtain ⟨hr, hinterest⟩ := hrefused hctl
    constructor
    · intro hkeeps
      have hsame : some (((loop.event? fd).getD (eventNew fd)).added flags fn data) =
          loop.event? fd :=
        (Function.update_self fd _ _).symm.trans
          (congrFun (hevent.symm.trans (hkeeps.failed hr)) fd)
      cases he : loop.event? fd with
      | none =>
        rw [he] at hsame
        cases hsame
      | some e =>
        rw [he] at hsame
        exact Or.inr (Or.inr ⟨e, he, Event.added_eq_self.mp (Option.some.inj hsame)⟩)
    · rintro (hyes | hnone | ⟨e, he, hcovers⟩)
      · rw [hctl] at hyes
        cases hyes
      · exact absurd hnone hmem
      · refine Keeps.of_same hm ?_ hinterest
        rw [he, Option.getD_some, Event.added_eq_self.mpr hcovers, ← he] at hevent
        exact hevent.trans (Function.update_eq_self _ _)

theorem keeps_delete_iff (h : loop.Ok) (hm : loop.Mirrors) {flags : UInt32}
    (hw : Wanted flags) :
    (Request.delete fd flags : Request φ δ).Keeps loop out ↔
      (Request.delete fd flags : Request φ δ).Harmless loop out := by
  cases he : loop.event? fd with
  | none =>
    have hafter : (Request.delete fd flags : Request φ δ).code loop out = (-1, loop) :=
      eventDelete_of_none flags (EventLoop.event?_eq_none.mp he)
    refine iff_of_true (Keeps.of_same hm (by rw [hafter]) (by rw [hafter]))
      (Or.inr fun e hsome => ?_)
    rw [he] at hsome
    cases hsome
  | some e =>
    obtain ⟨hfine, hrefused⟩ := hm.eventDelete out h hw he
    cases hctl : out.ctl with
    | true => exact iff_of_true (Keeps.of_success (hfine hctl).1 (hfine hctl).2) (Or.inl hctl)
    | false =>
      obtain ⟨hr, hinterest, hevent⟩ := hrefused hctl
      constructor
      · intro hkeeps
        have hsame : some (e.deleted flags) = some e :=
          ((Function.update_self fd _ _).symm.trans
            (congrFun (hevent.symm.trans (hkeeps.failed hr)) fd)).trans he
        refine Or.inr fun e' he' => ?_
        obtain rfl := Option.some.inj (he.symm.trans he')
        exact congrArg Event.flags (Option.some.inj hsame)
      · rintro (hyes | hsame)
        · rw [hctl] at hyes
          cases hyes
        · refine Keeps.of_same hm ?_ hinterest
          have hkept : e.deleted flags = e := by
            rw [Event.deleted, hsame e he]
          rw [hkept, ← he] at hevent
          exact hevent.trans (Function.update_eq_self _ _)

/-- A call keeps the tree in step exactly if it is harmless. -/
theorem keeps_iff_harmless (h : loop.Ok) (hm : loop.Mirrors) (hv : c.Valid) :
    c.Keeps loop out ↔ c.Harmless loop out := by
  cases c with
  | add fd flags fn data => exact keeps_add_iff h hm hv fn data
  | delete fd flags => exact keeps_delete_iff h hm hv

end Request

/-! ## Runs -/

/-- The tree of every run is sound. -/
theorem Run.ok {allowed : EventLoop φ δ → Outside → Request φ δ → Prop} (h : Run allowed loop) :
    loop.Ok := by
  induction h with
  | init => exact ok_eventLoopNew
  | call _ _ _ ih => exact Request.ok_code ih

/-- In every run of harmless calls the tree mirrors the interest list after every call, the
calls that keep it so are exactly the harmless ones, and `event_add` succeeds whenever nothing
fails outside. -/
theorem mirrors_of_harmless (h : Run (fun loop out c => c.Harmless loop out) loop) :
    loop.Mirrors ∧
      (∀ (c : Request φ δ) (out : Outside), c.Valid →
        (c.Keeps loop out ↔ c.Harmless loop out)) ∧
      ∀ fd flags fn data, Wanted flags → (eventAdd loop fd flags fn data ⟨true, true⟩).1 = 0 := by
  have hm : loop.Mirrors := by
    induction h with
    | init => exact fun _ => trivial
    | call hrun hv hharmless ih =>
      exact ((Request.keeps_iff_harmless hrun.ok ih hv).mpr hharmless).mirrors
  refine ⟨hm, fun c out hv => Request.keeps_iff_harmless h.ok hm hv, fun fd flags fn data hw => ?_⟩
  obtain ⟨-, hfine, -⟩ :=
    hm.eventAdd fn data ⟨true, true⟩ h.ok hw (fun _ => rfl)
  exact (hfine rfl).1

/-- Listening for input on 5, and then being refused the deletion of output, which is not in the
flags. -/
theorem mirrors_of_harmless_refusal :
    let loop := ((Request.add 5 EVENT_IN (some ()) none).code
      (eventLoopNew : EventLoop Unit Unit) ⟨true, true⟩).2
    let after := ((Request.delete 5 EVENT_OUT : Request Unit Unit).code loop ⟨true, false⟩).2
    after.Mirrors ∧ (eventAdd after 5 EVENT_OUT (some ()) none ⟨true, true⟩).1 = 0 := by
  intro loop after
  have hadd : Run (fun loop out c => c.Harmless loop out) loop :=
    Run.init.call (c := .add 5 EVENT_IN (some ()) none) (Or.inl rfl) (Or.inl rfl)
  have hdelete : Run (fun loop out c => c.Harmless loop out) after := by
    refine hadd.call (c := .delete 5 EVENT_OUT) (Or.inr (Or.inl rfl)) (Or.inr fun e he => ?_)
    have hflags : (loop.event? 5).map Event.flags = some EVENT_IN := by decide
    rw [he] at hflags
    rw [Option.some.inj hflags]
    decide
  obtain ⟨hm, -, hsucceeds⟩ := mirrors_of_harmless hdelete
  exact ⟨hm, hsucceeds 5 EVENT_OUT (some ()) none (Or.inr (Or.inl rfl))⟩

/-- The kernel refuses the first `event_add` on 5. The record stays with its flags and is not
registered, and the next `event_add` fails although nothing fails outside. -/
theorem not_mirrors_after_refusal :
    let c : Request Unit Unit := .add 5 EVENT_IN (some ()) none
    let after := c.code eventLoopNew ⟨true, false⟩
    Run (fun _ _ _ => True) after.2 ∧ after.1 = -1 ∧ ¬ after.2.Mirrors ∧
      after.2.event? ≠ (eventLoopNew : EventLoop Unit Unit).event? ∧
      (c.code after.2 ⟨true, true⟩).1 = -1 := by
  intro c after
  have hrecord : after.2.event? 5 = some ⟨5, EVENT_IN, none, some (), none, none⟩ := by decide
  have hinterest : after.2.interest 5 = none := by decide
  refine ⟨Run.init.call (Or.inl rfl) trivial, by decide, fun hm => ?_, fun hsame => ?_, by decide⟩
  · have hstep := hm 5
    rw [hrecord, hinterest] at hstep
    exact hstep
  · have hnone : after.2.event? 5 = none := congrFun hsame 5
    rw [hrecord] at hnone
    cases hnone

end Yamux.Epoll
