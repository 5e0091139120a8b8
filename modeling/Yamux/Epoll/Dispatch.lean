import Yamux.Epoll.Records

/-!
# Dispatching ready events

`event_process` takes a batch of up to 256 ready events, each with the address of a record, and
runs their callbacks. A callback is the application: it may call `event_add`, `event_delete` and
`event_stop` as it likes before it returns. A step consults one record at most, and a record
that was removed by then leaves the loop in the wild.
-/

namespace Yamux.Epoll

variable {φ δ : Type}

/-! ## `epoll_wait` -/

/-- What is reported of a registration: the readiness that it asks for, errors and hang-ups. -/
def EpollEvent.report (ee : EpollEvent) (ready : UInt32) : EpollEvent :=
  { ee with events := ready &&& (ee.events ||| EPOLLERR ||| EPOLLHUP) }

/-- `epoll_wait` for ready descriptors, with room for 256 entries. -/
def epollWait (interest : Interest) (ready : List (Int × UInt32)) : List EpollEvent :=
  (ready.filterMap fun (fd, mask) => (interest fd).map (·.report mask)).take 256

/-! ## Program points -/

/-- A callback with its arguments. -/
structure Invocation (φ δ : Type) where
  fn : φ
  fd : Int
  data : Option δ
  deriving DecidableEq, Repr

/-- Where `event_process` and `handle_event` are. -/
inductive Point (φ δ : Type) where
  /-- Outside of `event_process`, with what it returned last. -/
  | away (r : Option Int)
  /-- Before `loop->stop` is tested. -/
  | test
  /-- Before the next entry of the batch. -/
  | entries (todo : List EpollEvent)
  /-- In the callback for input. -/
  | recv (i : Invocation φ δ) (ee : EpollEvent) (todo : List EpollEvent)
  /-- Before the second half of `handle_event`. -/
  | half (ee : EpollEvent) (todo : List EpollEvent)
  /-- In the callback for output. -/
  | send (i : Invocation φ δ) (todo : List EpollEvent)
  /-- A removed record was consulted. -/
  | wild (p : Nat)
  deriving DecidableEq, Repr

/-- The application runs: outside of `event_process` or in a callback. -/
def Point.application : Point φ δ → Bool
  | .away _ => true
  | .recv _ _ _ => true
  | .send _ _ => true
  | _ => false

/-- Consult a record. -/
def EventLoop.consult (loop : EventLoop φ δ) (p : Nat) (k : Event φ δ → Point φ δ) :
    Point φ δ :=
  if (loop.records p).removed then .wild p else k (loop.records p).event

/-- The first half of `handle_event`. -/
def handleRecv (loop : EventLoop φ δ) (ee : EpollEvent) (todo : List EpollEvent) : Point φ δ :=
  if hasEvent ee.events EPOLLIN then
    loop.consult ee.ptr fun event =>
      match event.recvFn with
      | some fn => .recv ⟨fn, event.fd, event.recvData⟩ ee todo
      | none => .half ee todo
  else .half ee todo

/-- The second half of `handle_event`. -/
def handleSend (loop : EventLoop φ δ) (ee : EpollEvent) (todo : List EpollEvent) : Point φ δ :=
  if hasEvent ee.events EPOLLOUT then
    loop.consult ee.ptr fun event =>
      match event.sendFn with
      | some fn => .send ⟨fn, event.fd, event.sendData⟩ todo
      | none => .entries todo
  else .entries todo

/-! ## Steps -/

/-- A loop, and where its processing is. -/
structure Machine (φ δ : Type) where
  loop : EventLoop φ δ
  point : Point φ δ

/-- What happens next. -/
inductive Input (φ δ : Type) where
  /-- The application calls `event_process`. -/
  | process
  /-- `epoll_wait` returns a batch, or fails. -/
  | wait (ready : Option (List (Int × UInt32)))
  /-- `event_process` goes on. -/
  | go
  /-- The application calls `event_add` or `event_delete`. -/
  | call (c : Request φ δ) (out : Outside)
  /-- The application calls `event_stop`. -/
  | stop
  /-- A callback returns. -/
  | back

namespace Machine

/-- An empty loop that nothing processes. -/
def start : Machine φ δ := ⟨eventLoopNew, .away none⟩

/-- `event_process` goes on by itself. -/
def go (m : Machine φ δ) : Option (Point φ δ) :=
  match m.point with
  | .test => if m.loop.stop then some (.away (some 0)) else none
  | .entries [] => some .test
  | .entries (ee :: todo) => some (handleRecv m.loop ee todo)
  | .half ee todo => some (handleSend m.loop ee todo)
  | _ => none

/-- `epoll_wait` returns. -/
def wait (m : Machine φ δ) (ready : Option (List (Int × UInt32))) : Option (Point φ δ) :=
  match m.point with
  | .test =>
    if m.loop.stop then none
    else match ready with
      | some ready => some (.entries (epollWait m.loop.interest ready))
      | none => some (.away (some (-1)))
  | _ => none

/-- A callback returns to where it was invoked. -/
def back (m : Machine φ δ) : Option (Point φ δ) :=
  match m.point with
  | .recv _ ee todo => some (.half ee todo)
  | .send _ todo => some (.entries todo)
  | _ => none

/-- One step of the application and the loop together. -/
def step (m : Machine φ δ) : Input φ δ → Option (Machine φ δ)
  | .process =>
    match m.point with
    | .away _ => some { m with point := .test }
    | _ => none
  | .wait ready => (m.wait ready).map fun point => { m with point := point }
  | .go => m.go.map fun point => { m with point := point }
  | .call c out =>
    if m.point.application then some { m with loop := (c.code m.loop out).2 } else none
  | .stop => if m.point.application then some { m with loop := eventStop m.loop } else none
  | .back => m.back.map fun point => { m with point := point }

end Machine

/-- Machines that a run from an empty loop leads to, each input allowed where it comes. -/
inductive Machine.Run (allowed : Machine φ δ → Input φ δ → Prop) : Machine φ δ → Prop where
  | start : Run allowed start
  | step {m m' : Machine φ δ} {input : Input φ δ} :
      Run allowed m → allowed m input → m.step input = some m' → Run allowed m'

/-! ## Records that are still to be consulted -/

/-- The records that handling the entries of a batch consults. -/
def toConsult (todo : List EpollEvent) : List Nat :=
  (todo.filter fun ee => hasEvent ee.events EPOLLIN || hasEvent ee.events EPOLLOUT).map (·.ptr)

/-- The record that the second half of `handle_event` consults. -/
def toSend (ee : EpollEvent) : List Nat :=
  if hasEvent ee.events EPOLLOUT then [ee.ptr] else []

/-- The records that are consulted before the batch is done. -/
def Point.pending : Point φ δ → List Nat
  | .entries todo => toConsult todo
  | .recv _ ee todo => toSend ee ++ toConsult todo
  | .half ee todo => toSend ee ++ toConsult todo
  | .send _ todo => toConsult todo
  | _ => []

/-- A call takes out no record that is still to be consulted. -/
def Machine.Spares (m : Machine φ δ) : Input φ δ → Prop
  | .call c out => ∀ p, c.removes m.loop out = some p → p ∉ m.point.pending
  | _ => True

/-- No call is made and no new batch is taken: callbacks return and the loop goes on. -/
def Machine.Quiet (m m' : Machine φ δ) : Prop := m.step .go = some m' ∨ m.step .back = some m'

/-- The loop is sound, nothing was consulted in vain, and what is to be consulted is live. -/
structure Machine.Sound (m : Machine φ δ) : Prop where
  ok : m.loop.Ok
  tame : ∀ p, m.point ≠ .wild p
  pending : ∀ p ∈ m.point.pending, m.loop.Live p

variable {m m' : Machine φ δ} {loop : EventLoop φ δ} {ee : EpollEvent} {todo : List EpollEvent}
  {p : Nat}

theorem mem_toConsult_cons :
    p ∈ toConsult (ee :: todo) ↔
      ((hasEvent ee.events EPOLLIN = true ∨ hasEvent ee.events EPOLLOUT = true) ∧ p = ee.ptr) ∨
        p ∈ toConsult todo := by
  unfold toConsult
  by_cases h : hasEvent ee.events EPOLLIN = true ∨ hasEvent ee.events EPOLLOUT = true
  · simp [h]
  · simp [h]

theorem mem_toSend : p ∈ toSend ee ↔ hasEvent ee.events EPOLLOUT = true ∧ p = ee.ptr := by
  unfold toSend
  split <;> simp_all

/-- Each entry of a batch refers to a live record. -/
theorem live_of_epollWait (h : loop.Ok) {ready : List (Int × UInt32)}
    (hee : ee ∈ epollWait loop.interest ready) : loop.Live ee.ptr := by
  obtain ⟨⟨fd, mask⟩, -, hreport⟩ := List.mem_filterMap.mp (List.mem_of_mem_take hee)
  obtain ⟨registered, hregistered, rfl⟩ := Option.map_eq_some_iff.mp hreport
  exact h.live fd registered.ptr (h.refers fd registered hregistered)

theorem consult_of_live (h : loop.Live p) (k : Event φ δ → Point φ δ) :
    loop.consult p k = k (loop.records p).event := by
  rw [EventLoop.consult, if_neg (Bool.eq_false_iff.mp h)]

theorem consult_of_dead (h : ¬ loop.Live p) (k : Event φ δ → Point φ δ) :
    loop.consult p k = .wild p := by
  rw [EventLoop.consult, if_pos (Bool.eq_true_of_not_eq_false h)]

/-- The first half runs the callback for input or passes on, if the record is live where it is
consulted. -/
theorem handleRecv_cases (todo : List EpollEvent)
    (h : hasEvent ee.events EPOLLIN = true → loop.Live ee.ptr) :
    handleRecv loop ee todo = .half ee todo ∨
      ∃ i : Invocation φ δ, handleRecv loop ee todo = .recv i ee todo := by
  unfold handleRecv
  split
  · rw [consult_of_live (h ‹_›)]
    cases (loop.records ee.ptr).event.recvFn with
    | none => exact Or.inl rfl
    | some fn => exact Or.inr ⟨_, rfl⟩
  · exact Or.inl rfl

theorem handleSend_cases (todo : List EpollEvent)
    (h : hasEvent ee.events EPOLLOUT = true → loop.Live ee.ptr) :
    handleSend loop ee todo = .entries todo ∨
      ∃ i : Invocation φ δ, handleSend loop ee todo = .send i todo := by
  unfold handleSend
  split
  · rw [consult_of_live (h ‹_›)]
    cases (loop.records ee.ptr).event.sendFn with
    | none => exact Or.inl rfl
    | some fn => exact Or.inr ⟨_, rfl⟩
  · exact Or.inl rfl

/-! ## What a step keeps -/

namespace Machine

/-- Moving on is sound where it consults nothing in vain and leaves less to consult. -/
theorem Sound.move (h : m.Sound) {point : Point φ δ} (htame : ∀ p, point ≠ .wild p)
    (hless : ∀ p ∈ point.pending, p ∈ m.point.pending) : Sound { m with point := point } :=
  ⟨h.ok, htame, fun p hp => h.pending p (hless p hp)⟩

theorem Sound.go (h : m.Sound) {point : Point φ δ} (hgo : m.go = some point) :
    Sound { m with point := point } := by
  obtain ⟨loop, here⟩ := m
  cases here with
  | test =>
    simp only [Machine.go, Option.ite_none_right_eq_some, Option.some.injEq] at hgo
    obtain ⟨-, rfl⟩ := hgo
    exact h.move nofun nofun
  | entries todo =>
    cases todo with
    | nil =>
      obtain rfl := Option.some.inj hgo
      exact h.move nofun nofun
    | cons ee todo =>
      obtain rfl := Option.some.inj hgo
      have hlive : hasEvent ee.events EPOLLIN = true → loop.Live ee.ptr := fun hin =>
        h.pending ee.ptr (mem_toConsult_cons.mpr (Or.inl ⟨Or.inl hin, rfl⟩))
      -- what either outcome leaves to consult was to be consulted in any case
      have hless : ∀ p ∈ toSend ee ++ toConsult todo, p ∈ toConsult (ee :: todo) := by
        intro p hp
        obtain hp | hp := List.mem_append.mp hp
        · obtain ⟨hout, rfl⟩ := mem_toSend.mp hp
          exact mem_toConsult_cons.mpr (Or.inl ⟨Or.inr hout, rfl⟩)
        · exact mem_toConsult_cons.mpr (Or.inr hp)
      obtain hnext | ⟨i, hnext⟩ := handleRecv_cases todo hlive
      · rw [hnext]
        exact h.move nofun hless
      · rw [hnext]
        exact h.move nofun hless
  | half ee todo =>
    obtain rfl := Option.some.inj hgo
    have hlive : hasEvent ee.events EPOLLOUT = true → loop.Live ee.ptr := fun hout =>
      h.pending ee.ptr (List.mem_append_left _ (mem_toSend.mpr ⟨hout, rfl⟩))
    obtain hnext | ⟨i, hnext⟩ := handleSend_cases todo hlive
    · rw [hnext]
      exact h.move nofun fun p hp => List.mem_append_right _ hp
    · rw [hnext]
      exact h.move nofun fun p hp => List.mem_append_right _ hp
  | away | recv | send | wild => cases hgo

theorem Sound.wait (h : m.Sound) {ready : Option (List (Int × UInt32))} {point : Point φ δ}
    (hwait : m.wait ready = some point) : Sound { m with point := point } := by
  obtain ⟨loop, here⟩ := m
  cases here with
  | test =>
    simp only [Machine.wait, Option.ite_none_left_eq_some] at hwait
    obtain ⟨-, hwait⟩ := hwait
    cases ready with
    | none =>
      obtain rfl := Option.some.inj hwait
      exact h.move nofun nofun
    | some ready =>
      obtain rfl := Option.some.inj hwait
      refine ⟨h.ok, nofun, fun p hp => ?_⟩
      obtain ⟨ee, hee, rfl⟩ := List.mem_map.mp hp
      exact live_of_epollWait h.ok (List.mem_of_mem_filter hee)
  | away | entries | recv | half | send | wild => cases hwait

theorem Sound.back (h : m.Sound) {point : Point φ δ} (hback : m.back = some point) :
    Sound { m with point := point } := by
  obtain ⟨loop, here⟩ := m
  cases here with
  | recv i ee todo =>
    obtain rfl := Option.some.inj hback
    exact h.move nofun fun p hp => hp
  | send i todo =>
    obtain rfl := Option.some.inj hback
    exact h.move nofun fun p hp => hp
  | away | test | entries | half | wild => cases hback

/-- A step keeps the machine sound, if the application spares what is still to be consulted. -/
theorem Sound.step (h : m.Sound) (input : Input φ δ) (hspares : m.Spares input)
    (hstep : m.step input = some m') : m'.Sound := by
  cases input with
  | process =>
    obtain ⟨loop, here⟩ := m
    cases here with
    | away r =>
      obtain rfl := Option.some.inj hstep
      exact h.move nofun nofun
    | test | entries | recv | half | send | wild => cases hstep
  | wait ready =>
    obtain ⟨point, hwait, rfl⟩ := Option.map_eq_some_iff.mp hstep
    exact h.wait hwait
  | go =>
    obtain ⟨point, hgo, rfl⟩ := Option.map_eq_some_iff.mp hstep
    exact h.go hgo
  | call c out =>
    simp only [Machine.step, Option.ite_none_right_eq_some, Option.some.injEq] at hstep
    obtain ⟨-, rfl⟩ := hstep
    refine ⟨Request.ok_code h.ok, h.tame, fun p hp => ?_⟩
    exact (Request.live_code h.ok (h.pending p hp)).mpr fun hout => hspares p hout hp
  | stop =>
    simp only [Machine.step, Option.ite_none_right_eq_some, Option.some.injEq] at hstep
    obtain ⟨-, rfl⟩ := hstep
    exact ⟨⟨h.ok.live, h.ok.fd, h.ok.given, h.ok.refers⟩, h.tame, h.pending⟩
  | back =>
    obtain ⟨point, hback, rfl⟩ := Option.map_eq_some_iff.mp hstep
    exact h.back hback

/-- Every run that spares what is still to be consulted is sound. -/
theorem Run.sound (h : m.Run Spares) : m.Sound := by
  induction h with
  | start => exact ⟨ok_eventLoopNew, nofun, nofun⟩
  | step _ hspares hstep ih => exact ih.step _ hspares hstep

/-! ## What happens to a removed record that is still to be consulted -/

/-- Callbacks return and the loop goes on until a removed record is consulted. -/
def GoesWild (m : Machine φ δ) : Prop :=
  ∃ m' p, Relation.ReflTransGen Quiet m m' ∧ m'.point = .wild p

theorem GoesWild.head (hquiet : m.Quiet m') (h : m'.GoesWild) : m.GoesWild := by
  obtain ⟨after, p, hrun, hwild⟩ := h
  exact ⟨after, p, Relation.ReflTransGen.head hquiet hrun, hwild⟩

theorem goesWild_of_wild : GoesWild ⟨loop, .wild p⟩ := ⟨_, p, .refl, rfl⟩

theorem quiet_entry {point : Point φ δ} (h : handleRecv loop ee todo = point) :
    Quiet ⟨loop, .entries (ee :: todo)⟩ ⟨loop, point⟩ := by
  subst h
  exact Or.inl rfl

theorem quiet_half {point : Point φ δ} (h : handleSend loop ee todo = point) :
    Quiet ⟨loop, .half ee todo⟩ ⟨loop, point⟩ := by
  subst h
  exact Or.inl rfl

theorem goesWild_half
    (h : (hasEvent ee.events EPOLLOUT = true ∧ ¬ loop.Live ee.ptr) ∨
      GoesWild ⟨loop, .entries todo⟩) : GoesWild ⟨loop, .half ee todo⟩ := by
  by_cases hdead : hasEvent ee.events EPOLLOUT = true ∧ ¬ loop.Live ee.ptr
  · have hnext : handleSend loop ee todo = .wild ee.ptr := by
      rw [handleSend, if_pos hdead.1, consult_of_dead hdead.2]
    exact goesWild_of_wild.head (quiet_half hnext)
  have hrest := h.resolve_left hdead
  obtain hnext | ⟨i, hnext⟩ := handleSend_cases todo
    fun hout => Classical.not_not.mp fun hno => hdead ⟨hout, hno⟩
  · exact hrest.head (quiet_half hnext)
  · have hsend : GoesWild ⟨loop, .send i todo⟩ := hrest.head (Or.inr rfl)
    exact hsend.head (quiet_half hnext)

theorem goesWild_entry
    (h : (hasEvent ee.events EPOLLIN = true ∧ ¬ loop.Live ee.ptr) ∨
      GoesWild ⟨loop, .half ee todo⟩) : GoesWild ⟨loop, .entries (ee :: todo)⟩ := by
  by_cases hdead : hasEvent ee.events EPOLLIN = true ∧ ¬ loop.Live ee.ptr
  · have hnext : handleRecv loop ee todo = .wild ee.ptr := by
      rw [handleRecv, if_pos hdead.1, consult_of_dead hdead.2]
    exact goesWild_of_wild.head (quiet_entry hnext)
  have hrest := h.resolve_left hdead
  obtain hnext | ⟨i, hnext⟩ := handleRecv_cases todo
    fun hin => Classical.not_not.mp fun hno => hdead ⟨hin, hno⟩
  · exact hrest.head (quiet_entry hnext)
  · have hrecv : GoesWild ⟨loop, .recv i ee todo⟩ := hrest.head (Or.inr rfl)
    exact hrecv.head (quiet_entry hnext)

theorem goesWild_entries (hdead : ¬ loop.Live p) (hp : p ∈ toConsult todo) :
    GoesWild ⟨loop, .entries todo⟩ := by
  induction todo with
  | nil => cases hp
  | cons ee todo ih =>
    obtain ⟨hin | hout, rfl⟩ | hrest := mem_toConsult_cons.mp hp
    · exact goesWild_entry (Or.inl ⟨hin, hdead⟩)
    · exact goesWild_entry (Or.inr (goesWild_half (Or.inl ⟨hout, hdead⟩)))
    · exact goesWild_entry (Or.inr (goesWild_half (Or.inr (ih hrest))))

/-- A removed record that is still to be consulted will be. -/
theorem goesWild_of_pending (hdead : ¬ m.loop.Live p) (hp : p ∈ m.point.pending) :
    m.GoesWild := by
  obtain ⟨loop, here⟩ := m
  have hhalf {ee : EpollEvent} {todo : List EpollEvent} (hp : p ∈ toSend ee ++ toConsult todo) :
      GoesWild ⟨loop, .half ee todo⟩ := by
    obtain hp | hp := List.mem_append.mp hp
    · obtain ⟨hout, rfl⟩ := mem_toSend.mp hp
      exact goesWild_half (Or.inl ⟨hout, hdead⟩)
    · exact goesWild_half (Or.inr (goesWild_entries hdead hp))
  cases here with
  | entries todo => exact goesWild_entries hdead hp
  | recv i ee todo => exact (hhalf hp).head (Or.inr rfl)
  | half ee todo => exact hhalf hp
  | send i todo => exact (goesWild_entries hdead hp).head (Or.inr rfl)
  | away | test | wild => cases hp

/-- Going on quietly keeps the machine sound. -/
theorem Sound.quiet (h : m.Sound) (hrun : Relation.ReflTransGen Quiet m m') : m'.Sound := by
  induction hrun with
  | refl => exact h
  | tail _ hquiet ih =>
    obtain hgo | hback := hquiet
    · exact ih.step .go trivial hgo
    · exact ih.step .back trivial hback

/-- In every run whose calls spare the records that are still to be consulted no removed record
is consulted. A call that does not spare them has one consulted as soon as the callbacks have
returned. -/
theorem deleted_not_dispatched (h : m.Run Spares) :
    (∀ p, m.point ≠ .wild p) ∧
      ∀ (input : Input φ δ) (m' : Machine φ δ), m.step input = some m' →
        (m.Spares input ↔
          ∀ after, Relation.ReflTransGen Quiet m' after → ∀ p, after.point ≠ .wild p) := by
  refine ⟨h.sound.tame, fun input m' hstep => ⟨fun hspares after hrun => ?_, fun htame => ?_⟩⟩
  · exact ((h.sound.step input hspares hstep).quiet hrun).tame
  · cases input with
    | call c out =>
      intro p hout hp
      simp only [Machine.step, Option.ite_none_right_eq_some, Option.some.injEq] at hstep
      obtain ⟨-, rfl⟩ := hstep
      have hdead : ¬ (c.code m.loop out).2.Live p := fun hlive =>
        (Request.live_code h.sound.ok (h.sound.pending p hp)).mp hlive hout
      obtain ⟨after, q, hrun, hwild⟩ := goesWild_of_pending
        (m := { m with loop := (c.code m.loop out).2 }) hdead hp
      exact htame after hrun q hwild
    | process | wait | go | stop | back => trivial

/-- A run goes on with an input. -/
theorem Run.goesOn {allowed : Machine φ δ → Input φ δ → Prop} (h : Run allowed m)
    (input : Input φ δ) (hallowed : allowed m input) (hstep : m.step input = some m') :
    Run allowed m' := .step h hallowed hstep

theorem step_go {point : Point φ δ} (hgo : m.go = some point) :
    m.step .go = some ⟨m.loop, point⟩ := by
  rw [step, hgo]
  rfl

/-- A batch is taken. -/
theorem step_wait (hstop : loop.stop = false) (ready : List (Int × UInt32)) :
    step ⟨loop, .test⟩ (.wait (some ready)) =
      some (⟨loop, .entries (epollWait loop.interest ready)⟩ : Machine φ δ) := by
  simp [step, wait, hstop]

/-- The callback for input deletes its own descriptor, which is not ready for output. -/
theorem deleted_not_dispatched_input :
    let added : EventLoop Unit Unit :=
      (eventAdd eventLoopNew 5 EVENT_IN (some ()) none ⟨true, true⟩).2
    let deleted := (eventDelete added 5 EVENT_IN ⟨true, true⟩).2
    deleted.events 5 = none ∧
      ∀ p, (⟨deleted, .half ⟨EPOLLIN, 0⟩ []⟩ : Machine Unit Unit).point ≠ .wild p := by
  intro added deleted
  have hadd : Run Spares (⟨added, .away none⟩ : Machine Unit Unit) :=
    Run.start.goesOn (.call (.add 5 EVENT_IN (some ()) none) ⟨true, true⟩)
      (fun _ hout => nomatch hout) rfl
  have hprocess : Run Spares (⟨added, .test⟩ : Machine Unit Unit) :=
    hadd.goesOn .process trivial rfl
  have hwait : Run Spares (⟨added, .entries [⟨EPOLLIN, 0⟩]⟩ : Machine Unit Unit) :=
    hprocess.goesOn (.wait (some [(5, EPOLLIN)])) trivial rfl
  have hrecv : Run Spares
      (⟨added, .recv ⟨(), 5, none⟩ ⟨EPOLLIN, 0⟩ []⟩ : Machine Unit Unit) :=
    hwait.goesOn .go trivial rfl
  have hdelete : Run Spares
      (⟨deleted, .recv ⟨(), 5, none⟩ ⟨EPOLLIN, 0⟩ []⟩ : Machine Unit Unit) :=
    hrecv.goesOn (.call (.delete 5 EVENT_IN) ⟨true, true⟩) (fun _ _ => nofun) rfl
  have hback : Run Spares (⟨deleted, .half ⟨EPOLLIN, 0⟩ []⟩ : Machine Unit Unit) :=
    hdelete.goesOn .back trivial rfl
  exact ⟨by decide, (deleted_not_dispatched hback).1⟩

/-- A descriptor is ready for both, and its callback for input deletes it: the second half of
`handle_event` consults the removed record. -/
theorem removed_is_dispatched :
    ∃ m : Machine Unit Unit, m.Run (fun _ _ => True) ∧ ∃ p, m.point = .wild p := by
  let both := EVENT_IN ||| EVENT_OUT
  let ready := EPOLLIN ||| EPOLLOUT
  let added : EventLoop Unit Unit := (eventAdd eventLoopNew 5 both (some ()) none ⟨true, true⟩).2
  let deleted := (eventDelete added 5 both ⟨true, true⟩).2
  have hadd : Run (fun _ _ => True) (⟨added, .away none⟩ : Machine Unit Unit) :=
    Run.start.goesOn (.call (.add 5 both (some ()) none) ⟨true, true⟩) trivial rfl
  have hprocess : Run (fun _ _ => True) (⟨added, .test⟩ : Machine Unit Unit) :=
    hadd.goesOn .process trivial rfl
  have hbatch : epollWait added.interest [(5, ready)] = [⟨ready, 0⟩] := by decide
  have hwait : Run (fun _ _ => True) (⟨added, .entries [⟨ready, 0⟩]⟩ : Machine Unit Unit) :=
    hbatch ▸ hprocess.step trivial (step_wait (by decide) [(5, ready)])
  have hrecv : Run (fun _ _ => True)
      (⟨added, .recv ⟨(), 5, none⟩ ⟨ready, 0⟩ []⟩ : Machine Unit Unit) :=
    hwait.step trivial (step_go (by decide))
  have hdelete : Run (fun _ _ => True)
      (⟨deleted, .recv ⟨(), 5, none⟩ ⟨ready, 0⟩ []⟩ : Machine Unit Unit) :=
    hrecv.goesOn (.call (.delete 5 both) ⟨true, true⟩) trivial rfl
  have hback : Run (fun _ _ => True) (⟨deleted, .half ⟨ready, 0⟩ []⟩ : Machine Unit Unit) :=
    hdelete.goesOn .back trivial rfl
  have hwild : Run (fun _ _ => True) (⟨deleted, .wild 0⟩ : Machine Unit Unit) :=
    hback.step trivial (step_go (by decide))
  exact ⟨_, hwild, 0, rfl⟩

end Machine

end Yamux.Epoll
