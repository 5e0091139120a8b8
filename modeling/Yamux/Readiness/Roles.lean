import Yamux.Core.Threads
import Yamux.Readiness.Calls
import Yamux.Native.Changes

/-!
# The threads that share a stream

A reader, a writer and the receive thread work on one stream. Each of them has one half
of the marks to get right, and moves the data one way only. What a thread guarantees is
what the others rely on, as long as no section flips a mark for a state that has changed
since. Triples about one stream are stated in these terms.
-/

namespace Yamux

open Core Prog

/-! ## The threads -/

/-- The threads that work on a stream. -/
inductive Role where
  | reader
  | writer
  | receiver
  deriving DecidableEq, Repr

/-- The calls that a thread makes. The receive thread also feeds the input that it
processes. -/
def Role.may (id : UInt32) : Role → Api → Prop
  | .reader, .read i size => i = id ∧ 0 < size
  | .writer, .write i _ => i = id
  | .receiver, .process => True
  | .receiver, .recvBufWrite _ => True
  | _, _ => False

/-- The section that flips a mark finds the stream as the mark will say. -/
structure Stream.Timely (st st' : Stream) : Prop where
  setReadable : st.readable = false → st'.readable = true → st.recvBuf ≠ []
  clearReadable : st.readable = true → st'.readable = false → st.recvBuf = []
  setWriteable : st.writeable = false → st'.writeable = true → st.sendWindow ≠ 0
  clearWriteable : st.writeable = true → st'.writeable = false → st.sendWindow = 0

/-- A step of a session that is timely for one stream. -/
def Timely (id : UInt32) (s t : Session) : Prop :=
  ∀ st st', s.streams id = some st → t.streams id = some st' → st.Timely st'

/-- Only the writer lowers the window: no credit overflows it. -/
def CreditFits (id : UInt32) (i : Role) (s t : Session) : Prop :=
  i ≠ .writer → ∀ st st', s.streams id = some st → t.streams id = some st' →
    st.sendWindow.toNat ≤ st'.sendWindow.toNat

/-- The pools that runs lead to from a new stream. Every step meets `flip`. -/
inductive SharedRun (flip : Session → Session → Prop) (id : UInt32) :
    Pool Call Mutex Session Api Role → Prop where
  | start {s : Session} {state : StreamState} {padding : UInt32}
      (h : s.streams id = some (Stream.fresh state padding)) : SharedRun flip id (.start s)
  | step {P Q : Pool Call Mutex Session Api Role} {i : Role} (h : SharedRun flip id P)
      (hs : Pool.Step Api.code (Role.may id) socketsOk i P Q)
      (hcredit : CreditFits id i P.state Q.state) (hflip : flip P.state Q.state) :
      SharedRun flip id Q

/-! ## What each thread relies on -/

/-- What is said of the mark that the session is leaving, and of a stream. -/
abbrev Assertion := Bool → Stream → Prop

/-- Readers of what is there have been notified. -/
def ReadNotified : Assertion :=
  fun leaving st => leaving = true ∨ (st.recvBuf ≠ [] → st.readable = true)

/-- Writers of what fits have been notified. -/
def WriteNotified : Assertion :=
  fun leaving st => leaving = true ∨ (st.sendWindow ≠ 0 → st.writeable = true)

/-- Readers of nothing are waiting. -/
def ReadWaiting : Assertion :=
  fun leaving st => leaving = true ∨ (st.readable = true → st.recvBuf ≠ [])

/-- Writers into nothing are waiting. -/
def WriteWaiting : Assertion :=
  fun leaving st => leaving = true ∨ (st.writeable = true → st.sendWindow ≠ 0)

/-- The half of the marks that a thread has right between its calls. -/
def Role.Idle : Role → Assertion
  | .reader => ReadWaiting
  | .writer => WriteWaiting
  | .receiver => fun b st => ReadNotified b st ∧ WriteNotified b st

/-- What a thread relies on: the others leave its half alone, and only the writer lowers
the window. -/
def Role.Rely (i : Role) (b : Bool) (st : Stream) (b' : Bool) (st' : Stream) : Prop :=
  (b = true → b' = true) ∧
    match i with
    | .reader => ReadWaiting b st → ReadWaiting b' st'
    | .writer => (WriteWaiting b st → WriteWaiting b' st') ∧
        st.sendWindow.toNat ≤ st'.sendWindow.toNat
    | .receiver => (ReadNotified b st → ReadNotified b' st') ∧
        (WriteNotified b st → WriteNotified b' st')

/-- What a thread guarantees: it moves the data its own way only. -/
def Role.Guar (i : Role) (b : Bool) (st : Stream) (b' : Bool) (st' : Stream) : Prop :=
  (b = true → b' = true) ∧
    match i with
    | .reader => (st'.recvBuf ≠ [] → st.recvBuf ≠ []) ∧ st'.sendWindow = st.sendWindow ∧
        st'.writeable = st.writeable
    | .writer => (st'.sendWindow ≠ 0 → st.sendWindow ≠ 0) ∧ st'.recvBuf = st.recvBuf ∧
        st'.readable = st.readable
    | .receiver => st.recvBuf ≠ [] → st'.recvBuf ≠ []

/-- A step that leaves the stream alone. -/
theorem Role.Rely.leave (i : Role) {b b' : Bool} (hb : b = true → b' = true) (st : Stream) :
    i.Rely b st b' st := by
  cases i with
  | reader => exact ⟨hb, Or.imp_left hb⟩
  | writer => exact ⟨hb, Or.imp_left hb, Nat.le_refl _⟩
  | receiver => exact ⟨hb, Or.imp_left hb, Or.imp_left hb⟩

theorem Role.Rely.trans {i : Role} {b b' b'' : Bool} {st st' st'' : Stream}
    (h : i.Rely b st b' st') (h' : i.Rely b' st' b'' st'') : i.Rely b st b'' st'' := by
  refine ⟨fun hb => h'.1 (h.1 hb), ?_⟩
  cases i with
  | reader => exact fun hw => h'.2 (h.2 hw)
  | writer => exact ⟨fun hw => h'.2.1 (h.2.1 hw), h.2.2.trans h'.2.2⟩
  | receiver => exact ⟨fun hr => h'.2.1 (h.2.1 hr), fun hw => h'.2.2 (h.2.2 hw)⟩

/-- A step that leaves the stream alone. -/
theorem Role.Guar.leave (i : Role) {b b' : Bool} (hb : b = true → b' = true) (st : Stream) :
    i.Guar b st b' st := by
  cases i with
  | reader | writer => exact ⟨hb, id, rfl, rfl⟩
  | receiver => exact ⟨hb, id⟩

/-- A mark that is set wherever there is something stays so, if there is no more than
there was and the mark goes only when there is nothing. -/
theorem notified_kept {b b' m m' : Bool} {d d' : Prop} (hb : b = true → b' = true) (hd : d' → d)
    (hm : m = true → m' = false → ¬ d) (h : b = true ∨ (d → m = true)) :
    b' = true ∨ (d' → m' = true) := by
  refine h.imp hb fun hset hd' => ?_
  cases hm' : m' with
  | true => rfl
  | false => exact absurd (hd hd') (hm (hset (hd hd')) hm')

/-- A mark that is set only where there is something stays so, if there is no less than
there was and the mark comes only when there is something. -/
theorem waiting_kept {b b' m m' : Bool} {d d' : Prop} (hb : b = true → b' = true) (hd : d → d')
    (hm : m = false → m' = true → d) (h : b = true ∨ (m = true → d)) :
    b' = true ∨ (m' = true → d') := by
  refine h.imp hb fun hset hm' => ?_
  cases hm₀ : m with
  | true => exact hd (hset hm₀)
  | false => exact hd (hm hm₀ hm')

/-- What a thread does to a stream without the others noticing, or itself. -/
def Role.Quiet (i : Role) (b : Bool) (st : Stream) (b' : Bool) (st' : Stream) : Prop :=
  i.Guar b st b' st' ∧ i.Rely b st b' st'

theorem Role.Quiet.leave (i : Role) {b b' : Bool} (hb : b = true → b' = true) (st : Stream) :
    i.Quiet b st b' st :=
  ⟨.leave i hb st, .leave i hb st⟩

/-- The data and the marks are as they were. -/
structure Stream.Alike (st st' : Stream) : Prop where
  recvBuf : st'.recvBuf = st.recvBuf
  sendWindow : st'.sendWindow = st.sendWindow
  readable : st'.readable = st.readable
  writeable : st'.writeable = st.writeable

theorem Stream.sendFlags_alike (st : Stream) : st.Alike st.sendFlags.2 := by
  obtain ⟨state, hflags⟩ := st.sendFlags_state
  rw [hflags]
  exact ⟨rfl, rfl, rfl, rfl⟩

theorem Stream.WindowUpdated.alike {st st' : Stream} (h : st.WindowUpdated st') : st.Alike st' := by
  cases h with
  | flags => exact st.sendFlags_alike
  | grant flags =>
    obtain ⟨window, hgrant⟩ := st.grant_window flags
    rw [hgrant]
    exact ⟨rfl, rfl, rfl, rfl⟩

theorem Stream.Alike.quiet {st st' : Stream} (h : st.Alike st') (i : Role) (b : Bool) :
    i.Quiet b st b st' := by
  have hsame := Role.Quiet.leave i (fun hb : b = true => hb) st
  unfold Role.Quiet Role.Guar Role.Rely at *
  cases i with
  | reader | writer | receiver =>
    simpa only [ReadWaiting, WriteWaiting, ReadNotified, WriteNotified, h.recvBuf, h.sendWindow,
      h.readable, h.writeable] using hsame

/-- What a thread guarantees is what another one relies on, if the step is timely. -/
theorem Role.Guar.rely {i j : Role} (hij : i ≠ j) {b b' : Bool} {st st' : Stream}
    (h : i.Guar b st b' st') (ht : st.Timely st')
    (hcredit : i ≠ .writer → st.sendWindow.toNat ≤ st'.sendWindow.toNat) :
    j.Rely b st b' st' := by
  obtain ⟨hb, h⟩ := h
  refine ⟨hb, ?_⟩
  have unread (hm : st.readable = true) (hm' : st'.readable = false) : ¬ st.recvBuf ≠ [] :=
    fun hd => hd (ht.clearReadable hm hm')
  have unwrite (hm : st.writeable = true) (hm' : st'.writeable = false) : ¬ st.sendWindow ≠ 0 :=
    fun hd => hd (ht.clearWriteable hm hm')
  have more (hi : i ≠ .writer) (hd : st.sendWindow ≠ 0) : st'.sendWindow ≠ 0 := by
    have hle := hcredit hi
    intro h0
    rw [h0] at hle
    exact hd (UInt32.toNat_inj.mp (Nat.le_zero.mp hle))
  cases i with
  | reader =>
    obtain ⟨hdata, hwindow, hmark⟩ := h
    cases j with
    | reader => exact absurd rfl hij
    | writer =>
      refine ⟨fun hw => ?_, hwindow ▸ Nat.le_refl _⟩
      rw [WriteWaiting, hmark, hwindow]
      exact hw.imp_left hb
    | receiver =>
      refine ⟨notified_kept hb hdata unread, fun hw => ?_⟩
      rw [WriteNotified, hmark, hwindow]
      exact hw.imp_left hb
  | writer =>
    obtain ⟨hdata, hbuf, hmark⟩ := h
    cases j with
    | reader =>
      intro hr
      rw [ReadWaiting, hmark, hbuf]
      exact hr.imp_left hb
    | writer => exact absurd rfl hij
    | receiver =>
      refine ⟨fun hr => ?_, notified_kept hb hdata unwrite⟩
      rw [ReadNotified, hmark, hbuf]
      exact hr.imp_left hb
  | receiver =>
    cases j with
    | reader => exact waiting_kept hb h ht.setReadable
    | writer =>
      exact ⟨waiting_kept hb (more (by decide)) ht.setWriteable, hcredit (by decide)⟩
    | receiver => exact absurd rfl hij

/-! ## Triples about one stream -/

/-- A stream stays, and it and the go-away mark change within `R`. -/
def Moves (id : UInt32) (R : Bool → Stream → Bool → Stream → Prop) (s t : Session) : Prop :=
  ∀ st, s.streams id = some st →
    ∃ st', t.streams id = some st' ∧ R s.localGoAway st t.localGoAway st'

/-- The stream is there, and it and the go-away mark satisfy `P`. -/
def Session.Has (s : Session) (id : UInt32) (P : Assertion) : Prop :=
  ∃ st, s.streams id = some st ∧ P s.localGoAway st

/-- What surrounds a thread. -/
def Role.env (id : UInt32) (i : Role) : Env Call Session where
  answers := socketsOk
  rely := Moves id i.Rely
  guar := Moves id i.Guar
  rely_refl s st hst := ⟨st, hst, .leave i (fun hb => hb) st⟩
  rely_trans h h' st hst := by
    obtain ⟨st', hst', hr⟩ := h st hst
    obtain ⟨st'', hst'', hr'⟩ := h' st' hst'
    exact ⟨st'', hst'', hr.trans hr'⟩

/-- The others of a thread keep the assertion. -/
def Assertion.Stable (P : Assertion) (i : Role) : Prop :=
  ∀ b st b' st', P b st → i.Rely b st b' st' → P b' st'

/-- Thread `i` at work on a stream: from `P` it keeps its promises and returns in `Q`. -/
def Role.Works {α : Type} (id : UInt32) (i : Role) (P : Assertion) (p : Op α)
    (Q : α → Assertion) : Prop :=
  (i.env id).Triple (fun s => s.Has id i.Idle) (fun s => s.Has id P) p fun a t => t.Has id (Q a)

section Works

variable {α β : Type} {id : UInt32} {i : Role} {P P' : Assertion} {Q : α → Assertion}

namespace Assertion.Stable

theorem has (h : P.Stable i) : (i.env id).Stable fun s => s.Has id P := by
  rintro s t ⟨st, hst, hP⟩ hr
  obtain ⟨st', hst', hrely⟩ := hr st hst
  exact ⟨st', hst', h _ _ _ _ hP hrely⟩

theorem and (h : P.Stable i) (h' : P'.Stable i) : Assertion.Stable (fun b st => P b st ∧ P' b st) i :=
  fun b st b' st' hP hr => ⟨h b st b' st' hP.1 hr, h' b st b' st' hP.2 hr⟩

/-- Under a condition on values that the thread has read. -/
theorem imp (h : P.Stable i) (c : Prop) : Assertion.Stable (fun b st => c → P b st) i :=
  fun b st b' st' hP hr hc => h b st b' st' (hP hc) hr

theorem leaving (i : Role) : Assertion.Stable (fun b _ => b = true) i :=
  fun _ _ _ _ hb hr => hr.1 hb

theorem idle (i : Role) : i.Idle.Stable i := by
  intro b st b' st' h hr
  cases i with
  | reader => exact hr.2 h
  | writer => exact hr.2.1 h
  | receiver => exact ⟨hr.2.1 h.1, hr.2.2 h.2⟩

end Assertion.Stable

/-- A session that is leaving has nothing to get right. -/
theorem Role.Idle.leaving {b : Bool} (i : Role) (st : Stream) (hb : b = true) : i.Idle b st := by
  cases i with
  | reader | writer => exact .inl hb
  | receiver => exact ⟨.inl hb, .inl hb⟩

theorem Session.Has.mono {s : Session} (h : s.Has id P) (hP : ∀ b st, P b st → P' b st) :
    s.Has id P' := by
  obtain ⟨st, hst, hp⟩ := h
  exact ⟨st, hst, hP _ _ hp⟩

namespace Role.Works

theorem pre {p : Op α} (h : i.Works id P p Q) (hP : ∀ b st, P' b st → P b st) :
    i.Works id P' p Q :=
  Env.Triple.mono h (fun _ hs => hs.mono hP) fun _ _ hs => hs

theorem post {Q' : α → Assertion} {p : Op α} (h : i.Works id P p Q)
    (hQ : ∀ a b st, Q a b st → Q' a b st) : i.Works id P p Q' :=
  Env.Triple.mono h (fun _ hs => hs) fun a _ hs => hs.mono (hQ a)

theorem bind {p : Op α} {g : α → Op β} {R : β → Assertion} (hp : i.Works id P p Q)
    (hg : ∀ a, i.Works id (Q a) (g a) R) : i.Works id P (p >>= g) R :=
  Env.Triple.bind hp hg

theorem pure {a : α} (hP : P.Stable i) (h : ∀ b st, P b st → Q a b st) :
    i.Works id P (Pure.pure a) Q :=
  Env.Triple.pure hP.has fun _ hs => hs.mono h

theorem query_bind {c : Call} {g : Bool → Op β} {R : β → Assertion}
    (h : ∀ answer, socketsOk c answer → i.Works id P (g answer) R) :
    i.Works id P (Prog.query c >>= g) R :=
  Env.Triple.query_bind h

/-- A section on the stream leads from one assertion to another. -/
theorem onStream {ms : List Mutex} {g : Stream → α × Stream} (hP : P.Stable i)
    (hQ : ∀ a, (Q a).Stable i)
    (h : ∀ b st, P b st → i.Guar b st b (g st).2 ∧ Q (g st).1 b (g st).2) :
    i.Works id P (Yamux.onStream ms id g) Q := by
  intro s hs t ht
  obtain ⟨st, hst, hp⟩ := hP.has s t hs ht
  obtain ⟨hguar, hpost⟩ := h _ _ hp
  dsimp only
  rw [hst]
  refine ⟨fun st₁ h₁ => ?_, fun u hu => ?_⟩
  · obtain rfl := Option.some.inj (hst.symm.trans h₁)
    exact ⟨_, t.setStream_same id _, hguar⟩
  · have hnow : (t.setStream id (g st).2).Has id (Q (g st).1) :=
      ⟨_, t.setStream_same id _, hpost⟩
    exact (hQ _).has _ u hnow hu

theorem readStream {ms : List Mutex} {g : Stream → α} (hP : P.Stable i)
    (hQ : ∀ a, (Q a).Stable i) (h : ∀ b st, P b st → Q (g st) b st) :
    i.Works id P (Yamux.readStream ms id g) Q :=
  onStream hP hQ fun b st hp => ⟨.leave i (fun hb => hb) st, h b st hp⟩

/-- Actions that the others might do as well keep every assertion. -/
theorem acts {p : Op α} (hp : Acts socketsOk (Moves id i.Quiet) p) (hP : P.Stable i)
    (hI : ∀ b st, P b st → i.Idle b st) : i.Works id P p fun _ => P := by
  refine Env.Triple.acts hp hP.has (fun _ hs => hs.mono hI) fun s t hs hst => ⟨fun st hs => ?_, ?_⟩
  · obtain ⟨st', ht, hq⟩ := hst st hs
    exact ⟨st', ht, hq.1⟩
  · obtain ⟨st, hs, hp⟩ := hs
    obtain ⟨st', ht, hq⟩ := hst st hs
    exact ⟨st', ht, hP _ _ _ _ hp hq.2⟩

end Role.Works

end Works

/-! ## Quiet actions -/

section Quiet

variable {α : Type} {ok : Call → Bool → Prop} {id j : UInt32} {i : Role} {s t : Session}

/-- A step that leaves the streams alone. -/
theorem Moves.of_streams (h : t.streams = s.streams)
    (hb : s.localGoAway = true → t.localGoAway = true) : Moves id i.Quiet s t :=
  fun st hst => ⟨st, h ▸ hst, .leave i hb st⟩

/-- A step on behalf of a stream: of this one, or of another one. -/
theorem Touches.moves {N : Stream → Stream → Prop} (h : Touches j N s t)
    (hN : j = id → ∀ b st st', N st st' → i.Quiet b st b st') : Moves id i.Quiet s t := by
  cases h with
  | none | send => exact .of_streams rfl fun hb => hb
  | leave => exact .of_streams rfl fun _ => rfl
  | @stream st st' hst h =>
    intro st₁ h₁
    by_cases hj : j = id
    · subst hj
      obtain rfl := Option.some.inj (hst.symm.trans h₁)
      exact ⟨st', s.setStream_same j st', hN rfl _ _ _ h⟩
    · exact ⟨st₁, (s.setStream_of_ne j st' (Ne.symm hj)).trans h₁, .leave i (fun hb => hb) st₁⟩

theorem Pays.moves {N : Stream → Stream → Prop} (h : Pays j N s t)
    (hN : j = id → ∀ b st st', N st st' → i.Quiet b st b st') : Moves id i.Quiet s t := by
  cases h with
  | touch h => exact h.moves hN
  | input => exact .of_streams rfl fun hb => hb

theorem moves_touches {N : Stream → Stream → Prop} {p : Op α} (hp : Acts ok (Touches j N) p)
    (hN : j = id → ∀ b st st', N st st' → i.Quiet b st b st') : Acts ok (Moves id i.Quiet) p :=
  hp.mono fun _ _ h => h.moves hN

theorem moves_beside {p : Op α} (hp : Acts ok Beside p) : Acts ok (Moves id i.Quiet) p :=
  hp.mono fun _ _ h => .of_streams h.streams h.leaving

end Quiet

end Yamux
