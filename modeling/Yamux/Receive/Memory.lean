import Yamux.Core.Threads
import Yamux.Native.Beside
import Yamux.Receive.Quiet
import Yamux.Sequential.Window

/-!
# Memory on the receive side

The receive thread checks the window of a stream once, at the header of a frame, and
takes the slices of the payload off the window one by one, while readers drain the
buffer and grant new credit. Whatever the peer sends and however the threads interleave,
the buffer of a stream and its window fit the capacity, and what is left of a frame fits
the window, up to the slice that is being moved.
-/

namespace Yamux

open Core Prog

/-! ## The threads -/

/-- The receive thread and the threads of the application. -/
inductive Worker where
  | receiver
  | application (n : Nat)
  deriving DecidableEq, Repr

/-- The receive thread feeds the input and processes it; the application makes the other
calls, on streams that are there already. -/
def Worker.may : Worker → Api → Prop
  | .receiver, .process => True
  | .receiver, .recvBufWrite _ => True
  | .application _, .process => False
  | .application _, .openStream _ => False
  | .application _, _ => True
  | _, _ => False

/-! ## What is kept -/

/-- Every stream keeps its buffer and its window within the capacity. -/
def Session.Bounded (s : Session) : Prop := ∀ id st, s.streams id = some st → st.Bounded

/-- What is left of the frame in progress fits the window of its stream, up to a slack. -/
def Session.InFrame (slack : Nat) (s : Session) : Prop :=
  s.newFrame = false → ∀ st, s.streams (hdrStreamId s.hdr) = some st →
    s.frameRemain.toNat ≤ st.recvWindow.toNat + slack

theorem Session.InFrame.mono {k m : Nat} {s : Session} (h : s.InFrame k) (hkm : k ≤ m) :
    s.InFrame m :=
  fun hf st hst => (h hf st hst).trans (by omega)

/-- Between two frames nothing is left. -/
theorem Session.InFrame.between {s : Session} (h : s.newFrame = true) (k : Nat) :
    s.InFrame k := by
  intro hf
  rw [h] at hf
  cases hf

/-- What the application does: it takes bytes out of buffers and widens windows. -/
structure Frees (s t : Session) : Prop where
  frame : SameFrame s t
  streams : ∀ id st', t.streams id = some st' → ∃ st, s.streams id = some st ∧
    st.recvWindow.toNat ≤ st'.recvWindow.toNat ∧ st'.recvBuf.length ≤ st.recvBuf.length
  bounded : s.Bounded → t.Bounded

theorem Frees.refl (s : Session) : Frees s s :=
  ⟨⟨rfl, rfl, rfl⟩, fun _ st h => ⟨st, h, le_rfl, le_rfl⟩, id⟩

theorem Frees.trans {s t u : Session} (h : Frees s t) (h' : Frees t u) : Frees s u := by
  refine ⟨h.frame.trans h'.frame, fun id st₂ h₂ => ?_, fun hb => h'.bounded (h.bounded hb)⟩
  obtain ⟨st₁, h₁, hw₁, hl₁⟩ := h'.streams id st₂ h₂
  obtain ⟨st, h₀, hw, hl⟩ := h.streams id st₁ h₁
  exact ⟨st, h₀, hw.trans hw₁, hl₁.trans hl⟩

/-- What the receive thread does: it moves bytes from windows into buffers, and what it
makes of a frame fits. -/
structure Receives (s t : Session) : Prop where
  bounded : t.Bounded
  inFrame : t.InFrame sliceSize
  frame : SameFrame s t ∨ t.newFrame = true ∨ t.InFrame 0
  streams : ∀ id st', t.streams id = some st' →
    (s.streams id = none ∧ t.newFrame = true) ∨
    ∃ st, s.streams id = some st ∧ st.recvBuf.length ≤ st'.recvBuf.length ∧
      st'.recvWindow.toNat + st'.recvBuf.length = st.recvWindow.toNat + st.recvBuf.length

/-- The windows, the buffers and the frame are as they were. -/
structure Still (s t : Session) : Prop where
  frame : SameFrame s t
  streams : ∀ id st', t.streams id = some st' → ∃ st, s.streams id = some st ∧
    st'.recvWindow = st.recvWindow ∧ st'.recvBuf = st.recvBuf

theorem Still.refl (s : Session) : Still s s :=
  ⟨⟨rfl, rfl, rfl⟩, fun _ st h => ⟨st, h, rfl, rfl⟩⟩

theorem Still.frees {s t : Session} (h : Still s t) : Frees s t := by
  refine ⟨h.frame, fun id st' hst' => ?_, fun hb id st' hst' => ?_⟩
  · obtain ⟨st, hst, hw, hl⟩ := h.streams id st' hst'
    exact ⟨st, hst, hw ▸ le_rfl, hl ▸ le_rfl⟩
  · obtain ⟨st, hst, hw, hl⟩ := h.streams id st' hst'
    have hfit := hb id st hst
    unfold Stream.Bounded at *
    rwa [hw, hl]

theorem Session.InFrame.frees {k : Nat} {s t : Session} (h : s.InFrame k) (hf : Frees s t) :
    t.InFrame k := by
  intro hnew st' hst'
  rw [hf.frame.hdr] at hst'
  obtain ⟨st, hst, hw, -⟩ := hf.streams _ st' hst'
  have hle := h (hf.frame.newFrame ▸ hnew) st hst
  rw [hf.frame.frameRemain]
  omega

theorem Still.receives {s t : Session} (h : Still s t) (hb : s.Bounded)
    (hs : s.InFrame sliceSize) : Receives s t := by
  refine ⟨h.frees.bounded hb, hs.frees h.frees, .inl h.frame, fun id st' hst' => .inr ?_⟩
  obtain ⟨st, hst, hw, hl⟩ := h.streams id st' hst'
  exact ⟨st, hst, hl ▸ le_rfl, by rw [hw, hl]⟩

/-- What surrounds a thread. -/
def Worker.env : Worker → Env Call Session
  | .receiver =>
    { answers := socketsOk
      rely := Frees
      guar := Receives
      rely_refl := .refl
      rely_trans := .trans }
  | .application _ =>
    { answers := socketsOk
      rely := fun s t => s.Bounded → t.Bounded
      guar := Frees
      rely_refl := fun _ h => h
      rely_trans := fun h h' hb => h' (h hb) }

/-! ## Still actions -/

section Still

variable {α : Type} {ok : Call → Bool → Prop} {id : UInt32}

theorem Beside.still {s t : Session} (h : Beside s t) : Still s t :=
  ⟨⟨h.newFrame, h.frameRemain, h.hdr⟩, fun _ st hst => ⟨st, h.streams ▸ hst, rfl, rfl⟩⟩

theorem Still.setStream {s : Session} {st st' : Stream} (hst : s.streams id = some st)
    (hw : st'.recvWindow = st.recvWindow) (hb : st'.recvBuf = st.recvBuf) :
    Still s (s.setStream id st') := by
  refine ⟨⟨rfl, rfl, rfl⟩, fun i st₁ h₁ => ?_⟩
  rw [Session.setStream_streams] at h₁
  split at h₁
  · rename_i hi
    obtain rfl := Option.some.inj h₁
    exact ⟨st, hi ▸ hst, hw, hb⟩
  · exact ⟨st₁, h₁, rfl, rfl⟩

theorem Touches.still {N : Stream → Stream → Prop} {s t : Session} (h : Touches id N s t)
    (hN : ∀ st st' : Stream, N st st' →
      st'.recvWindow = st.recvWindow ∧ st'.recvBuf = st.recvBuf) : Still s t := by
  cases h with
  | none => exact .refl s
  | send | leave => exact ⟨⟨rfl, rfl, rfl⟩, fun _ st hst => ⟨st, hst, rfl, rfl⟩⟩
  | stream hst h => exact .setStream hst (hN _ _ h).1 (hN _ _ h).2

theorem still_beside {p : Op α} (h : Acts ok Beside p) : Acts ok Still p :=
  h.mono fun _ _ => Beside.still

theorem still_notified {p : Op α} (h : Acts ok (Touches id Stream.Notified) p) :
    Acts ok Still p := by
  refine h.mono fun _ _ ht => ht.still fun st st' hn => ?_
  cases hn <;> exact ⟨rfl, rfl⟩

theorem Stream.WrittenBy.still {st st' : Stream} (h : st.WrittenBy st') :
    st'.recvWindow = st.recvWindow ∧ st'.recvBuf = st.recvBuf := by
  cases h with
  | flags => exact ⟨st.sendFlags_recvWindow, st.sendFlags_recvBuf⟩
  | debit | waiting => exact ⟨rfl, rfl⟩

theorem still_queues {p : Op α} (h : Acts ok (Queues id Stream.WrittenBy) p) :
    Acts ok Still p := by
  refine h.mono fun _ _ hq => ?_
  cases hq with
  | touch h => exact h.still fun _ _ => Stream.WrittenBy.still
  | data => exact ⟨⟨rfl, rfl, rfl⟩, fun _ st hst => ⟨st, hst, rfl, rfl⟩⟩

end Still

/-! ## The application -/

section Application

variable {id : UInt32}

theorem Stream.WindowUpdated.frees {st st' : Stream} (h : st.WindowUpdated st') (hb : st.Bounded) :
    st'.Bounded ∧ st.recvWindow.toNat ≤ st'.recvWindow.toNat ∧
      st'.recvBuf.length ≤ st.recvBuf.length := by
  cases h with
  | flags =>
    unfold Stream.Bounded
    rw [st.sendFlags_recvWindow, st.sendFlags_recvBuf]
    exact ⟨hb, le_rfl, le_rfl⟩
  | grant flags =>
    obtain ⟨hgrant, -⟩ | ⟨window, hgrant, hwindow⟩ := Stream.grant_cases hb flags
    · rw [hgrant]
      exact ⟨hb, le_rfl, le_rfl⟩
    · rw [hgrant]
      unfold Stream.Bounded Stream.gap at *
      dsimp only
      omega

theorem Stream.ReadBy.frees {st st' : Stream} (h : st.ReadBy st') (hb : st.Bounded) :
    st'.Bounded ∧ st.recvWindow.toNat ≤ st'.recvWindow.toNat ∧
      st'.recvBuf.length ≤ st.recvBuf.length := by
  cases h with
  | take size =>
    have hle : (st.recvBuf.drop size).length ≤ st.recvBuf.length := by
      rw [List.length_drop]
      omega
    exact ⟨(Nat.add_le_add_right hle _).trans hb, le_rfl, hle⟩
  | waiting => exact ⟨hb, le_rfl, le_rfl⟩
  | update h => exact h.frees hb

theorem Touches.frees {N : Stream → Stream → Prop} {s t : Session} (h : Touches id N s t)
    (hb : s.Bounded) (hN : ∀ st st' : Stream, N st st' → st.Bounded →
      st'.Bounded ∧ st.recvWindow.toNat ≤ st'.recvWindow.toNat ∧
        st'.recvBuf.length ≤ st.recvBuf.length) : Frees s t := by
  cases h with
  | none => exact .refl s
  | send | leave => exact ⟨⟨rfl, rfl, rfl⟩, fun _ st hst => ⟨st, hst, le_rfl, le_rfl⟩, fun h => h⟩
  | @stream st st₁ hst h =>
    obtain ⟨hfit, hw, hl⟩ := hN _ _ h (hb id st hst)
    refine ⟨⟨rfl, rfl, rfl⟩, fun i st' hst' => ?_, fun _ i st' hst' => ?_⟩ <;>
      rw [Session.setStream_streams] at hst' <;> split at hst'
    · rename_i hi
      obtain rfl := Option.some.inj hst'
      exact ⟨st, hi ▸ hst, hw, hl⟩
    · exact ⟨st', hst', le_rfl, le_rfl⟩
    · obtain rfl := Option.some.inj hst'
      exact hfit
    · exact hb i st' hst'

/-- Actions that free room, given the bound. -/
theorem frees_acts {α : Type} {n : Nat} {S : Session → Session → Prop} {p : Op α}
    (hp : Acts socketsOk S p) (hS : ∀ s t, s.Bounded → S s t → Frees s t) :
    (Worker.application n).env.Triple Session.Bounded Session.Bounded p fun _ => Session.Bounded :=
  .acts hp (fun _ _ hb hr => hr hb) (fun _ hb => hb)
    fun s t hb hst => ⟨hS s t hb hst, (hS s t hb hst).bounded hb⟩

theorem frees_sessionAccept (n : Nat) :
    (Worker.application n).env.Triple Session.Bounded Session.Bounded sessionAccept
      fun _ => Session.Bounded := by
  have hacts : Acts socketsOk (fun s t => s.Bounded → Frees s t) sessionAccept := by
    refine changes_sessionAccept (fun s _ => ?_) fun i s t h hb => ?_
    · exact ⟨⟨rfl, rfl, rfl⟩, fun _ st h => ⟨st, h, le_rfl, le_rfl⟩, fun h => h⟩
    · exact h.frees hb fun _ _ hu => hu.frees
  exact frees_acts hacts fun s t hb h => h hb

/-- The application frees room in each of its calls. -/
theorem frees_code {n : Nat} {c : Api} (hmay : (Worker.application n).may c) :
    (Worker.application n).env.Triple Session.Bounded Session.Bounded c.code
      fun _ => Session.Bounded := by
  have forget {α : Type} {p : Op α} (hp : (Worker.application n).env.Triple Session.Bounded
      Session.Bounded p fun _ => Session.Bounded) : (Worker.application n).env.Triple
      Session.Bounded Session.Bounded (forget p) fun _ => Session.Bounded :=
    .bind hp fun _ => .pure (fun _ _ hb hr => hr hb) fun _ hb => hb
  cases c with
  | process | openStream => exact hmay.elim
  | acceptStream => exact forget (frees_sessionAccept n)
  | read id size =>
    exact forget (frees_acts (touches_streamRead size) fun s t hb h =>
      h.frees hb fun _ _ hr => hr.frees)
  | write id data =>
    exact forget (frees_acts (still_queues (queues_streamWrite data)) fun _ _ _ h => h.frees)
  | recvBufWrite | sendBufPending | sendBufPeek | sendBufConsume | goAway =>
    exact frees_acts (still_beside (beside_code trivial)) fun _ _ _ h => h.frees

end Application

/-! ## The receive thread -/

/-- Between its actions the receive thread has the bound, and a slack for the slice that
it is moving. -/
def Session.Fits (slack : Nat) (s : Session) : Prop := s.Bounded ∧ s.InFrame slack

theorem Session.Fits.mono {k m : Nat} {s : Session} (h : s.Fits k) (hkm : k ≤ m) : s.Fits m :=
  ⟨h.1, h.2.mono hkm⟩

/-- The receive thread at work: from `P` it keeps its promises and returns in `Q`. -/
def Receiving {α : Type} (P : Session → Prop) (p : Op α) (Q : α → Session → Prop) : Prop :=
  Worker.receiver.env.Triple (Session.Fits 0) P p Q

/-- The application keeps the assertion. -/
abbrev Settled (P : Session → Prop) : Prop := Worker.receiver.env.Stable P

theorem Session.Fits.settled (k : Nat) : Settled (Session.Fits k) :=
  fun _ _ h hr => ⟨hr.bounded h.1, h.2.frees hr⟩

/-- What is said of the frame in progress alone. -/
theorem settled_frame {P : Bool → UInt32 → Bytes → Prop} :
    Settled fun s => P s.newFrame s.frameRemain s.hdr := by
  intro s t h hr
  rwa [hr.frame.newFrame, hr.frame.frameRemain, hr.frame.hdr]

/-- The application does not add streams. -/
theorem settled_absent (id : UInt32) : Settled fun s => s.streams id = none := by
  intro s t h hr
  cases hst : t.streams id with
  | none => rfl
  | some st' =>
    obtain ⟨st, hst', -⟩ := hr.streams id st' hst
    rw [h] at hst'
    cases hst'

/-- The application does not narrow windows. -/
theorem settled_window (id : UInt32) (n : Nat) :
    Settled fun s => ∀ st, s.streams id = some st → n ≤ st.recvWindow.toNat := by
  intro s t h hr st' hst'
  obtain ⟨st, hst, hw, -⟩ := hr.streams id st' hst'
  exact (h st hst).trans hw

namespace Receiving

variable {α β : Type} {id : UInt32} {P : Session → Prop} {Q : α → Session → Prop}

theorem bind {p : Op α} {g : α → Op β} {R : β → Session → Prop} (hp : Receiving P p Q)
    (hg : ∀ a, Receiving (Q a) (g a) R) : Receiving P (p >>= g) R :=
  Env.Triple.bind hp hg

theorem pre {p : Op α} {P' : Session → Prop} (h : Receiving P p Q) (hP : ∀ s, P' s → P s) :
    Receiving P' p Q :=
  Env.Triple.mono h hP fun _ _ h => h

theorem post {p : Op α} {Q' : α → Session → Prop} (h : Receiving P p Q)
    (hQ : ∀ a s, Q a s → Q' a s) : Receiving P p Q' :=
  Env.Triple.mono h (fun _ h => h) hQ

theorem pure {a : α} (hP : Settled P) (h : ∀ s, P s → Q a s) :
    Receiving P (Pure.pure a : Op α) Q :=
  Env.Triple.pure hP h

theorem given {c : Prop} {p : Op α} (h : c → Receiving P p Q) :
    Receiving (fun s => c ∧ P s) p Q :=
  Env.Triple.given h

theorem query_bind {c : Call} {g : Bool → Op α} (h : ∀ b, socketsOk c b → Receiving P (g b) Q) :
    Receiving P (query c >>= g) Q :=
  Env.Triple.query_bind h

theorem never {p : Op α} (h : ∀ s, ¬ P s) : Receiving P p Q := fun s hs => absurd hs (h s)

/-- An action, given what the thread knows. -/
theorem crit {ms : List Mutex} {g : Session → α × Session} (hP : Settled P)
    (hQ : ∀ a, Settled (Q a)) (h : ∀ s, P s → Receives s (g s).2 ∧ Q (g s).1 (g s).2) :
    Receiving P (Prog.crit ms g) Q :=
  Env.Triple.crit hP hQ h

/-- Looking at the session. -/
theorem read {ms : List Mutex} {g : Session → α} (hP : Settled P) (hQ : ∀ a, Settled (Q a))
    (hfit : ∀ s, P s → s.Fits sliceSize) (h : ∀ s, P s → Q (g s) s) :
    Receiving P (Prog.read ms g) Q :=
  crit hP hQ fun s hs => ⟨(Still.refl s).receives (hfit s hs).1 (hfit s hs).2, h s hs⟩

/-- Work on a stream that is there. -/
theorem onStream {ms : List Mutex} {g : Stream → α × Stream} (hP : Settled P)
    (hQ : ∀ a, Settled (Q a)) (hfit : ∀ s, P s → s.Fits sliceSize)
    (h : ∀ s st, P s → s.streams id = some st → Receives s (s.setStream id (g st).2) ∧
      Q (g st).1 (s.setStream id (g st).2)) :
    Receiving P (Yamux.onStream ms id g) Q := by
  intro s hs t ht
  have hpt := hP s t hs ht
  dsimp only
  cases hst : t.streams id with
  | none =>
    exact ⟨(Still.refl t).receives (hfit t hpt).1 (hfit t hpt).2, fun _ _ => trivial⟩
  | some st =>
    obtain ⟨hguar, hq⟩ := h t st hpt hst
    exact ⟨hguar, fun u hu => hQ _ _ u hq hu⟩

/-- Still actions, at a point where the thread may stop. -/
theorem still {p : Op α} (hp : Acts socketsOk Still p) (hP : Settled P)
    (hfit : ∀ s, P s → s.Fits 0) : Receiving P p fun _ => P := by
  refine Env.Triple.acts hp hP hfit fun s t hs hst => ⟨?_, hP s t hs hst.frees⟩
  have h0 := (hfit s hs).mono (Nat.zero_le sliceSize)
  exact hst.receives h0.1 h0.2

end Receiving

/-! ### Slices -/

/-- The bytes of one node are all written, or none of them. -/
theorem triple_bioWrite {E : Env Call Session} {I P : Session → Prop} (hP : E.Stable P)
    {data : Bytes} (hlen : data.length ≤ sliceSize) :
    E.Triple I P (bioWrite data)
      fun r s => (r = (-1, []) ∨ r = ((data.length : Int), data)) ∧ P s := by
  have hint : toInt32 data.length = data.length := toInt32_eq (by unfold sliceSize at hlen; omega)
  by_cases h0 : data = []
  · subst h0
    exact .pure hP fun s hs => ⟨.inr (by rw [← hint]; rfl), hs⟩
  · rw [bioWrite_node h0 hlen]
    refine .query_bind fun mem _ => .pure hP fun s hs => ?_
    cases mem with
    | true => exact ⟨.inr (by rw [if_pos rfl, hint]), hs⟩
    | false => exact ⟨.inl rfl, hs⟩

/-- The thread is in a payload of the stream `id` with `remain` bytes left, and has the
bound and a slack. -/
structure InPayload (id remain : UInt32) (slack : Nat) (s : Session) : Prop where
  fits : s.Fits slack
  newFrame : s.newFrame = false
  hdr : hdrStreamId s.hdr = id
  frameRemain : s.frameRemain = remain

namespace InPayload

variable {id remain : UInt32} {k : Nat} {s t : Session}

theorem settled (id remain : UInt32) (k : Nat) : Settled (InPayload id remain k) := by
  intro s t h hr
  exact ⟨.settled k s t h.fits hr, hr.frame.newFrame.trans h.newFrame,
    (congrArg hdrStreamId hr.frame.hdr).trans h.hdr, hr.frame.frameRemain.trans h.frameRemain⟩

/-- What is left fits the window of the stream. -/
theorem window (h : InPayload id remain k s) {st : Stream} (hst : s.streams id = some st) :
    remain.toNat ≤ st.recvWindow.toNat + k := by
  rw [← h.frameRemain]
  exact h.fits.2 h.newFrame st (h.hdr ▸ hst)

/-- A still step. -/
theorem still (h : InPayload id remain k s) (hk : k ≤ sliceSize) (hs : Still s t) :
    Receives s t ∧ InPayload id remain k t :=
  ⟨hs.receives h.fits.1 (h.fits.2.mono hk), settled id remain k s t h hs.frees⟩

/-- A slice goes from the window into the buffer. -/
theorem slice (h : InPayload id remain 0 s) {st : Stream} (hst : s.streams id = some st)
    {data : Bytes} (hsize : data.length ≤ sliceSize) (hdata : data.length ≤ remain.toNat)
    {window : UInt32} (hw : window = st.recvWindow - UInt32.ofNat data.length) :
    let st' := { st with recvBuf := st.recvBuf ++ data, recvWindow := window }
    Receives s (s.setStream id st') ∧ InPayload id remain data.length (s.setStream id st') := by
  intro st'
  have hle := hdata.trans (h.window hst)
  have hwindow : window.toNat = st.recvWindow.toNat - data.length := by
    rw [hw, toNat_sub_ofNat (by omega)]
  have hlen : st'.recvBuf.length = st.recvBuf.length + data.length := List.length_append
  have hb : (s.setStream id st').Bounded := by
    intro i st₁ h₁
    rw [Session.setStream_streams] at h₁
    split at h₁
    · obtain rfl := Option.some.inj h₁
      have hfit := h.fits.1 id st hst
      unfold Stream.Bounded at *
      change st'.recvBuf.length + window.toNat ≤ maxWindow
      omega
    · exact h.fits.1 i st₁ h₁
  have hin : (s.setStream id st').InFrame data.length := by
    intro _ st₁ h₁
    change (s.setStream id st').streams (hdrStreamId s.hdr) = some st₁ at h₁
    rw [h.hdr, Session.setStream_same] at h₁
    obtain rfl := Option.some.inj h₁
    have hfr := h.window hst
    change s.frameRemain.toNat ≤ window.toNat + data.length
    rw [h.frameRemain]
    omega
  refine ⟨⟨hb, hin.mono hsize, .inl ⟨rfl, rfl, rfl⟩, fun i st₁ h₁ => .inr ?_⟩,
    ⟨hb, hin⟩, h.newFrame, h.hdr, h.frameRemain⟩
  rw [Session.setStream_streams] at h₁
  split at h₁
  · rename_i hi
    obtain rfl := Option.some.inj h₁
    refine ⟨st, hi ▸ hst, by omega, ?_⟩
    change window.toNat + st'.recvBuf.length = _
    omega
  · exact ⟨st₁, h₁, le_rfl, rfl⟩

/-- The slice is taken off what is left of the frame. -/
theorem moved {r : Nat} (h : InPayload id remain r s) (hr : r ≤ remain.toNat) (recvBuf : Bytes)
    {left : UInt32} (hleft : left = s.frameRemain - UInt32.ofNat r) :
    let t := { s with recvBuf := recvBuf, frameRemain := left }
    Receives s t ∧ InPayload id left 0 t := by
  intro t
  have hin : t.InFrame 0 := by
    intro _ st hst
    have hfr := h.fits.2 h.newFrame st hst
    change left.toNat ≤ st.recvWindow.toNat + 0
    rw [h.frameRemain] at hfr hleft
    rw [hleft, toNat_sub_ofNat hr]
    omega
  exact ⟨⟨h.fits.1, hin.mono (Nat.zero_le _), .inr (.inr hin), fun i st hst =>
    .inr ⟨st, hst, le_rfl, rfl⟩⟩, ⟨h.fits.1, hin⟩, h.newFrame, h.hdr, rfl⟩

end InPayload

/-- The readers of a stream are notified, and the thread knows what it knew. -/
theorem receiving_streamReadableNotify {id remain : UInt32} {k : Nat} (hk : k ≤ sliceSize) :
    Receiving (InPayload id remain k) (streamReadableNotify id)
      fun r s => r = 0 ∧ InPayload id remain k s := by
  have hset : Settled (InPayload id remain k) := .settled id remain k
  refine .query_bind fun io hio => ?_
  rw [hio rfl]
  refine .onStream hset (fun _ => Env.Stable.const.and hset) (fun s hs => hs.fits.mono hk)
    fun s st hs hst => ?_
  cases hread : st.readable with
  | true =>
    rw [if_pos rfl]
    have hstill := hs.still hk (.setStream hst rfl rfl)
    exact ⟨hstill.1, rfl, hstill.2⟩
  | false =>
    rw [if_neg (by decide), if_neg (by decide)]
    have hstill := hs.still hk (@Still.setStream _ _ _ { st with readable := true } hst rfl rfl)
    exact ⟨hstill.1, rfl, hstill.2⟩

theorem receiving_deliverSlice {id remain : UInt32} {size : Nat} (hsize : size ≤ sliceSize)
    (hremain : size ≤ remain.toNat) :
    Receiving (InPayload id remain 0) (deliverSlice id size) fun moved s =>
      moved.elim (InPayload id remain 0 s) fun r => r ≤ size ∧ InPayload id remain r s := by
  have hset (k : Nat) : Settled (InPayload id remain k) := .settled id remain k
  have still {α : Type} {p : Op α} (hp : Acts socketsOk Still p) :
      Receiving (InPayload id remain 0) p fun _ => InPayload id remain 0 :=
    .still hp (hset 0) fun _ hs => hs.fits
  have hfit (s : Session) (hs : InPayload id remain 0 s) : s.Fits sliceSize :=
    hs.fits.mono (Nat.zero_le _)
  refine .bind (Q := fun (slice : Bytes) s => slice.length ≤ size ∧ InPayload id remain 0 s)
    (.read (hset 0) (fun _ => Env.Stable.const.and (hset 0)) hfit
      fun s hs => ⟨List.length_take_le _ _, hs⟩) fun slice => Receiving.given fun hlen => ?_
  refine .bind (still (.check _)) fun _ => .bind (still (.acquire _)) fun _ =>
    .bind (triple_bioWrite (hset 0) (hlen.trans hsize)) fun ⟨r, written⟩ =>
      Receiving.given fun hr => ?_
  obtain ⟨rfl, rfl⟩ | ⟨rfl, rfl⟩ : (r = -1 ∧ written = []) ∨
      (r = slice.length ∧ written = slice) := hr.imp Prod.mk.inj Prod.mk.inj
  · -- nothing was written, and nothing is taken off the window
    refine .bind (Q := fun _ => InPayload id remain 0) (.onStream (hset 0) (fun _ => hset 0) hfit
      fun s st hs hst => hs.still (Nat.zero_le _) (.setStream hst rfl (List.append_nil _)))
      fun _ => ?_
    rw [if_pos rfl]
    exact .bind (still (still_beside (beside_sessionGoAwayForReason _))) fun _ =>
      .bind (still (.release _)) fun _ => .pure (hset 0) fun _ hs => hs
  · have hne : ¬ ((written.length : Int) = -1) := by omega
    refine .bind (Q := fun _ => InPayload id remain written.length) (.onStream (hset 0)
      (fun _ => hset _) hfit fun s st hs hst => ?_) fun _ => ?_
    · dsimp only
      rw [if_neg hne]
      exact hs.slice hst (hlen.trans hsize) (hlen.trans hremain) rfl
    · rw [if_neg hne]
      refine .bind (Env.Triple.release (hset _)) fun _ =>
        .bind (receiving_streamReadableNotify (hlen.trans hsize)) fun woken =>
          Receiving.given fun hw => ?_
      rw [hw, if_neg (fun h => h rfl)]
      exact .pure (hset _) fun _ hs => ⟨hlen, hs⟩

/-! ### Payloads -/

/-- The thread is in a payload of the stream `id`. Without a live stream there is none. -/
structure Underway (id : UInt32) (live : Bool) (s : Session) : Prop where
  fits : s.Fits 0
  newFrame : s.newFrame = false
  hdr : hdrStreamId s.hdr = id
  absent : live = false → s.streams id = none

theorem Underway.settled (id : UInt32) (live : Bool) : Settled (Underway id live) := by
  intro s t h hr
  exact ⟨.settled 0 s t h.fits hr, hr.frame.newFrame.trans h.newFrame,
    (congrArg hdrStreamId hr.frame.hdr).trans h.hdr,
    fun hl => settled_absent id s t (h.absent hl) hr⟩

theorem receiving_payloadRound (id : UInt32) (live : Bool) :
    Receiving (Underway id live) (payloadRound id live) fun _ => Underway id live := by
  have hset : Settled (Underway id live) := .settled id live
  have hin (remain : UInt32) (k : Nat) : Settled (InPayload id remain k) := .settled id remain k
  -- what is read of the frame stays true, for only this thread changes it
  have hread (remain : UInt32) :
      Settled fun s => Underway id live s ∧ s.frameRemain = remain :=
    hset.and (settled_frame (P := fun _ r _ => r = remain))
  have move {remain left : UInt32} {r : Nat} {s : Session} (h : InPayload id remain r s)
      (hr : r ≤ remain.toNat) (habsent : live = false → s.streams id = none) (recvBuf : Bytes)
      (hleft : left = s.frameRemain - UInt32.ofNat r) :
      let t := { s with recvBuf := recvBuf, frameRemain := left }
      Receives s t ∧ Underway id live t := by
    obtain ⟨hguar, ht⟩ := h.moved hr recvBuf hleft
    exact ⟨hguar, ht.fits, ht.newFrame, ht.hdr, habsent⟩
  have hfit (s : Session) (hs : Underway id live s) : s.Fits sliceSize :=
    hs.fits.mono (Nat.zero_le _)
  refine .bind (Q := fun remain s => Underway id live s ∧ s.frameRemain = remain)
    (.read hset hread hfit fun s hs => ⟨hs, rfl⟩) fun remain => ?_
  refine .bind (Q := fun _ s => Underway id live s ∧ s.frameRemain = remain)
    (.read (hread remain) (fun _ => hread remain) (fun s hs => hfit s hs.1) fun s hs => hs)
    fun pending => ?_
  split
  · exact .pure (hread remain) fun _ hs => hs.1
  · have hsize : min remain.toNat sliceSize ≤ sliceSize := min_le_right _ _
    have hle : min remain.toNat sliceSize ≤ remain.toNat := min_le_left _ _
    generalize min remain.toNat sliceSize = size at hsize hle
    cases live with
    | true =>
      refine .bind ((receiving_deliverSlice hsize hle).pre fun s hs =>
        ⟨hs.1.fits, hs.1.newFrame, hs.1.hdr, hs.2⟩) fun moved => ?_
      cases moved with
      | none =>
        exact .pure (hin remain 0) fun s hs => ⟨hs.fits, hs.newFrame, hs.hdr, fun h => nomatch h⟩
      | some r =>
        refine .given fun hr => .bind (Q := fun _ => Underway id true) ?_ fun _ =>
          .pure hset fun _ hs => hs
        exact Env.Triple.modify (hin remain r) hset fun s hs =>
          move hs (hr.trans hle) (fun h => nomatch h) _ rfl
    | false =>
      refine .bind (Q := fun moved s => moved = some size ∧ Underway id false s ∧
        s.frameRemain = remain) (.pure (hread remain) fun s hs => ⟨rfl, hs⟩) fun moved =>
          .given fun hmoved => ?_
      rw [hmoved]
      refine .bind (Q := fun _ => Underway id false) ?_ fun _ => .pure hset fun _ hs => hs
      refine Env.Triple.modify (hread remain) hset fun s hs => ?_
      have hnone := hs.1.absent rfl
      have hpay : InPayload id remain size s := by
        refine ⟨⟨hs.1.fits.1, fun _ st hst => ?_⟩, hs.1.newFrame, hs.1.hdr, hs.2⟩
        rw [hs.1.hdr, hnone] at hst
        cases hst
      exact move hpay hle (fun _ => hnone) _ rfl

theorem receiving_handlePayload (id : UInt32) (live : Bool) :
    Receiving (Underway id live) (handlePayload id live) fun _ => Session.Fits 0 := by
  have hset : Settled (Underway id live) := .settled id live
  have hfit (s : Session) (hs : Underway id live s) : s.Fits sliceSize :=
    hs.fits.mono (Nat.zero_le _)
  refine .bind (Q := fun _ => Underway id live) (.read hset (fun _ => hset) hfit fun _ hs => hs)
    fun remain => .bind (Q := fun _ => Underway id live) ?_ fun r => ?_
  · exact Env.Triple.loop hset (fun _ hs => hs.fits) (fun _ => hset)
      ((receiving_payloadRound id live).post fun o _ hs => by cases o <;> exact hs) _
  · split
    · exact .pure hset fun _ hs => hs.fits
    · refine .bind (Q := fun _ => Session.Fits 0) ?_ fun _ => .pure (.settled 0) fun _ hs => hs
      refine Env.Triple.modify hset (.settled 0) fun s hs => ?_
      have hin : ({ s with newFrame := if s.frameRemain = 0 then true else s.newFrame } :
          Session).InFrame 0 := fun _ st hst => hs.fits.2 hs.newFrame st hst
      exact ⟨⟨hs.fits.1, hin.mono (Nat.zero_le _), .inr (.inr hin), fun i st hst =>
        .inr ⟨st, hst, le_rfl, rfl⟩⟩, hs.fits.1, hin⟩

/-- Going over to a payload that fits the window. -/
theorem receiving_startPayload (id : UInt32) (live : Bool) (len : UInt32) :
    Receiving (fun s => s.Fits 0 ∧ hdrStreamId s.hdr = id ∧
      (live = false → s.streams id = none) ∧
      ∀ st, s.streams id = some st → len.toNat ≤ st.recvWindow.toNat)
      (startPayload id live len) fun _ => Session.Fits 0 := by
  refine .bind (Q := fun _ => Underway id live) ?_ fun _ => receiving_handlePayload id live
  refine Env.Triple.modify ?_ (.settled id live) fun s ⟨hs, hid, habsent, hwindow⟩ => ?_
  · exact (Session.Fits.settled 0).and ((settled_frame (P := fun _ _ h => hdrStreamId h = id)).and
      (Env.Stable.and (fun s t h hr hl => settled_absent id s t (h hl) hr) (settled_window id _)))
  · have hin : ({ s with frameRemain := len, newFrame := false } : Session).InFrame 0 :=
      fun _ st hst => hwindow st (hid ▸ hst)
    exact ⟨⟨hs.1, hin.mono (Nat.zero_le _), .inr (.inr hin), fun i st hst =>
      .inr ⟨st, hst, le_rfl, rfl⟩⟩, ⟨hs.1, hin⟩, rfl, hid, habsent⟩

/-! ### Headers -/

/-- Still actions between two frames or in one. -/
theorem receiving_still {α : Type} {p : Op α} (hp : Acts socketsOk Still p) :
    Receiving (Session.Fits 0) p fun _ => Session.Fits 0 :=
  .still hp (.settled 0) fun _ hs => hs

theorem receiving_read {α : Type} {ms : List Mutex} (g : Session → α) :
    Receiving (Session.Fits 0) (read ms g) fun _ => Session.Fits 0 :=
  receiving_still (.read .refl)

theorem receiving_goAway_then {α : Type} (reason : UInt32) (a : α) :
    Receiving (Session.Fits 0) (do
      let _ ← sessionGoAwayForReason reason
      pure a) fun _ => Session.Fits 0 :=
  receiving_still (still_beside (beside_goAway_then reason a))

/-- A stream is created between two frames. -/
theorem receiving_streamNew (id : UInt32) (state : StreamState) :
    Receiving (fun s => s.Fits 0 ∧ s.newFrame = true) (streamNew id state)
      fun _ => Session.Fits 0 := by
  have hset : Settled fun s => s.Fits 0 ∧ s.newFrame = true :=
    (Session.Fits.settled 0).and (settled_frame (P := fun f _ _ => f = true))
  refine .query_bind fun _ _ => .query_bind fun _ _ => .query_bind fun _ _ =>
    .query_bind fun _ _ => ?_
  split
  · refine .bind (Q := fun _ s => s.Fits 0 ∧ s.newFrame = true)
      (.still (.read .refl) hset fun _ hs => hs.1) fun padding =>
      .bind (.bind (Q := fun _ => Session.Fits 0) (.crit hset (fun _ => .settled 0)
        fun s ⟨hs, hnew⟩ => ?_) fun _ => receiving_still (.check _)) fun _ =>
          .pure (.settled 0) fun _ hs => hs
    split
    · exact ⟨(Still.refl s).receives hs.1 (hs.2.mono (Nat.zero_le _)), hs⟩
    · rename_i hnone
      have hfree : s.streams id = none := Option.not_isSome_iff_eq_none.mp hnone
      have hb : (s.setStream id (.fresh state padding)).Bounded := by
        intro i st hst
        rw [Session.setStream_streams] at hst
        split at hst
        · obtain rfl := Option.some.inj hst
          exact (Nat.zero_add _).trans_le toNat_maxWindow.le
        · exact hs.1 i st hst
      have hin (k : Nat) : (s.setStream id (.fresh state padding)).InFrame k :=
        .between (by exact hnew) k
      refine ⟨⟨hb, hin _, .inr (.inl hnew), fun i st hst => ?_⟩, hb, hin _⟩
      rw [Session.setStream_streams] at hst
      split at hst
      · rename_i hi
        exact .inl ⟨hi ▸ hfree, hnew⟩
      · exact .inr ⟨st, hst, le_rfl, rfl⟩
  · exact .pure hset fun _ hs => hs.1

theorem receiving_incomingStream :
    Receiving (Session.Fits 0) incomingStream fun _ => Session.Fits 0 := by
  have hset : Settled fun s => s.Fits 0 ∧ s.newFrame = true :=
    (Session.Fits.settled 0).and (settled_frame (P := fun f _ _ => f = true))
  have hread {α : Type} {g : Session → α} : Receiving (fun s => s.Fits 0 ∧ s.newFrame = true)
      (read [] g) fun _ s => s.Fits 0 ∧ s.newFrame = true :=
    .still (.read .refl) hset fun _ hs => hs.1
  refine .bind (Q := fun b s => s.Fits 0 ∧ s.newFrame = b) ?_ fun newFrame =>
    .bind (Q := fun _ s => s.Fits 0 ∧ s.newFrame = true) ?_ fun _ => ?_
  · exact .read (.settled 0) (fun _ => (Session.Fits.settled 0).and
      (settled_frame (P := fun f _ _ => f = _))) (fun s hs => hs.mono (Nat.zero_le _))
      fun s hs => ⟨hs, rfl⟩
  · refine Env.Triple.mono (Env.Triple.check ((Session.Fits.settled 0).and
      (settled_frame (P := fun f _ _ => f = newFrame)))) (fun _ hs => hs) fun _ s hs => ?_
    exact ⟨hs.2.1, hs.2.2.trans hs.1⟩
  · refine .bind hread fun id => .bind hread fun leaving => ?_
    split
    · exact (receiving_still (.bind (still_beside (beside_sessionSendBufWrite _)) fun _ =>
        .pure _)).pre fun _ hs => hs.1
    · refine .bind (.still (.read .refl) hset fun _ hs => hs.1) fun known => ?_
      split
      · exact (receiving_goAway_then _ _).pre fun _ hs => hs.1
      · refine .bind (receiving_streamNew id _) fun created => ?_
        split
        · -- the socket pair takes the id, so the stream is not freed again
          refine receiving_still fun io hio => ?_
          rw [hio rfl]
          exact fun s => ⟨⟨⟨rfl, rfl, rfl⟩, fun _ st h => ⟨st, h, rfl, rfl⟩⟩, trivial⟩
        · exact receiving_goAway_then _ _

theorem receiving_synFlag (hdr : Bytes) : Receiving (Session.Fits 0)
    (if hasFlag (hdrFlags hdr) FLAG_SYN then incomingStream else pure 0)
    fun _ => Session.Fits 0 := by
  split
  · exact receiving_incomingStream
  · exact .pure (.settled 0) fun _ hs => hs

/-- The window is compared with the length of the payload. -/
theorem receiving_handleDataHeader :
    Receiving (Session.Fits 0) handleDataHeader fun _ => Session.Fits 0 := by
  -- the header is the one that was read, and the stream tree says whether there is a stream
  have hknow (hdr : Bytes) (live : Bool) : Settled fun s => s.Fits 0 ∧
      hdrStreamId s.hdr = hdrStreamId hdr ∧ (live = false → s.streams (hdrStreamId hdr) = none) :=
    (Session.Fits.settled 0).and ((settled_frame
      (P := fun _ _ h => hdrStreamId h = hdrStreamId hdr)).and
        fun s t h hr hl => settled_absent _ s t (h hl) hr)
  have hhdr (hdr : Bytes) : Settled fun s => s.Fits 0 ∧ s.hdr = hdr :=
    (Session.Fits.settled 0).and (settled_frame (P := fun _ _ h => h = hdr))
  have hzero {s : Session} (hs : s.Fits 0) : s.Fits sliceSize := hs.mono (Nat.zero_le _)
  refine .bind (Q := fun hdr s => s.Fits 0 ∧ s.hdr = hdr)
    (.read (.settled 0) hhdr (fun _ => hzero) fun s hs => ⟨hs, rfl⟩) fun hdr => ?_
  refine .bind (Q := fun live s => s.Fits 0 ∧ hdrStreamId s.hdr = hdrStreamId hdr ∧
      (live = false → s.streams (hdrStreamId hdr) = none))
    (.read (hhdr hdr) (hknow hdr) (fun _ hs => hzero hs.1) fun s hs => ⟨hs.1, hs.2 ▸ rfl, ?_⟩)
    fun live => ?_
  · exact fun hl => Option.not_isSome_iff_eq_none.mp (Bool.eq_false_iff.mp hl)
  cases live with
  | true =>
    have still {α : Type} {p : Op α} (hp : Acts socketsOk Still p) :=
      Receiving.still hp (hknow hdr true) fun _ hs => hs.1
    rw [if_pos rfl]
    refine .bind (still (still_notified (touches_streamProcessFlags _))) fun r => ?_
    split
    · exact (receiving_goAway_then _ _).pre fun _ hs => hs.1
    · split
      · exact .pure (hknow hdr true) fun _ hs => hs.1
      · refine .bind (still (.acquire _)) fun _ =>
          .bind (Q := fun window s => (s.Fits 0 ∧ hdrStreamId s.hdr = hdrStreamId hdr ∧
            (true = false → s.streams (hdrStreamId hdr) = none)) ∧
            ∀ st, s.streams (hdrStreamId hdr) = some st → window.toNat ≤ st.recvWindow.toNat)
            (.onStream (hknow hdr true) (fun _ => (hknow hdr true).and (settled_window _ _))
              (fun _ hs => hzero hs.1) fun s st hs hst => ?_) fun window => ?_
        · rw [Session.setStream_eq_self hst]
          refine ⟨(Still.refl s).receives hs.1.1 (hzero hs.1).2, hs, fun st' hst' => ?_⟩
          rw [Option.some.inj (hst.symm.trans hst')]
        · split
          · exact (receiving_still (.bind (still_beside (beside_sessionGoAwayForReason _))
              fun _ => .bind (.release _) fun _ => .pure _)).pre fun _ hs => hs.1.1
          · rename_i hlen
            refine .bind (Env.Triple.release ((hknow hdr true).and (settled_window _ _)))
              fun _ => (receiving_startPayload _ true _).pre fun s hs => ⟨hs.1.1, hs.1.2.1,
                hs.1.2.2, fun st hst => ?_⟩
            exact (UInt32.le_iff_toNat_le.mp (UInt32.not_lt.mp hlen)).trans (hs.2 st hst)
  | false =>
    rw [if_neg Bool.false_ne_true]
    refine (receiving_startPayload _ false _).pre fun s hs => ⟨hs.1, hs.2.1, hs.2.2, ?_⟩
    intro st hst
    rw [hs.2.2 rfl] at hst
    cases hst

theorem receiving_sessionHandleData :
    Receiving (Session.Fits 0) sessionHandleData fun _ => Session.Fits 0 := by
  have hframe (b : Bool) : Settled fun s => s.Fits 0 ∧ s.newFrame = b :=
    (Session.Fits.settled 0).and (settled_frame (P := fun f _ _ => f = b))
  have hhdr (b : Bool) (hdr : Bytes) : Settled fun s => (s.Fits 0 ∧ s.newFrame = b) ∧ s.hdr = hdr :=
    (hframe b).and (settled_frame (P := fun _ _ h => h = hdr))
  have hzero {s : Session} (hs : s.Fits 0) : s.Fits sliceSize := hs.mono (Nat.zero_le _)
  refine .bind (Q := fun b s => s.Fits 0 ∧ s.newFrame = b)
    (.read (.settled 0) hframe (fun _ => hzero) fun s hs => ⟨hs, rfl⟩) fun newFrame =>
    .bind (Q := fun hdr s => (s.Fits 0 ∧ s.newFrame = newFrame) ∧ s.hdr = hdr)
      (.read (hframe _) (hhdr _) (fun _ hs => hzero hs.1) fun s hs => ⟨hs, rfl⟩) fun hdr => ?_
  cases newFrame with
  | true =>
    rw [if_pos rfl]
    refine .bind ((receiving_synFlag hdr).pre fun _ hs => hs.1.1) fun r => ?_
    split
    · exact .pure (.settled 0) fun _ hs => hs
    · exact receiving_handleDataHeader
  | false =>
    rw [if_neg Bool.false_ne_true]
    refine .bind (Q := fun live => Underway (hdrStreamId hdr) live)
      (.read (hhdr _ _) (fun _ => .settled _ _) (fun _ hs => hzero hs.1.1) fun s hs => ?_)
      fun live => receiving_handlePayload _ live
    exact ⟨hs.1.1, hs.1.2, hs.2 ▸ rfl, fun hl =>
      Option.not_isSome_iff_eq_none.mp (Bool.eq_false_iff.mp hl)⟩

theorem receiving_sessionHandleWindowUpdate :
    Receiving (Session.Fits 0) sessionHandleWindowUpdate fun _ => Session.Fits 0 := by
  refine .bind (receiving_read _) fun _ => .bind (receiving_still (.check _)) fun _ =>
    .bind (receiving_read _) fun hdr => .bind (receiving_synFlag hdr) fun r => ?_
  split
  · exact .pure (.settled 0) fun _ hs => hs
  · refine .bind (receiving_read _) fun live => ?_
    split
    · refine .bind (receiving_still (still_notified (touches_streamProcessFlags _))) fun r => ?_
      split
      · exact receiving_goAway_then _ _
      · split
        · exact .pure (.settled 0) fun _ hs => hs
        · have hcredit (window : Stream → UInt32) : Acts socketsOk Still
              (modifyStream [.send (hdrStreamId hdr)] (hdrStreamId hdr)
                fun st => { st with sendWindow := window st }) :=
            (touches_onStream _ _ fun st => .inr (.debit _)).mono fun _ _ h =>
              h.still fun _ _ => Stream.WrittenBy.still
          refine .bind (receiving_still (hcredit _)) fun _ => .bind (receiving_still
            (still_notified (touches_streamWriteableNotify fun _ => .writeable))) fun woken => ?_
          split
          · exact receiving_goAway_then _ _
          · exact .pure (.settled 0) fun _ hs => hs
    · exact .pure (.settled 0) fun _ hs => hs

theorem receiving_sessionHandle :
    Receiving (Session.Fits 0) sessionHandle fun _ => Session.Fits 0 := by
  refine .bind (receiving_read _) fun type => ?_
  split
  · exact receiving_sessionHandleData
  · split
    · exact receiving_sessionHandleWindowUpdate
    · split
      · exact receiving_still (still_beside beside_sessionHandlePing)
      · split
        · exact receiving_still (still_beside beside_sessionHandleGoAway)
        · exact .pure (.settled 0) fun _ hs => hs

/-- A header is read between two frames. -/
theorem receiving_readHeader :
    Receiving (fun s => s.Fits 0 ∧ s.newFrame = true) readHeader fun _ => Session.Fits 0 := by
  refine .bind (Q := fun _ => Session.Fits 0) (.crit ((Session.Fits.settled 0).and
    (settled_frame (P := fun f _ _ => f = true))) (fun _ => .settled 0) fun s ⟨hs, hnew⟩ => ?_)
    fun hdr => receiving_still (.bind (.check _) fun _ => .pure _)
  have hin (k : Nat) : ({ s with hdr := s.recvBuf.take hdrSize
                                 recvBuf := s.recvBuf.drop hdrSize } : Session).InFrame k :=
    .between (by exact hnew) k
  exact ⟨⟨hs.1, hin _, .inr (.inl hnew), fun i st hst => .inr ⟨st, hst, le_rfl, rfl⟩⟩,
    hs.1, hin _⟩

/-- `session_process` keeps the bound, and ends without a slack. -/
theorem receiving_sessionProcess :
    Receiving (Session.Fits 0) sessionProcess fun _ => Session.Fits 0 := by
  have hframe (b : Bool) : Settled fun s => s.Fits 0 ∧ s.newFrame = b :=
    (Session.Fits.settled 0).and (settled_frame (P := fun f _ _ => f = b))
  have hround : Receiving (Session.Fits 0) processRound fun _ => Session.Fits 0 := by
    refine .bind (receiving_read _) fun pending => .bind (Q := fun b s => s.Fits 0 ∧ s.newFrame = b)
      (.read (.settled 0) hframe (fun _ hs => hs.mono (Nat.zero_le _)) fun s hs => ⟨hs, rfl⟩)
      fun newFrame => ?_
    split
    · exact .pure (hframe _) fun _ hs => hs.1
    · split
      · exact .pure (hframe _) fun _ hs => hs.1
      · refine .bind (Q := fun _ => Session.Fits 0) ?_ fun supported => ?_
        · cases newFrame with
          | true => exact receiving_readHeader
          | false => exact .pure (hframe _) fun _ hs => hs.1
        · split
          · exact .bind receiving_sessionHandle fun r => .pure (.settled 0) fun _ hs => hs
          · exact .pure (.settled 0) fun _ hs => hs
  refine .bind (receiving_still (.acquire _)) fun _ => .bind (receiving_read _) fun rounds =>
    .bind (Q := fun _ => Session.Fits 0) ?_ fun r =>
      .bind (receiving_still (.release _)) fun _ => .pure (.settled 0) fun _ hs => hs
  exact Env.Triple.loop (.settled 0) (fun _ hs => hs) (fun _ => .settled 0)
    (hround.post fun o _ hs => by cases o <;> exact hs) _

/-! ## Runs -/

/-- The proof of the threads. -/
def memoryProof : Pool.Proof (τ := Worker) Api.code Worker.may socketsOk fun _ _ _ => True where
  env := Worker.env
  idle
    | .receiver => Session.Fits 0
    | .application _ => Session.Bounded
  answers i c b h := by cases i <;> exact h
  stable
    | .receiver => .settled 0
    | .application _ => fun _ _ hb hr => hr hb
  compatible {i j s t} hij hg _ := by
    cases i with
    | receiver =>
      cases j with
      | receiver => exact absurd rfl hij
      | application m => exact fun _ => hg.bounded
    | application n =>
      cases j with
      | receiver => exact hg
      | application m => exact hg.bounded
  call {i c} hmay := by
    cases i with
    | application n => exact frees_code hmay
    | receiver =>
      cases c with
      | process =>
        exact Env.Triple.bind receiving_sessionProcess fun r => .pure (.settled 0) fun _ hs => hs
      | recvBufWrite data =>
        exact receiving_still (still_beside (beside_code (c := .recvBufWrite data) trivial))
      | sendBufPending | sendBufPeek | sendBufConsume | openStream | acceptStream | read | write
        | goAway => exact hmay.elim

/-- The bytes that the stream of the frame in progress holds. -/
def Session.held (s : Session) : Nat :=
  ((s.streams (hdrStreamId s.hdr)).map fun st => st.recvBuf.length).getD 0

/-- The bytes moved into that stream since the frame was last brought up to date, after a
step from `s` to `t`. -/
def Session.owed (owed : Nat) (s t : Session) : Nat :=
  if t.newFrame = s.newFrame ∧ t.frameRemain = s.frameRemain then owed + (t.held - s.held) else 0

/-- The pools that runs lead to from a session with new streams only, and the bytes that
the frame in progress is behind. -/
inductive MemoryRun : Nat → Pool Call Mutex Session Api Worker → Prop where
  | start {s : Session} (hframe : s.newFrame = true)
      (hnew : ∀ id st, s.streams id = some st → ∃ state padding, st = .fresh state padding) :
      MemoryRun 0 (.start s)
  | step {owed : Nat} {P Q : Pool Call Mutex Session Api Worker} {i : Worker}
      (h : MemoryRun owed P) (hs : Pool.Step Api.code Worker.may socketsOk i P Q) :
      MemoryRun (P.state.owed owed Q.state) Q

namespace MemoryRun

variable {owed : Nat} {P Q : Pool Call Mutex Session Api Worker} {i : Worker}

theorem Stream.fresh_bounded (state : StreamState) (padding : UInt32) :
    (Stream.fresh state padding).Bounded :=
  (Nat.zero_add _).trans_le toNat_maxWindow.le

theorem holds (h : MemoryRun owed P) : memoryProof.Holds P := by
  induction h with
  | @start s hframe hnew =>
    have hb : s.Bounded := by
      intro id st hst
      obtain ⟨state, padding, rfl⟩ := hnew id st hst
      exact Stream.fresh_bounded state padding
    refine Pool.Proof.holds_start fun i => ?_
    cases i with
    | receiver => exact ⟨hb, .between hframe 0⟩
    | application n => exact hb
  | step h hs ih => exact ih.step hs trivial

/-- A step is one of the receive thread or one of the application. -/
theorem step_cases (h : MemoryRun owed P) (hs : Pool.Step Api.code Worker.may socketsOk i P Q) :
    (P.state.Bounded → Frees P.state Q.state) ∨ Receives P.state Q.state := by
  rcases h.holds.guar hs with heq | hguar
  · rw [heq]
    exact .inl fun _ => .refl _
  · cases i with
    | receiver => exact .inr hguar
    | application n => exact .inl fun _ => hguar

theorem bounded (h : MemoryRun owed P) : P.state.Bounded := by
  induction h with
  | start hframe hnew =>
    intro id st hst
    obtain ⟨state, padding, rfl⟩ := hnew id st hst
    exact Stream.fresh_bounded state padding
  | step h hs ih =>
    rcases h.step_cases hs with hfrees | hreceives
    · exact (hfrees ih).bounded ih
    · exact hreceives.bounded

/-- What is left of a frame is at most one slice ahead of the window. -/
theorem inFrame_slice (h : MemoryRun owed P) : P.state.InFrame sliceSize := by
  induction h with
  | start hframe _ => exact .between hframe _
  | step h hs ih =>
    rcases h.step_cases hs with hfrees | hreceives
    · exact ih.frees (hfrees h.bounded)
    · exact hreceives.inFrame

/-- What is left of a frame is ahead of the window by the bytes that were moved since. -/
theorem inFrame_owed (h : MemoryRun owed P) : P.state.InFrame owed := by
  induction h with
  | start hframe _ => exact .between hframe _
  | @step owed P Q i h hs ih =>
    rcases h.step_cases hs with hfrees | hreceives
    · have hstep := hfrees h.bounded
      rw [Session.owed, if_pos ⟨hstep.frame.newFrame, hstep.frame.frameRemain⟩]
      exact (ih.frees hstep).mono (Nat.le_add_right _ _)
    · intro hf st' hst'
      by_cases hsame : Q.state.newFrame = P.state.newFrame ∧
          Q.state.frameRemain = P.state.frameRemain
      · rw [Session.owed, if_pos hsame]
        rcases hreceives.frame with hframe | hnew | hzero
        · obtain ⟨-, hnew⟩ | ⟨st, hst, hlen, hsum⟩ := hreceives.streams _ st' hst'
          · rw [hf] at hnew
            cases hnew
          · have hheld : Q.state.held = st'.recvBuf.length := by
              rw [Session.held, hst']
              rfl
            have hheld₀ : P.state.held = st.recvBuf.length := by
              rw [Session.held, ← hframe.hdr, hst]
              rfl
            rw [hframe.hdr] at hst
            have hle := ih (hsame.1 ▸ hf) st hst
            rw [hsame.2, hheld, hheld₀]
            omega
        · rw [hf] at hnew
          cases hnew
        · exact (hzero hf st' hst').trans (Nat.add_le_add_left (Nat.zero_le _) _)
      · rw [Session.owed, if_neg hsame]
        rcases hreceives.frame with hframe | hnew | hzero
        · exact absurd ⟨hframe.newFrame, hframe.frameRemain⟩ hsame
        · rw [hf] at hnew
          cases hnew
        · exact hzero hf st' hst'

/-- The buffer and the window of every stream fit the capacity. What is left of a frame
fits the window, but for the slice that is being moved. Neither the room that an update
announces nor a window that pays for a slice goes below zero. -/
theorem fits (h : MemoryRun owed P) :
    (∀ id st, P.state.streams id = some st →
      st.recvWindow.toNat + st.recvBuf.length ≤ 262144 ∧
      st.delta.toNat + st.recvWindow.toNat + st.recvBuf.length = 262144) ∧
    (P.state.newFrame = false → ∀ st, P.state.streams (hdrStreamId P.state.hdr) = some st →
      P.state.frameRemain.toNat ≤ st.recvWindow.toNat + min owed sliceSize ∧
      (P.threads .receiver = none → P.state.frameRemain.toNat ≤ st.recvWindow.toNat)) ∧
    ∀ i Q, Pool.Step Api.code Worker.may socketsOk i P Q → ∀ id st st',
      P.state.streams id = some st → Q.state.streams id = some st' →
      st.recvBuf.length < st'.recvBuf.length →
      st'.recvWindow.toNat + (st'.recvBuf.length - st.recvBuf.length) = st.recvWindow.toNat := by
  refine ⟨fun id st hst => ?_, fun hf st hst => ⟨?_, fun hidle => ?_⟩,
    fun i Q hs id st st' hst hst' hlen => ?_⟩
  · have hfit := h.bounded id st hst
    have hdelta := Stream.toNat_delta hfit
    unfold Stream.gap at hdelta
    unfold Stream.Bounded maxWindow at *
    omega
  · have howed := h.inFrame_owed hf st hst
    have hslice := h.inFrame_slice hf st hst
    omega
  · have hthread := h.holds .receiver
    rw [hidle] at hthread
    exact hthread.2 hf st hst
  · rcases h.step_cases hs with hfrees | hreceives
    · obtain ⟨st₁, h₁, -, hle⟩ := (hfrees h.bounded).streams id st' hst'
      obtain rfl := Option.some.inj (hst.symm.trans h₁)
      omega
    · obtain ⟨hnone, -⟩ | ⟨st₁, h₁, -, hsum⟩ := hreceives.streams id st' hst'
      · rw [hst] at hnone
        cases hnone
      · obtain rfl := Option.some.inj (hst.symm.trans h₁)
        omega

/-- The receive thread is given a frame that declares a stream and fills its window, with
the first byte of the payload. It moves that byte into the stream. -/
def sliceSchedule : List (Worker × Option Api) :=
  Pool.begins .receiver (.recvBufWrite (hdrEncode TYPE_DATA FLAG_SYN 1 262144 ++ [7])) 3 ++
    Pool.begins .receiver .process 36

instance decidableWorkerMay (i : Worker) (c : Api) : Decidable (i.may c) :=
  match i, c with
  | .receiver, .process | .receiver, .recvBufWrite _ => inferInstanceAs (Decidable True)
  | .receiver, .sendBufPending | .receiver, .sendBufPeek _ | .receiver, .sendBufConsume _
  | .receiver, .openStream _ | .receiver, .acceptStream | .receiver, .read _ _
  | .receiver, .write _ _ | .receiver, .goAway => inferInstanceAs (Decidable False)
  | .application _, .process | .application _, .openStream _ =>
    inferInstanceAs (Decidable False)
  | .application _, .recvBufWrite _ | .application _, .sendBufPending
  | .application _, .sendBufPeek _ | .application _, .sendBufConsume _
  | .application _, .acceptStream | .application _, .read _ _ | .application _, .write _ _
  | .application _, .goAway => inferInstanceAs (Decidable True)

/-- After the slice was moved, before the frame is brought up to date. -/
def midFrame (P : Pool Call Mutex Session Api Worker) : Bool :=
  !P.state.newFrame && (P.state.streams (hdrStreamId P.state.hdr)).any fun st =>
    decide (st.recvWindow.toNat < P.state.frameRemain.toNat)

theorem run_midFrame : ∃ owed P, MemoryRun owed P ∧ midFrame P = true := by
  have hplay : (Pool.play Api.code Worker.may (fun _ _ _ => true) sliceSchedule
      (.start (sessionInit false 4096))).any midFrame = true := by decide +kernel
  obtain ⟨P, hP, hmid⟩ := Option.any_eq_true _ _ |>.mp hplay
  obtain ⟨owed, hrun⟩ := Pool.play_keeps (R := fun P => ∃ owed, MemoryRun owed P) socketsOk_true
    (fun _ _ => rfl) (fun P Q i ⟨owed, hP⟩ hs _ => ⟨_, hP.step hs⟩)
    ⟨0, .start rfl fun _ _ h => by cases h⟩ hP
  exact ⟨owed, P, hrun, hmid⟩

theorem fits_midFrame : ∃ owed P, MemoryRun owed P ∧ P.state.newFrame = false ∧
    ∃ st, P.state.streams (hdrStreamId P.state.hdr) = some st ∧
      st.recvWindow.toNat + st.recvBuf.length ≤ 262144 ∧
      P.state.frameRemain.toNat ≤ st.recvWindow.toNat + min owed sliceSize := by
  obtain ⟨owed, P, hrun, hmid⟩ := run_midFrame
  simp only [midFrame, Bool.and_eq_true, Bool.not_eq_true', Option.any_eq_true] at hmid
  obtain ⟨hf, st, hst, -⟩ := hmid
  exact ⟨owed, P, hrun, hf, st, hst, (hrun.fits.1 _ st hst).1, (hrun.fits.2.1 hf st hst).1⟩

/-- What is left of a frame may be ahead of the window. -/
theorem slice_ahead : ¬ ∀ owed P, MemoryRun owed P →
    (∀ id st, P.state.streams id = some st →
      st.recvWindow.toNat + st.recvBuf.length ≤ 262144) ∧
    (P.state.newFrame = false → ∀ st, P.state.streams (hdrStreamId P.state.hdr) = some st →
      P.state.frameRemain.toNat ≤ st.recvWindow.toNat) := by
  intro hall
  obtain ⟨owed, P, hrun, hmid⟩ := run_midFrame
  simp only [midFrame, Bool.and_eq_true, Bool.not_eq_true', Option.any_eq_true,
    decide_eq_true_eq] at hmid
  obtain ⟨hf, st, hst, hlt⟩ := hmid
  exact absurd ((hall owed P hrun).2 hf st hst) (not_le.mpr hlt)

end MemoryRun

end Yamux
