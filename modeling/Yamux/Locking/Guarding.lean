import Yamux.Core.Refinement
import Yamux.Locking.Session

/-!
# What the mutexes guard

The receive mutex of the session guards its input and the frame in progress, the send mutex the
output, the mutex of the stream tree the set of streams. The three mutexes of a stream guard its
state, its receiving half and its sending half. A thread changes only what its mutexes guard; it
may also take a stream out of the tree.
-/

namespace Yamux

open Core Prog

/-! ## Parts -/

/-- What `recv_lock` guards of a stream. -/
def Stream.recvPart (st : Stream) : UInt32 × Bytes × Bool :=
  (st.recvWindow, st.recvBuf, st.readable)

/-- What `send_lock` guards of a stream. -/
def Stream.sendPart (st : Stream) : UInt32 × UInt32 × Bool :=
  (st.sendWindow, st.sendPadding, st.writeable)

/-- A stream that is there stays there, and this part of it is as it was. -/
def Session.KeepsPart {α : Type} (id : UInt32) (part : Stream → α) (s t : Session) : Prop :=
  ∀ st, s.streams id = some st → ∃ st', t.streams id = some st' ∧ part st' = part st

theorem Session.KeepsPart.refl {α : Type} (id : UInt32) (part : Stream → α) (s : Session) :
    s.KeepsPart id part s := fun st hst => ⟨st, hst, rfl⟩

theorem Session.KeepsPart.trans {α : Type} {id : UInt32} {part : Stream → α} {s t u : Session}
    (h : s.KeepsPart id part t) (h' : t.KeepsPart id part u) : s.KeepsPart id part u := by
  intro st hst
  obtain ⟨st', hst', hpart⟩ := h st hst
  obtain ⟨st'', hst'', hpart'⟩ := h' st' hst'
  exact ⟨st'', hst'', hpart'.trans hpart⟩

/-- What the mutex guards is as it was. -/
def Mutex.Guards (s t : Session) : Mutex → Prop
  | .sessionRecv => t.recvBuf = s.recvBuf ∧ t.newFrame = s.newFrame ∧
    t.frameRemain = s.frameRemain ∧ t.hdr = s.hdr
  | .sessionSend => t.sendBuf = s.sendBuf
  | .streams => ∀ id, (t.streams id).isSome = (s.streams id).isSome
  | .state id => s.KeepsPart id Stream.state t
  | .recv id => s.KeepsPart id Stream.recvPart t
  | .send id => s.KeepsPart id Stream.sendPart t

theorem Mutex.guards_refl (m : Mutex) (s : Session) : m.Guards s s := by
  cases m with
  | sessionRecv => exact ⟨rfl, rfl, rfl, rfl⟩
  | sessionSend => rfl
  | streams => exact fun _ => rfl
  | state id | recv id | send id => exact .refl id _ s

theorem Mutex.Guards.trans {m : Mutex} {s t u : Session} (h : m.Guards s t) (h' : m.Guards t u) :
    m.Guards s u := by
  cases m with
  | sessionRecv =>
    exact ⟨h'.1.trans h.1, h'.2.1.trans h.2.1, h'.2.2.1.trans h.2.2.1, h'.2.2.2.trans h.2.2.2⟩
  | sessionSend => exact Eq.trans h' h
  | streams => exact fun id => (h' id).trans (h id)
  | state id | recv id | send id => exact Session.KeepsPart.trans h h'

/-- A stream is taken out of the tree. -/
def Session.Removes (s t : Session) : Prop :=
  ∃ id, t = { s with streams := Function.update s.streams id none }

/-- What a thread with these mutexes may do. -/
def Allowed (H : Set Mutex) (s t : Session) : Prop :=
  (∀ m, m ∉ H → m.Guards s t) ∨ (Mutex.streams ∈ H ∧ s.Removes t)

/-- What the mutexes of a session are for. -/
def sharing (ok : Call → Bool → Prop) : Sharing Call Mutex Session where
  answers := ok
  keeps m s t := m.Guards s t
  allows := Allowed
  lasting := True
  keeps_refl := Mutex.guards_refl
  keeps_trans := Mutex.Guards.trans
  allows_refl _ s := .inl fun m _ => m.guards_refl s

/-! ## What is allowed -/

section Allowed

variable {H : Set Mutex} {s : Session} {id : UInt32}

/-- The changed parts of a stream are those of mutexes that are held. -/
structure Stream.Within (H : Set Mutex) (id : UInt32) (st st' : Stream) : Prop where
  state : .state id ∈ H ∨ st'.state = st.state
  recv : .recv id ∈ H ∨ st'.recvPart = st.recvPart
  send : .send id ∈ H ∨ st'.sendPart = st.sendPart

theorem Stream.Within.refl (H : Set Mutex) (id : UInt32) (st : Stream) : st.Within H id st :=
  ⟨.inr rfl, .inr rfl, .inr rfl⟩

/-- The streams are as they were. -/
theorem allowed_of_streams {t : Session} (hstreams : t.streams = s.streams)
    (hrecv : .sessionRecv ∈ H ∨ Mutex.sessionRecv.Guards s t)
    (hsend : .sessionSend ∈ H ∨ t.sendBuf = s.sendBuf) : Allowed H s t := by
  have hpart {α : Type} (part : Stream → α) (i : UInt32) : s.KeepsPart i part t :=
    fun st hst => ⟨st, by rw [hstreams, hst], rfl⟩
  refine .inl fun m hm => ?_
  cases m with
  | sessionRecv => exact hrecv.resolve_left hm
  | sessionSend => exact hsend.resolve_left hm
  | streams => exact fun i => by rw [hstreams]
  | state i | recv i | send i => exact hpart _ i

end Allowed

end Yamux
