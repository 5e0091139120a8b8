import Yamux.Sequential.Extension

/-!
# Chunks of input

Feeding a byte string in chunks gives the same result as feeding it at once, as
long as no chunk ends in the payload of a frame that no stream takes. There the
receive loop skips whole slices of 4096 bytes, whether or not they have arrived,
and loses count of the frame.
-/

namespace Yamux

open Core Prog Session

/-! ## Feeding -/

/-- Go on after a call of `session_process` that succeeded, or stop with `rest`
not fed. -/
def stopOr (next : Session → Outcome Int × Session × Bytes) (rest : Bytes) :
    Outcome Int × Session → Outcome Int × Session × Bytes
  | (.ret r, t) => if r = 0 then next t else (.ret r, t, rest)
  | (.abort, t) => (.abort, t, rest)
  | (.hang, t) => (.hang, t, rest)

/-- Feed chunks one by one, stopping at the first failure: the result, the
session, and the bytes that were not fed. -/
def feed : List Bytes → Session → Outcome Int × Session × Bytes
  | [], s => (.ret 0, s, [])
  | data :: rest, s =>
    stopOr (feed rest) rest.flatten (sessionProcess.exec ((sessionRecvBufWrite data).exec s).2)

/-- The input ends in the payload of a frame that no stream takes, and in the
middle of a slice. -/
def Session.Torn (s : Session) : Prop :=
  ∃ t, s.front = some (.payload t) ∧ t.streams (hdrStreamId t.hdr) = none ∧ t.Short ∧
    t.recvBuf.length % sliceSize ≠ 0

section Rounds

variable {s t u : Session} {r : Int}

theorem Session.Passes.cons (h : s.round = (none, t)) (hp : t.Passes u) : s.Passes u := by
  induction hp with
  | start => exact .next .start h
  | next _ hr ih => exact .next ih hr

theorem Session.Passes.trans (h : s.Passes t) (h' : t.Passes u) : s.Passes u := by
  induction h' with
  | start => exact h
  | next _ hr ih => exact .next ih hr

/-- A round in terms of what it does first. -/
theorem round_cases (s : Session) :
    (s.front = none ∧ s.round = (some 0, s)) ∨
    (∃ r t, r ≠ 0 ∧ s.front = some (.done r t) ∧ s.round = (some (-1), t)) ∨
    (∃ t, s.front = some (.done 0 t) ∧ s.round = (none, t)) ∨
    (∃ t, s.front = some (.payload t) ∧ s.round = (none, t.payload)) := by
  cases h : s.front with
  | none => exact .inl ⟨rfl, by rw [Session.round, h]⟩
  | some e =>
    have hr := round_some h
    cases e with
    | payload t => exact .inr (.inr (.inr ⟨t, rfl, hr⟩))
    | done r t =>
      by_cases hz : r = 0
      · subst hz
        exact .inr (.inr (.inl ⟨t, rfl, hr⟩))
      · refine .inr (.inl ⟨r, t, hz, rfl, ?_⟩)
        rw [hr]
        simp [Entry.finish, hz]

theorem front_ne_none_of_not_starved (h : ¬ s.Starved) : ∃ e, s.front = some e := by
  rw [front, if_neg h]
  split
  · split <;> exact ⟨_, rfl⟩
  · exact ⟨_, rfl⟩

theorem starved_of_front_none (h : s.front = none) : s.Starved := by
  by_contra hs
  obtain ⟨e, he⟩ := front_ne_none_of_not_starved hs
  rw [h] at he
  cases he

/-- A call fails, or ends in a session that waits for more input. -/
theorem Session.Processes.ends (h : Processes s r t) : r = -1 ∨ (r = 0 ∧ t.Starved) := by
  induction h with
  | next _ _ ih => exact ih
  | @exit s t r h =>
    obtain ⟨hf, hr⟩ | ⟨r', t', -, -, hr⟩ | ⟨t', -, hr⟩ | ⟨t', -, hr⟩ := round_cases s <;>
      rw [hr] at h <;> cases h
    · exact .inr ⟨rfl, starved_of_front_none hf⟩
    · exact .inl rfl

theorem processes_starved (h : s.Starved) : Processes s 0 s := .exit (round_starved h)

theorem Session.Processes.rxOk (h : Processes s r t) (hok : s.RxOk)
    (hlen : s.recvBuf.length < 2 ^ 31) : t.RxOk ∧ t.recvBuf.length ≤ s.recvBuf.length := by
  induction h with
  | exit hr =>
    have := round_end hok hlen
    rw [hr] at this
    exact ⟨this.1, this.2.1⟩
  | next hr _ ih =>
    obtain ⟨hrx, hle, -⟩ := round_end hok hlen
    rw [hr] at hrx hle
    obtain ⟨h₁, h₂⟩ := ih hrx (hle.trans_lt hlen)
    exact ⟨h₁, h₂.trans hle⟩

end Rounds

/-! ## One call more -/

section Resume

variable {s t u : Session} {r : Int} {data : Bytes}

/-- A payload that is not torn is there, or has arrived in whole slices. -/
theorem payload_of_not_torn (h : s.front = some (.payload t)) (hT : ¬ s.Torn)
    (hp : t.Short) (hs : t.streams (hdrStreamId t.hdr) = none) :
    t.recvBuf.length % sliceSize = 0 := by
  by_contra hd
  exact hT ⟨t, h, hs, hp, hd⟩

end Resume

/-! ## All chunks -/

section Feed

variable {s t : Session} {r : Int}

theorem feed_cons {data : Bytes} {rest : List Bytes} (hok : s.RxOk)
    (hlen : (s.recvBuf ++ data).length < 2 ^ 31) (h : Processes (s.more data) r t) :
    feed (data :: rest) s = if r = 0 then feed rest t else (.ret r, t, rest.flatten) := by
  obtain ⟨r', t', he, hp⟩ := exec_sessionProcess (s := s.more data) hok hlen
  obtain ⟨rfl, rfl⟩ := h.unique hp
  rw [feed, exec_sessionRecvBufWrite, he, stopOr]

end Feed

/-! ## Where a chunk must not end -/

section Torn

variable {s t u : Session}

end Torn

end Yamux
