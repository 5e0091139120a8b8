import Yamux.Sequential.Process
import Yamux.Receive.Totality

/-!
# The loop of `session_process` run alone

One round of the loop as a function of the session, and a whole call as a chain
of rounds. Termination comes from the receive path's totality.
-/

namespace Yamux

open Core Prog

namespace Session

/-- Read the header of a new frame. -/
def header (s : Session) : Session :=
  { s with hdr := s.recvBuf.take hdrSize, recvBuf := s.recvBuf.drop hdrSize }

/-- The loop has to wait for more input. -/
def Starved (s : Session) : Prop :=
  s.recvBuf = [] ∨ (s.newFrame = true ∧ s.recvBuf.length < hdrSize)

instance (s : Session) : Decidable s.Starved := inferInstanceAs (Decidable (_ ∨ _))

/-- What the next round of the loop of `session_process` does first, `none` where
it has to wait for more input. -/
def front (s : Session) : Option Entry :=
  if s.Starved then none
  else if s.newFrame then
    if hdrVersion s.header.hdr = VERSION then some s.header.handle
    else some (.done (-1) s.header)
  else some s.handle

/-- One round of the loop of `session_process`. -/
def round (s : Session) : Option Int × Session :=
  match s.front with
  | none => (some 0, s)
  | some e => (if e.finish.1 ≠ 0 then some (-1) else none, e.finish.2)

section Round

variable {s : Session}

theorem front_starved (h : s.Starved) : s.front = none := if_pos h

theorem front_new (h : ¬ s.Starved) (hn : s.newFrame = true) :
    s.front = if hdrVersion s.header.hdr = VERSION then some s.header.handle
      else some (.done (-1) s.header) := by
  rw [front, if_neg h, if_pos hn]

theorem front_mid (h : ¬ s.Starved) (hn : s.newFrame = false) : s.front = some s.handle := by
  rw [front, if_neg h, hn, if_neg Bool.false_ne_true]

theorem round_starved (h : s.Starved) : s.round = (some 0, s) := by
  rw [round, front_starved h]

theorem round_some {e : Entry} (h : s.front = some e) :
    s.round = (if e.finish.1 ≠ 0 then some (-1) else none, e.finish.2) := by
  rw [round, h]

end Round

end Session

open Session

variable {s : Session}

theorem exec_processRound (hok : s.RxOk) (hlen : s.recvBuf.length < 2 ^ 31) :
    processRound.exec s = (.ret s.round.1, s.round.2) := by
  have hz : bioPending s.recvBuf = 0 ↔ s.recvBuf = [] := bioPending_eq_zero hlen
  have hverdict {t : Session} (ht : t.recvBuf.length < 2 ^ 31)
      (hd : t.newFrame = true ∨ hdrType t.hdr = TYPE_DATA) (hfront : s.front = some t.handle) :
      (do
        let r ← sessionHandle
        pure (if r ≠ 0 then some (-1) else none) : Op (Option Int)).exec t =
      (.ret s.round.1, s.round.2) := by
    rw [exec_bind, exec_sessionHandle ht hd, ended, andThen_ret, exec_pure, round_some hfront]
  simp only [processRound, exec_bind, exec_read, andThen_ret]
  by_cases he : s.recvBuf = []
  · rw [if_pos (hz.mpr he), exec_pure, round_starved (.inl he)]
  · rw [if_neg (mt hz.mp he)]
    by_cases hs : s.newFrame = true ∧ s.recvBuf.length < hdrSize
    · rw [if_pos ⟨hs.1, by rw [bioPending_eq hlen]; exact_mod_cast hs.2⟩, exec_pure,
        round_starved (.inr hs)]
    · have hs' : ¬ (s.newFrame = true ∧ bioPending s.recvBuf < hdrSize) := by
        rw [bioPending_eq hlen]
        exact_mod_cast hs
      have hfed : ¬ s.Starved := not_or.mpr ⟨he, hs⟩
      rw [if_neg hs']
      cases hn : s.newFrame
      · rw [← hverdict hlen (.inr (hok hn).1) (front_mid hfed hn)]
        simp only [Bool.false_eq_true, if_false, exec_bind, exec_pure, andThen_ret, if_true]
      · have htake : (s.recvBuf.take hdrSize).length = hdrSize := by
          rw [List.length_take, min_eq_left]
          exact Nat.le_of_not_lt fun h => hs ⟨hn, h⟩
        have hdrop : (s.recvBuf.drop hdrSize).length < 2 ^ 31 := by
          rw [List.length_drop]
          omega
        have hfront := front_new hfed hn
        simp only [if_true, readHeader, exec_bind, exec_crit, andThen_ret, exec_check, htake,
          decide_true, exec_pure, decide_eq_true_eq]
        by_cases hv : hdrVersion (s.recvBuf.take hdrSize) = VERSION
        · rw [if_pos hv]
          exact hverdict hdrop (.inl hn) (hfront.trans (if_pos hv))
        · rw [if_neg hv, exec_pure, round_some (hfront.trans (if_neg hv))]
          rfl

/-- What is known of the session after a round. -/
theorem round_end (hok : s.RxOk) (hlen : s.recvBuf.length < 2 ^ 31) :
    s.round.2.RxOk ∧ s.round.2.recvBuf.length ≤ s.recvBuf.length ∧
      (s.round.1 = none → s.round.2.recvBuf.length < s.recvBuf.length) := by
  have h := Env.wp_exec socketsOk_true (total_processRound hok)
  rw [exec_processRound hok hlen] at h
  obtain ⟨hrx, hle, hend⟩ := h
  refine ⟨hrx, hle, fun hn => ?_⟩
  rcases hend with ⟨r, hr⟩ | ⟨-, hlt⟩
  · rw [hn] at hr
    cases hr
  · exact hlt

/-- A call of `session_process` started in `s` ends in `t` with result `r`. -/
inductive Session.Processes : Session → Int → Session → Prop where
  | exit {s t : Session} {r : Int} (h : s.round = (some r, t)) : Processes s r t
  | next {s t u : Session} {r : Int} (h : s.round = (none, t)) (hr : Processes t r u) :
      Processes s r u

/-- A round of the loop, started in `s`, has started rounds in `t`. -/
inductive Session.Passes (s : Session) : Session → Prop where
  | start : Passes s s
  | next {t u : Session} (h : Passes s t) (hr : t.round = (none, u)) : Passes s u

theorem exec_processLoop {n : Nat} (hok : s.RxOk) (hlen : s.recvBuf.length < 2 ^ 31)
    (hn : s.recvBuf.length < n) :
    ∃ r t, (loop n processRound).exec s = (.ret r, t) ∧ Processes s r t := by
  induction n generalizing s with
  | zero => omega
  | succ n ih =>
    obtain ⟨hrx, hle, hlt⟩ := round_end hok hlen
    rw [exec_loop_succ, exec_processRound hok hlen, andThen_ret]
    cases hr : s.round with
    | mk res t =>
      rw [hr] at hrx hle hlt
      cases res with
      | some r => exact ⟨r, t, rfl, .exit hr⟩
      | none =>
        obtain ⟨r, u, he, hp⟩ := ih hrx (hle.trans_lt hlen) (by have := hlt rfl; omega)
        exact ⟨r, u, he, .next hr hp⟩

/-- A call of `session_process` is a chain of rounds. -/
theorem exec_sessionProcess (hok : s.RxOk) (hlen : s.recvBuf.length < 2 ^ 31) :
    ∃ r t, sessionProcess.exec s = (.ret r, t) ∧ Processes s r t := by
  obtain ⟨r, t, he, hp⟩ := exec_processLoop hok hlen (Nat.lt_succ_self _)
  refine ⟨r, t, ?_, hp⟩
  simp only [sessionProcess, exec_bind, exec_acquire, andThen_ret, exec_read, he, exec_release,
    exec_pure]

/-- Rounds determine the result. -/
theorem Session.Processes.unique {r r' : Int} {t t' : Session} (h : Processes s r t)
    (h' : Processes s r' t') : r = r' ∧ t = t' := by
  induction h with
  | exit hr =>
    cases h' with
    | exit hr' =>
      rw [hr] at hr'
      cases hr'
      exact ⟨rfl, rfl⟩
    | next hr' _ =>
      rw [hr] at hr'
      cases hr'
  | next hr _ ih =>
    cases h' with
    | exit hr' =>
      rw [hr] at hr'
      cases hr'
    | next hr' hp =>
      rw [hr] at hr'
      cases hr'
      exact ih hp

/-- The effect of `session_recv_buf_write`. -/
def Session.more (s : Session) (data : Bytes) : Session := { s with recvBuf := s.recvBuf ++ data }

theorem exec_sessionRecvBufWrite (data : Bytes) (s : Session) :
    (sessionRecvBufWrite data).exec s = (.ret (toInt32 data.length), s.more data) := by
  simp [sessionRecvBufWrite, Session.more]

end Yamux
