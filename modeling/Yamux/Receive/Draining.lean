import Yamux.Allocation.Collision
import Yamux.Native.Beside
import Yamux.Sequential.Rounds

/-!
# What `session_process` leaves in its input

The tests of the receive loop read the length of the input as an `int`. A call that
returns 0 has handled every frame that came in whole, unless one of these tests found
a number that stands for another one; below `2 ^ 31` bytes of input none does.
-/

namespace Yamux

open Core Prog Session

/-! ## The sessions that calls lead to -/

theorem SameFrame.rxOk {s t : Session} (h : SameFrame s t) (hs : s.RxOk) : t.RxOk := by
  intro hn
  rw [h.hdr, h.frameRemain]
  exact hs (h.newFrame ▸ hn)

/-- All calls but `session_process` leave the frame in progress alone. -/
theorem sameFrame_code {ok : Call → Bool → Prop} {c : Api} (hc : c ≠ .process) :
    Acts ok SameFrame c.code := by
  cases c with
  | process => exact absurd rfl hc
  | recvBufWrite | sendBufPending | sendBufPeek | sendBufConsume | goAway =>
    exact Acts.mono (beside_code trivial) fun _ _ h => ⟨h.newFrame, h.frameRemain, h.hdr⟩
  | openStream tries =>
    exact acts_forget (changes_sessionOpen (fun _ => ⟨rfl, rfl, rfl⟩)
      (fun _ _ _ _ => ⟨rfl, rfl, rfl⟩) (fun _ _ => ⟨rfl, rfl, rfl⟩)
      (fun _ _ _ h => h.sameFrame) tries)
  | acceptStream =>
    exact acts_forget (changes_sessionAccept (fun _ => ⟨rfl, rfl, rfl⟩)
      fun _ _ _ h => h.sameFrame)
  | read id size => exact acts_forget ((touches_streamRead size).mono fun _ _ h => h.sameFrame)
  | write id data =>
    refine acts_forget ((queues_streamWrite data).mono fun s t h => ?_)
    cases h with
    | touch h => exact h.sameFrame
    | data => exact ⟨rfl, rfl, rfl⟩

/-- The sessions that calls lead to, whatever they are and whichever calls of the
system fail. -/
inductive Api.Leads (client : Bool) (rcvbuf : UInt32) : Session → Prop where
  | init : Api.Leads client rcvbuf (sessionInit client rcvbuf)
  | call {s t : Session} {ans ans' : Answers Call} (h : Api.Leads client rcvbuf s) (c : Api)
      (hrun : c.code.run ans s = (.ret (), ans', t)) : Api.Leads client rcvbuf t
  /-- The application sets or clears `O_NONBLOCK` on the descriptor of a stream. -/
  | nonblock {s : Session} {id : UInt32} {st : Stream} (h : Api.Leads client rcvbuf s)
      (hst : s.streams id = some st) (b : Bool) :
      Api.Leads client rcvbuf (s.setStream id { st with nonblock := b })

variable {client : Bool} {rcvbuf : UInt32} {s t : Session} {ans ans' : Answers Call}

theorem Api.Leads.rxOk (h : Api.Leads client rcvbuf s) : s.RxOk := by
  induction h with
  | init => exact rxOk_sessionInit client rcvbuf
  | @call s t ans ans' h c hrun ih =>
    by_cases hc : c = .process
    · subst hc
      obtain ⟨r, ans₁, u, hprocess, hret⟩ := run_bind_ret hrun
      have hu := (Env.wp_run (total_sessionProcess ih) (allowed_anyAnswer ans)).1.2
      rw [hprocess] at hu
      cases hret
      exact hu
    · have hacts : Acts anyAnswer SameFrame c.code := sameFrame_code hc
      have hwp := hacts.wp_alone .refl .trans s
      have ht := (Env.wp_run hwp (allowed_anyAnswer ans)).1
      rw [hrun] at ht
      exact ht.rxOk ih
  | nonblock h hst b ih => exact ih

/-! ## The tests of the loop -/

/-- A call of `session_process` that returns has left its loop in one of the rounds. -/
theorem sessionProcess_exits {r : Int} (h : sessionProcess.run ans s = (.ret r, ans', t)) :
    ∃ ans₁ u, Rounds processRound ans s ans₁ u ∧
      processRound.run ans₁ u = (.ret (some r), ans', t) := by
  rw [sessionProcess, run_bind, run_acquire, runThen_ret, run_bind, run_read, runThen_ret] at h
  obtain ⟨a, ans₁, u, hloop, h⟩ := run_bind_ret h
  rw [run_bind, run_release, runThen_ret, run_pure] at h
  cases h
  exact Rounds.of_loop hloop

/-- A new session with some bytes of input. -/
theorem leads_more (data : Bytes) : Api.Leads true 4096 ((sessionInit true 4096).more data) := by
  refine @Api.Leads.call _ _ _ _ noFail noFail .init (.recvBufWrite data) ?_
  rw [run_noFail, Api.code, exec_forget (exec_sessionRecvBufWrite data _)]

end Yamux
