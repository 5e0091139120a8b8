import Yamux.Locking.Order

/-!
# The discipline of the mutexes

Any number of threads make any calls, one after the other, from any state. Since every
call is ordered on its own, no schedule, input or failure leads to a thread that locks
out of order, gives back what it does not own, or rests with a mutex, and threads do not
wait for each other in a circle.
-/

namespace Yamux.Locking

open Core Prog

variable {τ : Type} {P : Pool Call Mutex Session Api τ}

/-- What threads may do with the mutexes of a session. -/
structure LockDiscipline (P : Pool Call Mutex Session Api τ) : Prop where
  /-- A mutex that a thread owns is not locked by it again. -/
  relock : ∀ {i m}, P.Awaits i m → P.owner m ≠ some i
  order : ∀ {i m m'}, P.Awaits i m → P.owner m' = some i → m'.level < m.level
  /-- The send mutex and the receive mutex of streams are not owned together. -/
  apart : ∀ {i id id'}, P.owner (.send id) = some i → P.owner (.recv id') ≠ some i
  /-- Under the mutex of the stream tree nothing is locked. -/
  innermost : ∀ {i m}, P.Awaits i m → P.owner .streams ≠ some i
  unlock : ∀ {i c m k}, P.threads i = some (c, .unlock m k) → P.owner m = some i
  /-- A call returns, blocks and starts over without mutexes. -/
  rest : ∀ {i m}, P.Rests i → P.owner m ≠ some i
  deadlock : ∀ S, ¬ P.Deadlocked S

/-- The order of the levels is the whole discipline. -/
theorem LockDiscipline.of_disciplined (h : P.Disciplined Mutex.level) : LockDiscipline P where
  relock hwaits hown := lt_irrefl _ (h.order hwaits hown)
  order := h.order
  apart := by
    intro i id id' hsend hrecv
    have hlevels := h.apart hsend hrecv nofun
    simp [Mutex.level] at hlevels
  innermost := by
    intro i m hwaits hown
    have hlevel := h.order hwaits hown
    exact absurd (Fin.le_last m.level) (not_le_of_gt hlevel)
  unlock := h.unlock
  rest hrest := h.rest hrest _
  deadlock := h.not_deadlocked

variable [DecidableEq τ] {may : τ → Api → Prop} {s : Session}

/-- Threads that make calls of `mux.c` keep the discipline. -/
theorem disciplined (h : Pool.Reachable code may (fun _ _ => True) s P) :
    P.Disciplined Mutex.level := h.disciplined givesBack_code

/-- Whatever threads call `mux.c` in whatever schedule, and whatever fails in their calls,
they take mutexes in order and none twice, give back all that they take, and do not
deadlock on them. -/
theorem lock_discipline (h : Pool.Reachable code (fun _ _ => True) (fun _ _ => True) s P) :
    LockDiscipline P :=
  .of_disciplined (disciplined h)

/-- A session in which a FIN frame for an established stream has arrived. -/
def closing : Session :=
  { (sessionInit true 4096).setStream 1 (.fresh .established 4096) with
    recvBuf := hdrEncode TYPE_DATA FLAG_FIN 1 0 }

/-- The receive path wakes the readers of the stream when one begins to read. -/
def closingSchedule : List (Bool × Option Api) :=
  Pool.begins false .process 19 ++ Pool.begins true (.read 1 1) 0

/-- The reader waits for the state mutex, under which the receive path has taken the
receive mutex. -/
theorem lock_discipline_closing : ∃ P : Pool Call Mutex Session Api Bool,
    P.owner .sessionRecv = some false ∧ P.owner (.state 1) = some false ∧
      P.owner (.recv 1) = some false ∧ P.advance code true = none ∧ LockDiscipline P := by
  have hplay : (Pool.play code (fun _ _ => True) (fun _ _ _ => true) closingSchedule
      (.start closing)).any (fun P => decide (P.owner .sessionRecv = some false) &&
        decide (P.owner (.state 1) = some false) && decide (P.owner (.recv 1) = some false) &&
        (P.advance code true).isNone) = true := by decide +kernel
  obtain ⟨P, hP, hrest⟩ := Option.any_eq_true _ _ |>.mp hplay
  simp only [Bool.and_eq_true, decide_eq_true_eq, Option.isNone_iff_eq_none] at hrest
  obtain ⟨⟨⟨hprocess, hstate⟩, hrecv⟩, hblocked⟩ := hrest
  have hreach : Pool.Reachable code (fun _ _ => True) (fun _ _ => True) closing P :=
    .play (fun _ => trivial) (fun _ _ => rfl) hP
  exact ⟨P, hprocess, hstate, hrecv, hblocked, lock_discipline hreach⟩

/-- Of the threads that own mutexes one does not wait for another thread. -/
theorem exists_unblocked (h : Pool.Reachable code may (fun _ _ => True) s P) {i : τ} {m : Mutex}
    (hm : P.owner m = some i) :
    ∃ j, (∃ m, P.owner m = some j) ∧ ∀ m, P.Awaits j m → P.owner m = none := by
  obtain ⟨j, -, hown, hfree⟩ := (disciplined h).exists_unblocked (Set.mem_univ i) hm
  exact ⟨j, hown, fun m hwaits => Option.eq_none_iff_forall_ne_some.mpr
    fun k => hfree m hwaits k (Set.mem_univ k)⟩

end Yamux.Locking
