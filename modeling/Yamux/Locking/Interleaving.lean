import Yamux.Locking.Discipline
import Yamux.Locking.SessionSections

/-!
# Critical sections in any schedule

Any number of threads make any calls, one after the other, from any state. As long as no stream
is freed that another thread uses, what a thread changes is guarded by no mutex of the others.
So the code with explicit mutexes and the model with atomic sections show the same: the states
of a run of the one are states of a run of the other, with the same calls in progress. A failed
assertion leaves its section open in the code, hence the way back ends there.
-/

namespace Yamux.Locking

open Core Prog

variable {τ : Type} {ok : Call → Bool → Prop} {may : τ → Api → Prop} {s : Session}
  {P Q : Pool Call Mutex Session Api τ} {i j : τ}

/-! ## Streams in use -/

/-- The thread owns a mutex of the stream. -/
def Uses (P : Pool Call Mutex Session Api τ) (j : τ) (id : UInt32) : Prop :=
  P.owner (.state id) = some j ∨ P.owner (.recv id) = some j ∨ P.owner (.send id) = some j

/-- Between the two pools no stream is freed that another thread than `i` uses. -/
def KeepsUsed (i : τ) (P Q : Pool Call Mutex Session Api τ) : Prop :=
  ∀ j, j ≠ i → ∀ id, Uses P j id → (P.state.streams id).isSome → (Q.state.streams id).isSome

variable [DecidableEq τ]

/-- A run in which no stream is freed that another thread uses. -/
inductive Run (code : Api → Op Unit) (may : τ → Api → Prop) (ok : Call → Bool → Prop)
    (s : Session) : Pool Call Mutex Session Api τ → Prop where
  | start : Run code may ok s (.start s)
  | step {P Q : Pool Call Mutex Session Api τ} {i : τ} (h : Run code may ok s P)
      (hs : Pool.Step code may ok i P Q) (hused : KeepsUsed i P Q) : Run code may ok s Q

end Yamux.Locking
