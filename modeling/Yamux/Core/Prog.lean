import Mathlib.Logic.Function.Basic

/-!
# Programs over a shared state

A program is a tree of atomic actions. An action names the mutexes under which
it runs, changes the state, and chooses the rest of the program from the state
it found. Calls whose outcome belongs to the environment are questions with a
Boolean answer, so one tree is read three ways: alone with every call succeeding
(`exec`), alone with a given pattern of answers (`run`), and under interference
(`Env.wp`).
-/

namespace Core

/-- How a program ends: with a value, on a failed assertion, or never. -/
inductive Outcome (α : Type) where
  | ret (a : α)
  | abort
  | hang
  deriving DecidableEq, Repr

/-- Programs over states `σ`, calls `ι` the environment answers, and mutexes `μ`. -/
inductive Prog (ι μ σ α : Type) : Type where
  /-- The program has returned. -/
  | ret (a : α)
  /-- One atomic action, inside which the listed mutexes are taken and released. -/
  | act (ms : List μ) (f : σ → σ) (k : σ → Prog ι μ σ α)
  /-- A call that the environment lets succeed or fail. -/
  | ask (c : ι) (k : Bool → Prog ι μ σ α)
  | lock (m : μ) (k : Prog ι μ σ α)
  | unlock (m : μ) (k : Prog ι μ σ α)
  /-- Wait until the state satisfies the condition. -/
  | wait (c : σ → Bool) (k : Prog ι μ σ α)
  /-- Go back to the beginning of the whole program. -/
  | again
  /-- A failed assertion. -/
  | abort

namespace Prog

variable {ι μ σ α β : Type}

/-- Sequential composition. -/
protected def bind : Prog ι μ σ α → (α → Prog ι μ σ β) → Prog ι μ σ β
  | .ret a, g => g a
  | .act ms f k, g => .act ms f fun s => (k s).bind g
  | .ask c k, g => .ask c fun b => (k b).bind g
  | .lock m k, g => .lock m (k.bind g)
  | .unlock m k, g => .unlock m (k.bind g)
  | .wait c k, g => .wait c (k.bind g)
  | .again, _ => .again
  | .abort, _ => .abort

instance : Monad (Prog ι μ σ) where
  pure := .ret
  bind := Prog.bind

theorem bind_eq (p : Prog ι μ σ α) (g : α → Prog ι μ σ β) : p >>= g = p.bind g := rfl

/-! ## Building blocks -/

/-- A critical section: read a result off the state and update it, in one action. -/
def crit (ms : List μ) (g : σ → α × σ) : Prog ι μ σ α :=
  .act ms (fun s => (g s).2) fun s => .ret (g s).1

/-- Read the state under the mutexes `ms`. -/
def read (ms : List μ) (g : σ → α) : Prog ι μ σ α := crit ms fun s => (g s, s)

/-- Update the state under the mutexes `ms`. -/
def modify (ms : List μ) (f : σ → σ) : Prog ι μ σ Unit := crit ms fun s => ((), f s)

/-- The answer of the environment to a call. -/
def query (c : ι) : Prog ι μ σ Bool := .ask c .ret

def acquire (m : μ) : Prog ι μ σ Unit := .lock m (.ret ())

def release (m : μ) : Prog ι μ σ Unit := .unlock m (.ret ())

/-- Block until the condition holds. -/
def await (c : σ → Bool) : Prog ι μ σ Unit := .wait c (.ret ())

/-- An assertion. -/
def check (b : Bool) : Prog ι μ σ Unit := if b then .ret () else .abort

/-- At most `n` rounds of `body`, which exits with `some` result or goes round
with `none`. Running out of rounds blocks for ever. -/
def loop : Nat → Prog ι μ σ (Option α) → Prog ι μ σ α
  | 0, _ => .wait (fun _ => false) .again
  | n + 1, body => body.bind fun
    | some a => .ret a
    | none => loop n body

/-! ## Alone, every call succeeding -/

/-- Run to the end with every question answered yes. Waiting for a condition
that does not hold, or starting over from an unchanged state, never ends. -/
def exec : Prog ι μ σ α → σ → Outcome α × σ
  | .ret a, s => (.ret a, s)
  | .act _ f k, s => (k s).exec (f s)
  | .ask _ k, s => (k true).exec s
  | .lock _ k, s => k.exec s
  | .unlock _ k, s => k.exec s
  | .wait c k, s => if c s then k.exec s else (.hang, s)
  | .again, s => (.hang, s)
  | .abort, s => (.abort, s)

/-- Continue from the end of a first program. -/
def andThen (g : α → Prog ι μ σ β) : Outcome α × σ → Outcome β × σ
  | (.ret a, s) => (g a).exec s
  | (.abort, s) => (.abort, s)
  | (.hang, s) => (.hang, s)

@[simp] theorem andThen_ret (g : α → Prog ι μ σ β) (a : α) (s : σ) :
    andThen g (.ret a, s) = (g a).exec s := rfl

@[simp] theorem andThen_abort (g : α → Prog ι μ σ β) (s : σ) :
    andThen g (.abort, s) = (.abort, s) := rfl

@[simp] theorem andThen_hang (g : α → Prog ι μ σ β) (s : σ) :
    andThen g (.hang, s) = (.hang, s) := rfl

/-- Composition runs the second program from the end of the first. -/
@[simp] theorem exec_bind (p : Prog ι μ σ α) (g : α → Prog ι μ σ β) (s : σ) :
    (p >>= g).exec s = andThen g (p.exec s) := by
  rw [bind_eq]
  induction p generalizing s with
  | ret | again | abort => rfl
  | act ms f k ih => exact ih s (f s)
  | ask c k ih => exact ih true s
  | lock m k ih | unlock m k ih => exact ih s
  | wait c k ih =>
    simp only [Prog.bind, exec]
    split
    · exact ih s
    · rfl

@[simp] theorem exec_pure (a : α) (s : σ) : (pure a : Prog ι μ σ α).exec s = (.ret a, s) := rfl

@[simp] theorem exec_crit (ms : List μ) (g : σ → α × σ) (s : σ) :
    (crit ms g : Prog ι μ σ α).exec s = (.ret (g s).1, (g s).2) := rfl

@[simp] theorem exec_read (ms : List μ) (g : σ → α) (s : σ) :
    (read ms g : Prog ι μ σ α).exec s = (.ret (g s), s) := rfl

@[simp] theorem exec_modify (ms : List μ) (f : σ → σ) (s : σ) :
    (modify ms f : Prog ι μ σ Unit).exec s = (.ret (), f s) := rfl

@[simp] theorem exec_query (c : ι) (s : σ) :
    (query c : Prog ι μ σ Bool).exec s = (.ret true, s) := rfl

@[simp] theorem exec_acquire (m : μ) (s : σ) :
    (acquire m : Prog ι μ σ Unit).exec s = (.ret (), s) := rfl

@[simp] theorem exec_release (m : μ) (s : σ) :
    (release m : Prog ι μ σ Unit).exec s = (.ret (), s) := rfl

@[simp] theorem exec_await (c : σ → Bool) (s : σ) :
    (await c : Prog ι μ σ Unit).exec s = if c s then (.ret (), s) else (.hang, s) := rfl

@[simp] theorem exec_check (b : Bool) (s : σ) :
    (check b : Prog ι μ σ Unit).exec s = if b then (.ret (), s) else (.abort, s) := by
  cases b <;> rfl

@[simp] theorem exec_again (s : σ) : (again : Prog ι μ σ α).exec s = (.hang, s) := rfl

@[simp] theorem exec_abort (s : σ) : (abort : Prog ι μ σ α).exec s = (.abort, s) := rfl

/-! ## Alone, with given answers -/

/-- The answers still to come, for each call; a used-up list answers yes. -/
abbrev Answers (ι : Type) := ι → List Bool

/-- No call ever fails. -/
def noFail : Answers ι := fun _ => []

section Run

variable [DecidableEq ι]

/-- Drop the answer just given to `c`. -/
def Answers.next (ans : Answers ι) (c : ι) : Answers ι := Function.update ans c (ans c).tail

@[simp] theorem Answers.next_same (ans : Answers ι) (c : ι) :
    ans.next c c = (ans c).tail := by
  simp [Answers.next]

theorem Answers.next_of_ne (ans : Answers ι) {c d : ι} (h : d ≠ c) : ans.next c d = ans d := by
  simp [Answers.next, h]

@[simp] theorem noFail_next (c : ι) : Answers.next (noFail : Answers ι) c = noFail :=
  Function.update_eq_self c noFail

/-- Run to the end with the given answers. -/
def run : Prog ι μ σ α → Answers ι → σ → Outcome α × Answers ι × σ
  | .ret a, ans, s => (.ret a, ans, s)
  | .act _ f k, ans, s => (k s).run ans (f s)
  | .ask c k, ans, s => (k ((ans c).headD true)).run (ans.next c) s
  | .lock _ k, ans, s => k.run ans s
  | .unlock _ k, ans, s => k.run ans s
  | .wait c k, ans, s => if c s then k.run ans s else (.hang, ans, s)
  | .again, ans, s => (.hang, ans, s)
  | .abort, ans, s => (.abort, ans, s)

/-- A run without failures is `exec`. -/
theorem run_noFail (p : Prog ι μ σ α) (s : σ) :
    p.run noFail s = ((p.exec s).1, noFail, (p.exec s).2) := by
  induction p generalizing s with
  | ret | again | abort => rfl
  | act ms f k ih => exact ih s (f s)
  | ask c k ih =>
    simp only [run, noFail_next, exec]
    exact ih true s
  | lock m k ih | unlock m k ih => exact ih s
  | wait c k ih =>
    simp only [run, exec]
    split
    · exact ih s
    · rfl

/-- Continue a run from the end of a first program. -/
def runThen (g : α → Prog ι μ σ β) : Outcome α × Answers ι × σ → Outcome β × Answers ι × σ
  | (.ret a, ans, s) => (g a).run ans s
  | (.abort, ans, s) => (.abort, ans, s)
  | (.hang, ans, s) => (.hang, ans, s)

@[simp] theorem runThen_ret (g : α → Prog ι μ σ β) (a : α) (r : Answers ι × σ) :
    runThen g (.ret a, r) = (g a).run r.1 r.2 := rfl

@[simp] theorem runThen_abort (g : α → Prog ι μ σ β) (r : Answers ι × σ) :
    runThen g (.abort, r) = (.abort, r) := rfl

@[simp] theorem runThen_hang (g : α → Prog ι μ σ β) (r : Answers ι × σ) :
    runThen g (.hang, r) = (.hang, r) := rfl

@[simp] theorem run_pure (a : α) (ans : Answers ι) (s : σ) :
    (pure a : Prog ι μ σ α).run ans s = (.ret a, ans, s) := rfl

@[simp] theorem run_read (ms : List μ) (g : σ → α) (ans : Answers ι) (s : σ) :
    (read ms g : Prog ι μ σ α).run ans s = (.ret (g s), ans, s) := rfl

@[simp] theorem run_crit (ms : List μ) (g : σ → α × σ) (ans : Answers ι) (s : σ) :
    (crit ms g : Prog ι μ σ α).run ans s = (.ret (g s).1, ans, (g s).2) := rfl

@[simp] theorem run_modify (ms : List μ) (f : σ → σ) (ans : Answers ι) (s : σ) :
    (modify ms f : Prog ι μ σ Unit).run ans s = (.ret (), ans, f s) := rfl

@[simp] theorem run_query (c : ι) (ans : Answers ι) (s : σ) :
    (query c : Prog ι μ σ Bool).run ans s = (.ret ((ans c).headD true), ans.next c, s) := rfl

@[simp] theorem run_check (b : Bool) (ans : Answers ι) (s : σ) :
    (check b : Prog ι μ σ Unit).run ans s =
      if b then (.ret (), ans, s) else (.abort, ans, s) := by
  cases b <;> rfl

@[simp] theorem run_acquire (m : μ) (ans : Answers ι) (s : σ) :
    (acquire m : Prog ι μ σ Unit).run ans s = (.ret (), ans, s) := rfl

@[simp] theorem run_release (m : μ) (ans : Answers ι) (s : σ) :
    (release m : Prog ι μ σ Unit).run ans s = (.ret (), ans, s) := rfl

@[simp] theorem run_bind (p : Prog ι μ σ α) (g : α → Prog ι μ σ β) (ans : Answers ι) (s : σ) :
    (p >>= g).run ans s = runThen g (p.run ans s) := by
  rw [bind_eq]
  induction p generalizing ans s with
  | ret | again | abort => rfl
  | act ms f k ih => exact ih s ans (f s)
  | ask c k ih => exact ih _ (ans.next c) s
  | lock m k ih | unlock m k ih => exact ih ans s
  | wait c k ih =>
    simp only [Prog.bind, run]
    split
    · exact ih ans s
    · rfl

/-- A composition that returns has run both programs to their ends. -/
theorem run_bind_ret {p : Prog ι μ σ α} {g : α → Prog ι μ σ β} {ans ans' : Answers ι} {s t : σ}
    {b : β} (h : (p >>= g).run ans s = (.ret b, ans', t)) :
    ∃ a ans₁ u, p.run ans s = (.ret a, ans₁, u) ∧ (g a).run ans₁ u = (.ret b, ans', t) := by
  rw [run_bind] at h
  cases hp : p.run ans s with
  | mk o rest =>
    rw [hp] at h
    cases o with
    | ret a => exact ⟨a, rest.1, rest.2, rfl, h⟩
    | abort => cases h
    | hang => cases h

/-- A program that waits and then starts over does not return. -/
theorem run_await_again {c : σ → Bool} {ans ans' : Answers ι} {s t : σ} {b : β} :
    (await c >>= fun _ => (again : Prog ι μ σ β)).run ans s ≠ (.ret b, ans', t) := by
  intro h
  rw [await, bind_eq] at h
  simp only [Prog.bind, run] at h
  split at h <;> cases h

/-- The states in which a loop starts a round, with the answers still to come. -/
inductive Rounds (body : Prog ι μ σ (Option α)) (ans : Answers ι) (s : σ) :
    Answers ι → σ → Prop where
  | start : Rounds body ans s ans s
  | next {ans' ans'' : Answers ι} {t u : σ} (h : Rounds body ans s ans' t)
      (hr : body.run ans' t = (.ret none, ans'', u)) : Rounds body ans s ans'' u

/-- What every round of a loop keeps holds at its end. -/
theorem run_loop {body : Prog ι μ σ (Option α)} {ans : Answers ι} {s : σ} {I : σ → Prop}
    (h : ∀ ans' t, Rounds body ans s ans' t → I t → I (body.run ans' t).2.2) (hs : I s)
    (n : Nat) : I ((loop n body).run ans s).2.2 := by
  have main (n : Nat) : ∀ ans' t, Rounds body ans s ans' t → I t →
      I ((loop n body).run ans' t).2.2 := by
    induction n with
    | zero => exact fun _ _ _ ht => ht
    | succ n ih =>
      intro ans' t hr ht
      have hbody := h ans' t hr ht
      rw [loop, ← bind_eq, run_bind]
      cases hres : body.run ans' t with
      | mk o rest =>
        obtain ⟨ans'', u⟩ := rest
        rw [hres] at hbody
        cases o with
        | abort | hang => exact hbody
        | ret res =>
          cases res with
          | some a => exact hbody
          | none => exact ih ans'' u (.next hr hres) hbody
  exact main n ans s .start hs

/-- A loop that returns does so in one of its rounds. -/
theorem Rounds.of_loop {body : Prog ι μ σ (Option α)} {ans ans' : Answers ι} {s t : σ} {a : α}
    {n : Nat} (h : (loop n body).run ans s = (.ret a, ans', t)) :
    ∃ ans₁ u, Rounds body ans s ans₁ u ∧ body.run ans₁ u = (.ret (some a), ans', t) := by
  have main (n : Nat) : ∀ ans₁ u, Rounds body ans s ans₁ u →
      (loop n body).run ans₁ u = (.ret a, ans', t) →
      ∃ ans₂ v, Rounds body ans s ans₂ v ∧ body.run ans₂ v = (.ret (some a), ans', t) := by
    induction n with
    | zero =>
      intro ans₁ u _ hrun
      cases hrun
    | succ n ih =>
      intro ans₁ u hr hrun
      rw [loop, ← bind_eq] at hrun
      obtain ⟨res, ans₂, v, hbody, hrest⟩ := run_bind_ret hrun
      cases res with
      | some b =>
        cases hrest
        exact ⟨ans₁, u, hr, hbody⟩
      | none => exact ih ans₂ v (.next hr hbody) hrest
  exact main n ans s .start h

/-- The first of the rounds that lead to another one. -/
theorem Rounds.head {body : Prog ι μ σ (Option α)} {ans ans' : Answers ι} {s t : σ}
    (h : Rounds body ans s ans' t) : (ans' = ans ∧ t = s) ∨
      ∃ ans₁ u, body.run ans s = (.ret none, ans₁, u) ∧ Rounds body ans₁ u ans' t := by
  induction h with
  | start => exact .inl ⟨rfl, rfl⟩
  | next h hr ih =>
    rcases ih with ⟨rfl, rfl⟩ | ⟨ans₁, u, hu, hrest⟩
    · exact .inr ⟨_, _, hr, .start⟩
    · exact .inr ⟨ans₁, u, hu, .next hrest hr⟩

/-- Of two rounds of one loop, one leads to the other. -/
theorem Rounds.linear {body : Prog ι μ σ (Option α)} {ans ans₁ ans₂ : Answers ι} {s t u : σ}
    (h : Rounds body ans s ans₁ t) (h' : Rounds body ans s ans₂ u) :
    Rounds body ans₁ t ans₂ u ∨ Rounds body ans₂ u ans₁ t := by
  induction h with
  | start => exact .inl h'
  | next h hr ih =>
    rcases ih with ih | ih
    · rcases ih.head with ⟨rfl, rfl⟩ | ⟨ans₃, v, hv, hrest⟩
      · exact .inr (.next .start hr)
      · rw [hr] at hv
        cases hv
        exact .inl hrest
    · exact .inr (.next ih hr)

end Run

theorem exec_loop_succ (n : Nat) (body : Prog ι μ σ (Option α)) (s : σ) :
    (loop (n + 1) body).exec s = andThen (fun
      | some a => .ret a
      | none => loop n body) (body.exec s) := exec_bind body _ s

end Prog

end Core
