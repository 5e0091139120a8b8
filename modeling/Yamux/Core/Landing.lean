import Yamux.Core.Threads

/-!
# Where the steps of a program lead

`Lands ok R p` says that every step of `p`, from a state to a state and on to the rest
of the program, is within `R`. So `R` may speak of the place in the program that a
thread has reached. What is left of the program names that place: two places differ
where a call is still to come at one of them and not at the other.
-/

namespace Core

variable {ι μ σ α β : Type}

/-- Every step of the program, and the rest that it leads to, is within `R`. -/
def Lands (ok : ι → Bool → Prop) (R : σ → σ → Prog ι μ σ α → Prop) : Prog ι μ σ α → Prop
  | .ret _ => True
  | .act _ f k => ∀ s, R s (f s) (k s) ∧ Lands ok R (k s)
  | .ask c k => ∀ b, ok c b → (∀ s, R s s (k b)) ∧ Lands ok R (k b)
  | .lock _ k => (∀ s, R s s k) ∧ Lands ok R k
  | .unlock _ k => (∀ s, R s s k) ∧ Lands ok R k
  | .wait _ k => (∀ s, R s s k) ∧ Lands ok R k
  | .again => True
  | .abort => True

/-- The program does not make the call `c`. -/
def Never (c : ι) : Prog ι μ σ α → Prop
  | .ret _ => True
  | .act _ _ k => ∀ s, Never c (k s)
  | .ask d k => d ≠ c ∧ ∀ b, Never c (k b)
  | .lock _ k => Never c k
  | .unlock _ k => Never c k
  | .wait _ k => Never c k
  | .again => True
  | .abort => True

namespace Lands

variable {ok : ι → Bool → Prop} {R S : σ → σ → Prog ι μ σ α → Prop} {p : Prog ι μ σ α}

theorem mono (h : Lands ok R p) (hRS : ∀ s t q, R s t q → S s t q) : Lands ok S p := by
  induction p with
  | ret | again | abort => trivial
  | act ms f k ih => exact fun s => ⟨hRS _ _ _ (h s).1, ih s (h s).2⟩
  | ask c k ih => exact fun b hb => ⟨fun s => hRS _ _ _ ((h b hb).1 s), ih b (h b hb).2⟩
  | lock m k ih | unlock m k ih | wait c k ih => exact ⟨fun s => hRS _ _ _ (h.1 s), ih h.2⟩

theorem and (h : Lands ok R p) (h' : Lands ok S p) :
    Lands ok (fun s t q => R s t q ∧ S s t q) p := by
  induction p with
  | ret | again | abort => trivial
  | act ms f k ih => exact fun s => ⟨⟨(h s).1, (h' s).1⟩, ih s (h s).2 (h' s).2⟩
  | ask c k ih =>
    exact fun b hb => ⟨fun s => ⟨(h b hb).1 s, (h' b hb).1 s⟩, ih b (h b hb).2 (h' b hb).2⟩
  | lock m k ih | unlock m k ih | wait c k ih =>
    exact ⟨fun s => ⟨h.1 s, h'.1 s⟩, ih h.2 h'.2⟩

end Lands

/-- What every action does, every step does. -/
theorem Acts.lands {ok : ι → Bool → Prop} {R : σ → σ → Prop} {p : Prog ι μ σ α}
    (h : Acts ok R p) (hr : ∀ s, R s s) : Lands ok (fun s t _ => R s t) p := by
  induction p with
  | ret | again | abort => trivial
  | act ms f k ih => exact fun s => ⟨(h s).1, ih s (h s).2⟩
  | ask c k ih => exact fun b hb => ⟨hr, ih b (h b hb)⟩
  | lock m k ih | unlock m k ih | wait c k ih => exact ⟨hr, ih h⟩

namespace Never

variable {c : ι}

/-- A call that is not to come is not to come later either. -/
theorem lands {ok : ι → Bool → Prop} {p : Prog ι μ σ α} (h : Never c p) :
    Lands ok (fun _ _ q => Never c q) p := by
  induction p with
  | ret | again | abort => trivial
  | act ms f k ih => exact fun s => ⟨h s, ih s (h s)⟩
  | ask d k ih => exact fun b _ => ⟨fun _ => h.2 b, ih b (h.2 b)⟩
  | lock m k ih | unlock m k ih | wait g k ih => exact ⟨fun _ => h, ih h⟩

theorem bind {p : Prog ι μ σ α} {g : α → Prog ι μ σ β} (hp : Never c p)
    (hg : ∀ a, Never c (g a)) : Never c (p >>= g) := by
  rw [Prog.bind_eq]
  induction p with
  | ret a => exact hg a
  | again | abort => trivial
  | act ms f k ih => exact fun s => ih s (hp s)
  | ask d k ih => exact ⟨hp.1, fun b => ih b (hp.2 b)⟩
  | lock m k ih | unlock m k ih | wait g k ih => exact ih hp

theorem pure (a : α) : Never c (Pure.pure a : Prog ι μ σ α) := trivial

theorem crit {ms : List μ} {g : σ → α × σ} : Never c (Prog.crit ms g) := fun _ => trivial

theorem query {d : ι} (h : d ≠ c) : Never c (Prog.query d : Prog ι μ σ Bool) :=
  ⟨h, fun _ => trivial⟩

theorem check (b : Bool) : Never c (Prog.check b : Prog ι μ σ Unit) := by
  cases b <;> trivial

end Never

namespace Pool

variable {κ τ : Type} {code : κ → Prog ι μ σ Unit} {may : τ → κ → Prop} {ok : ι → Bool → Prop}
  {R : κ → σ → σ → Prog ι μ σ Unit → Prop}

/-- Every step of every thread is within the relation of its call. -/
def Landing (ok : ι → Bool → Prop) (R : κ → σ → σ → Prog ι μ σ Unit → Prop)
    (P : Pool ι μ σ κ τ) : Prop :=
  ∀ i c p, P.threads i = some (c, p) → Lands ok (R c) p

theorem landing_start (s : σ) : Landing ok R (start s : Pool ι μ σ κ τ) :=
  fun _ _ _ h => by cases h

variable [DecidableEq τ]

theorem Landing.update {P Q : Pool ι μ σ κ τ} (h : Landing ok R P) {i : τ}
    {th : Option (κ × Prog ι μ σ Unit)} (hth : Q.threads = Function.update P.threads i th)
    (hi : ∀ c p, th = some (c, p) → Lands ok (R c) p) : Landing ok R Q := by
  intro j c p hj
  rw [hth] at hj
  by_cases hji : j = i
  · subst hji
    rw [Function.update_self] at hj
    exact hi c p hj
  · rw [Function.update_of_ne hji] at hj
    exact h j c p hj

/-- A step of thread `i` ends its call, or leads it on within the relation of the call. -/
theorem Landing.step [DecidableEq μ] {P Q : Pool ι μ σ κ τ} {i : τ}
    (hcode : ∀ c, Lands ok (R c) (code c)) (hstart : ∀ c s, R c s s (code c))
    (h : Landing ok R P) (hs : Step code may ok i P Q) : Landing ok R Q ∧
      ((Q.threads i = none ∧ Q.state = P.state) ∨
        ∃ c q, Q.threads i = some (c, q) ∧ R c P.state Q.state q) := by
  -- where the thread goes on with a rest that lands
  have on {Q : Pool ι μ σ κ τ} {c : κ} {q : Prog ι μ σ Unit}
      (hth : Q.threads = Function.update P.threads i (some (c, q)))
      (hR : R c P.state Q.state q) (hq : Lands ok (R c) q) : Landing ok R Q ∧
      ((Q.threads i = none ∧ Q.state = P.state) ∨
        ∃ c q, Q.threads i = some (c, q) ∧ R c P.state Q.state q) := by
    refine ⟨h.update hth ?_, .inr ⟨c, q, ?_, hR⟩⟩
    · rintro c' p' hth'
      cases hth'
      exact hq
    · rw [hth, Function.update_self]
  cases hs with
  | call hidle hmay => exact on rfl (hstart _ _) (hcode _)
  | ret hth =>
    refine ⟨h.update rfl ?_, .inl ⟨Function.update_self _ _ _, rfl⟩⟩
    intro c p hc
    cases hc
  | act hth hfree => exact on rfl (h _ _ _ hth _).1 (h _ _ _ hth _).2
  | ask hth hb => exact on rfl ((h _ _ _ hth _ hb).1 _) (h _ _ _ hth _ hb).2
  | lock hth hfree => exact on rfl ((h _ _ _ hth).1 _) (h _ _ _ hth).2
  | unlock hth hown => exact on rfl ((h _ _ _ hth).1 _) (h _ _ _ hth).2
  | wait hth hg => exact on rfl ((h _ _ _ hth).1 _) (h _ _ _ hth).2
  | again hth => exact on rfl (hstart _ _) (hcode _)

end Pool

end Core
