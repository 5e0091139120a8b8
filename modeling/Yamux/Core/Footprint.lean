import Yamux.Core.Interference

/-!
# What the actions of a program may do

`Acts ok R p` says that every action of `p` moves the state within `R`, whatever
state it finds. It is a promise that holds under any interference, so it needs no
precondition, and it sums up to one `R` step over a run alone.
-/

namespace Core

variable {ι μ σ α β : Type}

/-- Every action of the program moves the state within `R`. -/
def Acts (ok : ι → Bool → Prop) (R : σ → σ → Prop) : Prog ι μ σ α → Prop
  | .ret _ => True
  | .act _ f k => ∀ s, R s (f s) ∧ Acts ok R (k s)
  | .ask c k => ∀ b, ok c b → Acts ok R (k b)
  | .lock _ k => Acts ok R k
  | .unlock _ k => Acts ok R k
  | .wait _ k => Acts ok R k
  | .again => True
  | .abort => True

namespace Acts

variable {ok : ι → Bool → Prop} {R S : σ → σ → Prop}

theorem bind {p : Prog ι μ σ α} {g : α → Prog ι μ σ β} (hp : Acts ok R p)
    (hg : ∀ a, Acts ok R (g a)) : Acts ok R (p >>= g) := by
  rw [Prog.bind_eq]
  induction p with
  | ret a => exact hg a
  | again | abort => trivial
  | act ms f k ih => exact fun s => ⟨(hp s).1, ih s (hp s).2⟩
  | ask c k ih => exact fun b hb => ih b (hp b hb)
  | lock m k ih | unlock m k ih => exact ih hp
  | wait c k ih => exact ih hp

theorem mono {p : Prog ι μ σ α} (hp : Acts ok R p) (h : ∀ a b, R a b → S a b) :
    Acts ok S p := by
  induction p with
  | ret | again | abort => trivial
  | act ms f k ih => exact fun s => ⟨h _ _ (hp s).1, ih s (hp s).2⟩
  | ask c k ih => exact fun b hb => ih b (hp b hb)
  | lock m k ih | unlock m k ih => exact ih hp
  | wait c k ih => exact ih hp

theorem and {p : Prog ι μ σ α} (hp : Acts ok R p) (hp' : Acts ok S p) :
    Acts ok (fun a b => R a b ∧ S a b) p := by
  induction p with
  | ret | again | abort => trivial
  | act ms f k ih => exact fun s => ⟨⟨(hp s).1, (hp' s).1⟩, ih s (hp s).2 (hp' s).2⟩
  | ask c k ih => exact fun b hb => ih b (hp b hb) (hp' b hb)
  | lock m k ih | unlock m k ih => exact ih hp hp'
  | wait c k ih => exact ih hp hp'

theorem pure (a : α) : Acts ok R (Pure.pure a : Prog ι μ σ α) := trivial

theorem crit {ms : List μ} {g : σ → α × σ} (h : ∀ s, R s (g s).2) :
    Acts ok R (Prog.crit ms g : Prog ι μ σ α) := fun s => ⟨h s, trivial⟩

theorem read {ms : List μ} {g : σ → α} (hr : ∀ s, R s s) :
    Acts ok R (Prog.read ms g : Prog ι μ σ α) := crit hr

/-- What follows a read is told a value that some state has. -/
theorem read_bind {ms : List μ} {g : σ → α} {k : α → Prog ι μ σ β} (hr : ∀ s, R s s)
    (hk : ∀ s, Acts ok R (k (g s))) : Acts ok R (Prog.read ms g >>= k) :=
  fun s => ⟨hr s, hk s⟩

theorem modify {ms : List μ} {f : σ → σ} (h : ∀ s, R s (f s)) :
    Acts ok R (Prog.modify ms f : Prog ι μ σ Unit) := crit h

theorem query (c : ι) : Acts ok R (Prog.query c : Prog ι μ σ Bool) := fun _ _ => trivial

theorem acquire (m : μ) : Acts ok R (Prog.acquire m : Prog ι μ σ Unit) := trivial

theorem release (m : μ) : Acts ok R (Prog.release m : Prog ι μ σ Unit) := trivial

theorem await (c : σ → Bool) : Acts ok R (Prog.await c : Prog ι μ σ Unit) := trivial

theorem check (b : Bool) : Acts ok R (Prog.check b : Prog ι μ σ Unit) := by
  cases b <;> trivial

theorem loop {body : Prog ι μ σ (Option α)} (h : Acts ok R body) (n : Nat) :
    Acts ok R (Prog.loop n body) := by
  induction n with
  | zero => trivial
  | succ n ih =>
    refine bind h fun a => ?_
    cases a with
    | none => exact ih
    | some a => trivial

/-- A promise about every action is kept under any interference. -/
theorem wp_any {E : Env ι σ} {p : Prog ι μ σ α} (h : Acts E.answers E.guar p) (s : σ) :
    E.wp p (fun _ _ => True) s := by
  induction p generalizing s with
  | ret | again | abort => exact fun _ _ => trivial
  | act ms f k ih => exact fun t _ => ⟨(h t).1, ih t (h t).2 _⟩
  | ask c k ih => exact fun b hb => ih b (h b hb) s
  | lock m k ih | unlock m k ih => exact ih h s
  | wait c k ih =>
    intro t _
    split
    · exact ih h t
    · trivial

/-- Without neighbours the actions sum up to one step of a preorder. -/
theorem wp_alone (hr : ∀ s, R s s) (ht : ∀ {a b c}, R a b → R b c → R a c)
    {p : Prog ι μ σ α} (h : Acts ok R p) (s : σ) :
    (Env.alone ok).wp p (fun _ t => R s t) s := by
  have main (s₀ : σ) : ∀ s, R s₀ s → (Env.alone ok).wp p (fun _ t => R s₀ t) s := by
    induction p with
    | ret | again | abort => exact fun s hs t he => he ▸ hs
    | act ms f k ih =>
      rintro s hs t rfl
      exact ⟨trivial, ih s (h s).2 _ (ht hs (h s).1)⟩
    | ask c k ih => exact fun s hs b hb => ih b (h b hb) s hs
    | lock m k ih | unlock m k ih => exact ih h
    | wait c k ih =>
      rintro s hs t rfl
      split
      · exact ih h s hs
      · exact hs
  exact main s s (hr s)

end Acts

end Core
