import Yamux.Core.Threads

/-!
# Threads with a local state

`Follows ok R g₀ p g Q` says that `p`, in the local state `g`, moves the shared state
and its local state by `R` with every action, whatever it finds, and returns in `Q`.
Starting over is possible in `g₀` only. In a pool every thread has a local state of its
own, which is `g₀` between its calls, and a step moves that of one thread.
-/

namespace Core

variable {ι μ σ γ α β : Type}

/-- Every action of the program goes by `R`, from the local state `g` on. -/
def Follows (ok : ι → Bool → Prop) (R : γ → σ → σ → γ → Prop) (g₀ : γ) :
    Prog ι μ σ α → γ → (α → γ → Prop) → Prop
  | .ret a, g, Q => Q a g
  | .act _ f k, g, Q => ∀ s, ∃ g', R g s (f s) g' ∧ Follows ok R g₀ (k s) g' Q
  | .ask c k, g, Q => ∀ b, ok c b → Follows ok R g₀ (k b) g Q
  | .lock _ k, g, Q => Follows ok R g₀ k g Q
  | .unlock _ k, g, Q => Follows ok R g₀ k g Q
  | .wait _ k, g, Q => Follows ok R g₀ k g Q
  | .again, g, _ => g = g₀
  | .abort, _, _ => True

namespace Follows

variable {ok : ι → Bool → Prop} {R : γ → σ → σ → γ → Prop} {g₀ g : γ} {Q : α → γ → Prop}

theorem bind {p : Prog ι μ σ α} {k : α → Prog ι μ σ β} {Q' : β → γ → Prop}
    (hp : Follows ok R g₀ p g Q) (hk : ∀ a g', Q a g' → Follows ok R g₀ (k a) g' Q') :
    Follows ok R g₀ (p >>= k) g Q' := by
  rw [Prog.bind_eq]
  induction p generalizing g with
  | ret a => exact hk a g hp
  | act ms f k ih =>
    intro s
    obtain ⟨g', hR, hrest⟩ := hp s
    exact ⟨g', hR, ih s hrest⟩
  | ask c k ih => exact fun b hb => ih b (hp b hb)
  | lock m k ih | unlock m k ih | wait c k ih => exact ih hp
  | again => exact hp
  | abort => trivial

theorem pure {a : α} (h : Q a g) : Follows ok R g₀ (Pure.pure a : Prog ι μ σ α) g Q := h

/-- A call in front of a program, which goes on with an allowed answer. -/
theorem query_bind {c : ι} {k : Bool → Prog ι μ σ α}
    (h : ∀ b, ok c b → Follows ok R g₀ (k b) g Q) : Follows ok R g₀ (Prog.query c >>= k) g Q := h

theorem modify {ms : List μ} {f : σ → σ} {Q : Unit → γ → Prop} {g' : γ}
    (hR : ∀ s, R g s (f s) g') (h : Q () g') :
    Follows ok R g₀ (Prog.modify ms f : Prog ι μ σ Unit) g Q :=
  fun s => ⟨g', hR s, h⟩

/-- Actions that stay in the first local state. -/
theorem acts {S : σ → σ → Prop} {p : Prog ι μ σ α} (hp : Acts ok S p)
    (hR : ∀ s t, S s t → R g₀ s t g₀) (hQ : ∀ a, Q a g₀) : Follows ok R g₀ p g₀ Q := by
  induction p with
  | ret a => exact hQ a
  | act ms f k ih => exact fun s => ⟨g₀, hR _ _ (hp s).1, ih s (hp s).2⟩
  | ask c k ih => exact fun b hb => ih b (hp b hb)
  | lock m k ih | unlock m k ih | wait c k ih => exact ih hp
  | again => rfl
  | abort => trivial

end Follows

namespace Pool

variable {κ τ : Type} {code : κ → Prog ι μ σ Unit} {may : τ → κ → Prop} {ok : ι → Bool → Prop}
  {R : κ → γ → σ → σ → γ → Prop} {g₀ : γ}

/-- Thread `i` goes by the relation of its call, from its local state on. -/
def FollowsAt (may : τ → κ → Prop) (ok : ι → Bool → Prop) (R : κ → γ → σ → σ → γ → Prop)
    (g₀ : γ) (i : τ) (g : γ) : Option (κ × Prog ι μ σ Unit) → Prop
  | none => g = g₀
  | some (c, p) => may i c ∧ Follows ok (R c) g₀ p g fun _ g' => g' = g₀

/-- Every thread goes by the relation of its call. -/
def Follow (may : τ → κ → Prop) (ok : ι → Bool → Prop) (R : κ → γ → σ → σ → γ → Prop)
    (g₀ : γ) (P : Pool ι μ σ κ τ) (g : τ → γ) : Prop :=
  ∀ i, FollowsAt may ok R g₀ i (g i) (P.threads i)

theorem follow_start (s : σ) :
    Follow may ok R g₀ (start s : Pool ι μ σ κ τ) fun _ => g₀ := fun _ => rfl

/-- Between calls all threads are in the first local state. -/
theorem Follow.quiescent {P : Pool ι μ σ κ τ} {g : τ → γ} (h : Follow may ok R g₀ P g)
    (hq : P.Quiescent) (i : τ) : g i = g₀ := by
  have hi := h i
  rwa [hq i] at hi

variable [DecidableEq τ]

theorem Follow.update {P Q : Pool ι μ σ κ τ} {g : τ → γ} (h : Follow may ok R g₀ P g) {i : τ}
    {th : Option (κ × Prog ι μ σ Unit)} {g' : γ}
    (hth : Q.threads = Function.update P.threads i th) (hi : FollowsAt may ok R g₀ i g' th) :
    Follow may ok R g₀ Q (Function.update g i g') := by
  intro j
  rw [hth]
  by_cases hj : j = i
  · subst hj
    rw [Function.update_self, Function.update_self]
    exact hi
  · rw [Function.update_of_ne hj, Function.update_of_ne hj]
    exact h j

/-- A step of thread `i` leaves the state and the local states alone, or it goes by the
relation of the call that the thread is in. -/
theorem Follow.step [DecidableEq μ] {P Q : Pool ι μ σ κ τ} {g : τ → γ} {i : τ}
    (hcode : ∀ c, may i c → Follows ok (R c) g₀ (code c) g₀ fun _ g' => g' = g₀)
    (h : Follow may ok R g₀ P g) (hs : Step code may ok i P Q) :
    (Q.state = P.state ∧ Follow may ok R g₀ Q g) ∨
    ∃ c p q g', P.threads i = some (c, p) ∧ Q.threads i = some (c, q) ∧
      R c (g i) P.state Q.state g' ∧ Follow may ok R g₀ Q (Function.update g i g') := by
  have hi := h i
  -- a step within the thread keeps its local state
  have stay {Q : Pool ι μ σ κ τ} {th : Option (κ × Prog ι μ σ Unit)}
      (hth : Q.threads = Function.update P.threads i th)
      (hnow : FollowsAt may ok R g₀ i (g i) th) : Follow may ok R g₀ Q g := by
    have hupdate := h.update hth hnow
    rwa [Function.update_eq_self] at hupdate
  cases hs with
  | call hidle hmay =>
    rw [hidle] at hi
    refine .inl ⟨rfl, stay rfl ⟨hmay, ?_⟩⟩
    rw [show g i = g₀ from hi]
    exact hcode _ hmay
  | ret hth =>
    rw [hth] at hi
    exact .inl ⟨rfl, stay rfl hi.2⟩
  | ask hth hb =>
    rw [hth] at hi
    exact .inl ⟨rfl, stay rfl ⟨hi.1, hi.2 _ hb⟩⟩
  | lock hth hfree =>
    rw [hth] at hi
    exact .inl ⟨rfl, stay rfl hi⟩
  | unlock hth hown =>
    rw [hth] at hi
    exact .inl ⟨rfl, stay rfl hi⟩
  | wait hth hg =>
    rw [hth] at hi
    exact .inl ⟨rfl, stay rfl hi⟩
  | again hth =>
    rw [hth] at hi
    refine .inl ⟨rfl, stay rfl ⟨hi.1, ?_⟩⟩
    rw [show g i = g₀ from hi.2]
    exact hcode _ hi.1
  | act hth hfree =>
    rw [hth] at hi
    obtain ⟨g', hR, hrest⟩ := hi.2 P.state
    exact .inr ⟨_, _, _, g', hth, Function.update_self _ _ _, hR, h.update rfl ⟨hi.1, hrest⟩⟩

end Pool

end Core
