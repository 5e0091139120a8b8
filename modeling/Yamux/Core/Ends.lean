import Yamux.Core.Footprint

/-!
# Partial correctness of runs

`Ends ok Q p ans s` says that a run of `p` from `s` with the answers `ans`, if
these are allowed and it returns, ends in `Q`. The postcondition sees the answers
that are left, so a condition can speak of the answer to one particular call.
-/

namespace Core

variable {ι μ σ α β : Type} [DecidableEq ι] {ok : ι → Bool → Prop}

/-- What is left of allowed answers is allowed. -/
theorem Env.Allowed.run {ans ans' : Prog.Answers ι} {p : Prog ι μ σ α} {s t : σ} {o : Outcome α}
    (h : Env.Allowed ok ans) (hrun : p.run ans s = (o, ans', t)) : Env.Allowed ok ans' := by
  have htrue : Acts ok (fun _ _ => True) p := by
    clear hrun
    induction p with
    | ret | again | abort => trivial
    | act ms f k ih => exact fun s => ⟨trivial, ih s⟩
    | ask c k ih => exact fun b _ => ih b
    | lock m k ih | unlock m k ih | wait c k ih => exact ih
  have hleft := (Env.wp_run (htrue.wp_alone (fun _ => trivial) (fun _ _ => trivial) s) h).2
  rwa [hrun] at hleft

/-- Every run with allowed answers that returns does so in `Q`. -/
def Ends (ok : ι → Bool → Prop) (Q : α → Prog.Answers ι → σ → Prop) (p : Prog ι μ σ α)
    (ans : Prog.Answers ι) (s : σ) : Prop :=
  Env.Allowed ok ans → ∀ a ans' t, p.run ans s = (.ret a, ans', t) → Q a ans' t

namespace Ends

variable {ans : Prog.Answers ι} {s : σ} {Q : α → Prog.Answers ι → σ → Prop}
  {R : β → Prog.Answers ι → σ → Prop}

theorem mono {Q' : α → Prog.Answers ι → σ → Prop} {p : Prog ι μ σ α} (h : Ends ok Q p ans s)
    (hQ : ∀ a ans' t, Q a ans' t → Q' a ans' t) : Ends ok Q' p ans s :=
  fun ha a ans' t hrun => hQ a ans' t (h ha a ans' t hrun)

theorem and {Q' : α → Prog.Answers ι → σ → Prop} {p : Prog ι μ σ α} (h : Ends ok Q p ans s)
    (h' : Ends ok Q' p ans s) : Ends ok (fun a ans' t => Q a ans' t ∧ Q' a ans' t) p ans s :=
  fun ha a ans' t hrun => ⟨h ha a ans' t hrun, h' ha a ans' t hrun⟩

/-- Sequential composition. -/
theorem bind {p : Prog ι μ σ α} {g : α → Prog ι μ σ β} (hp : Ends ok Q p ans s)
    (hg : ∀ a ans' t, Q a ans' t → Ends ok R (g a) ans' t) : Ends ok R (p >>= g) ans s := by
  intro ha b ans' t hrun
  obtain ⟨a, ans₁, u, hpa, hga⟩ := Prog.run_bind_ret hrun
  exact hg a ans₁ u (hp ha a ans₁ u hpa) (ha.run hpa) b ans' t hga

/-- Sequential composition, backwards. -/
theorem seq {p : Prog ι μ σ α} {g : α → Prog ι μ σ β}
    (h : Ends ok (fun a ans' t => Ends ok R (g a) ans' t) p ans s) :
    Ends ok R (p >>= g) ans s :=
  h.bind fun _ _ _ hR => hR

theorem pure {a : α} (h : Q a ans s) : Ends ok Q (Pure.pure a : Prog ι μ σ α) ans s := by
  intro _ b ans' t hrun
  cases hrun
  exact h

theorem crit {ms : List μ} {g : σ → α × σ} (h : Q (g s).1 ans (g s).2) :
    Ends ok Q (Prog.crit ms g) ans s := by
  intro _ b ans' t hrun
  cases hrun
  exact h

theorem read {ms : List μ} {g : σ → α} (h : Q (g s) ans s) : Ends ok Q (Prog.read ms g) ans s :=
  crit h

theorem modify {ms : List μ} {f : σ → σ} {Q : Unit → Prog.Answers ι → σ → Prop}
    (h : Q () ans (f s)) : Ends ok Q (Prog.modify ms f) ans s :=
  crit h

/-- A call is given the next answer, which is an allowed one. -/
theorem query {c : ι} {Q : Bool → Prog.Answers ι → σ → Prop}
    (h : ok c ((ans c).headD true) → Q ((ans c).headD true) (ans.next c) s) :
    Ends ok Q (Prog.query c : Prog ι μ σ Bool) ans s := by
  intro ha b ans' t hrun
  cases hrun
  refine h ?_
  cases hc : ans c with
  | nil => exact (ha c).1
  | cons b bs => exact (ha c).2 b (by rw [hc]; exact List.mem_cons_self)

theorem acquire {m : μ} {Q : Unit → Prog.Answers ι → σ → Prop} (h : Q () ans s) :
    Ends ok Q (Prog.acquire m : Prog ι μ σ Unit) ans s := by
  intro _ b ans' t hrun
  cases hrun
  exact h

theorem release {m : μ} {Q : Unit → Prog.Answers ι → σ → Prop} (h : Q () ans s) :
    Ends ok Q (Prog.release m : Prog ι μ σ Unit) ans s := by
  intro _ b ans' t hrun
  cases hrun
  exact h

theorem await {c : σ → Bool} {Q : Unit → Prog.Answers ι → σ → Prop} (h : c s = true → Q () ans s) :
    Ends ok Q (Prog.await c : Prog ι μ σ Unit) ans s := by
  intro _ b ans' t hrun
  simp only [Prog.await, Prog.run] at hrun
  split at hrun
  · cases hrun
    exact h ‹_›
  · cases hrun

/-- After an assertion it holds. -/
theorem check {b : Bool} {Q : Unit → Prog.Answers ι → σ → Prop} (h : b = true → Q () ans s) :
    Ends ok Q (Prog.check b : Prog ι μ σ Unit) ans s := by
  intro _ u ans' t hrun
  cases b with
  | false => cases hrun
  | true =>
    cases hrun
    exact h rfl

/-- Starting over alone does not return. -/
theorem again : Ends ok Q (Prog.again : Prog ι μ σ α) ans s := by
  intro _ a ans' t hrun
  cases hrun

/-- A promise about every action sums up to one step. -/
theorem acts {S : σ → σ → Prop} {p : Prog ι μ σ α} (hr : ∀ s, S s s)
    (ht : ∀ {a b c}, S a b → S b c → S a c) (hp : Acts ok S p) :
    Ends ok (fun _ _ t => S s t) p ans s := by
  intro ha a ans' t hrun
  have h := (Env.wp_run (hp.wp_alone hr ht s) ha).1
  rwa [hrun] at h

/-- A loop whose rounds keep `I` until one of them exits in `Q`. -/
theorem loop {body : Prog ι μ σ (Option α)} {I : Prog.Answers ι → σ → Prop}
    (hbody : ∀ ans' t, Prog.Rounds body ans s ans' t → I ans' t →
      Ends ok (fun o ans'' u => o.elim (I ans'' u) fun a => Q a ans'' u) body ans' t)
    (hs : I ans s) (n : Nat) : Ends ok Q (Prog.loop n body) ans s := by
  have main (n : Nat) : ∀ ans' t, Prog.Rounds body ans s ans' t → I ans' t →
      Ends ok Q (Prog.loop n body) ans' t := by
    induction n with
    | zero =>
      intro ans' t _ _ _ a ans'' u hrun
      cases hrun
    | succ n ih =>
      intro ans' t hr hI
      rw [Prog.loop, ← Prog.bind_eq]
      intro ha a ans'' u hrun
      obtain ⟨o, ans₁, v, hround, hrest⟩ := Prog.run_bind_ret hrun
      have hv := hbody ans' t hr hI ha o ans₁ v hround
      cases o with
      | some b =>
        cases hrest
        exact hv
      | none => exact ih ans₁ v (.next hr hround) hv (ha.run hround) a ans'' u hrest
  exact main n ans s .start hs

end Ends

end Core
