import Yamux.Core.Prog

/-!
# Programs with the same ends

Two programs are alike if they may end in the same ways when they run alone, whatever
their calls return. Mutexes do not matter then, and neither does a call that one of them
makes needlessly, so a program with explicit mutexes can be compared with one that has
atomic sections.
-/

namespace Core

namespace Prog

variable {ι μ σ α β : Type}

/-- The program alone may end so, from the state `s`. -/
def Reaches : Prog ι μ σ α → σ → Outcome α → σ → Prop
  | .ret a, s, o, t => o = .ret a ∧ t = s
  | .act _ f k, s, o, t => Reaches (k s) (f s) o t
  | .ask _ k, s, o, t => ∃ b, Reaches (k b) s o t
  | .lock _ k, s, o, t => Reaches k s o t
  | .unlock _ k, s, o, t => Reaches k s o t
  | .wait c k, s, o, t => if c s then Reaches k s o t else o = .hang ∧ t = s
  | .again, s, o, t => o = .hang ∧ t = s
  | .abort, s, o, t => o = .abort ∧ t = s

/-- Some answers of the calls lead to each of these ends. -/
theorem reaches_iff_run [DecidableEq ι] {p : Prog ι μ σ α} {s t : σ} {o : Outcome α} :
    Reaches p s o t ↔ ∃ ans ans', p.run ans s = (o, ans', t) := by
  induction p generalizing s with
  | ret a =>
    constructor
    · rintro ⟨rfl, rfl⟩
      exact ⟨noFail, noFail, rfl⟩
    · rintro ⟨ans, ans', h⟩
      cases h
      exact ⟨rfl, rfl⟩
  | act ms f k ih => exact ih s
  | ask c k ih =>
    constructor
    · rintro ⟨b, hb⟩
      obtain ⟨ans, ans', hrun⟩ := (ih b).mp hb
      refine ⟨Function.update ans c (b :: ans c), ans', ?_⟩
      simpa [run, Answers.next] using hrun
    · rintro ⟨ans, ans', hrun⟩
      exact ⟨_, (ih _).mpr ⟨_, ans', hrun⟩⟩
  | lock m k ih | unlock m k ih => exact ih
  | wait c k ih =>
    by_cases hc : c s = true
    · simpa only [Reaches, run, hc, if_true] using ih
    · simp only [Reaches, run, hc]
      constructor
      · rintro ⟨rfl, rfl⟩
        exact ⟨noFail, noFail, rfl⟩
      · rintro ⟨ans, ans', h⟩
        cases h
        exact ⟨rfl, rfl⟩
  | again | abort =>
    constructor
    · rintro ⟨rfl, rfl⟩
      exact ⟨noFail, noFail, rfl⟩
    · rintro ⟨ans, ans', h⟩
      cases h
      exact ⟨rfl, rfl⟩

/-- A composition ends where its first program does not return, or where the second one
ends after it. -/
theorem reaches_bind {p : Prog ι μ σ α} {g : α → Prog ι μ σ β} {s t : σ} {o : Outcome β} :
    Reaches (p >>= g) s o t ↔ (∃ a u, Reaches p s (.ret a) u ∧ Reaches (g a) u o t) ∨
      (o = .hang ∧ Reaches p s .hang t) ∨ o = .abort ∧ Reaches p s .abort t := by
  rw [bind_eq]
  induction p generalizing s with
  | ret a =>
    simp only [Prog.bind, Reaches]
    grind
  | act ms f k ih => exact ih s
  | ask c k ih =>
    simp only [Prog.bind, Reaches, ih]
    grind
  | lock m k ih | unlock m k ih => exact ih
  | wait c k ih =>
    by_cases hc : c s = true
    · simpa only [Prog.bind, Reaches, hc, if_true] using ih
    · simp [Prog.bind, Reaches, hc]
  | again | abort => simp [Prog.bind, Reaches]

/-- Compositions associate. -/
theorem bind_assoc {γ : Type} (p : Prog ι μ σ α) (g : α → Prog ι μ σ β) (h : β → Prog ι μ σ γ) :
    (p >>= g) >>= h = p >>= fun a => g a >>= h := by
  simp only [bind_eq]
  induction p with
  | ret | again | abort => rfl
  | act ms f k ih =>
    simp only [Prog.bind]
    exact congrArg _ (funext ih)
  | ask c k ih =>
    simp only [Prog.bind]
    exact congrArg _ (funext ih)
  | lock m k ih | unlock m k ih | wait c k ih =>
    simp only [Prog.bind]
    exact congrArg _ ih

theorem bind_pure (p : Prog ι μ σ α) : p >>= pure = p := by
  simp only [bind_eq]
  induction p with
  | ret | again | abort => rfl
  | act ms f k ih =>
    simp only [Prog.bind]
    exact congrArg _ (funext ih)
  | ask c k ih =>
    simp only [Prog.bind]
    exact congrArg _ (funext ih)
  | lock m k ih | unlock m k ih | wait c k ih =>
    simp only [Prog.bind]
    exact congrArg _ ih

/-! ## Building blocks -/

section Blocks

variable {s t : σ} {o : Outcome α} {ms : List μ}

@[simp] theorem reaches_pure {a : α} :
    Reaches (pure a : Prog ι μ σ α) s o t ↔ o = .ret a ∧ t = s := Iff.rfl

@[simp] theorem reaches_pure_bind {a : β} {k : β → Prog ι μ σ α} :
    Reaches (pure a >>= k) s o t ↔ Reaches (k a) s o t := Iff.rfl

@[simp] theorem reaches_crit {f : σ → α × σ} :
    Reaches (crit ms f : Prog ι μ σ α) s o t ↔ o = .ret (f s).1 ∧ t = (f s).2 := Iff.rfl

@[simp] theorem reaches_read {f : σ → α} :
    Reaches (read ms f : Prog ι μ σ α) s o t ↔ o = .ret (f s) ∧ t = s := Iff.rfl

@[simp] theorem reaches_release {m : μ} {o : Outcome Unit} :
    Reaches (release m : Prog ι μ σ Unit) s o t ↔ o = .ret () ∧ t = s := Iff.rfl

@[simp] theorem reaches_check {b : Bool} {o : Outcome Unit} :
    Reaches (check b : Prog ι μ σ Unit) s o t ↔
      if b then o = .ret () ∧ t = s else o = .abort ∧ t = s := by
  cases b <;> rfl

@[simp] theorem reaches_acquire_bind {m : μ} {k : Unit → Prog ι μ σ α} :
    Reaches (acquire m >>= k) s o t ↔ Reaches (k ()) s o t := Iff.rfl

@[simp] theorem reaches_release_bind {m : μ} {k : Unit → Prog ι μ σ α} :
    Reaches (release m >>= k) s o t ↔ Reaches (k ()) s o t := Iff.rfl

@[simp] theorem reaches_query_bind {c : ι} {k : Bool → Prog ι μ σ α} :
    Reaches (query c >>= k) s o t ↔ ∃ b, Reaches (k b) s o t := Iff.rfl

@[simp] theorem reaches_crit_bind {f : σ → β × σ} {k : β → Prog ι μ σ α} :
    Reaches (crit ms f >>= k) s o t ↔ Reaches (k (f s).1) (f s).2 o t := Iff.rfl

@[simp] theorem reaches_read_bind {f : σ → β} {k : β → Prog ι μ σ α} :
    Reaches (read ms f >>= k) s o t ↔ Reaches (k (f s)) s o t := Iff.rfl

@[simp] theorem reaches_modify_bind {f : σ → σ} {k : Unit → Prog ι μ σ α} :
    Reaches (modify ms f >>= k) s o t ↔ Reaches (k ()) (f s) o t := Iff.rfl

@[simp] theorem reaches_check_bind {b : Bool} {k : Unit → Prog ι μ σ α} :
    Reaches (check b >>= k) s o t ↔
      if b then Reaches (k ()) s o t else o = .abort ∧ t = s := by
  cases b <;> rfl

end Blocks

/-- The programs may end in the same ways. -/
def Alike (p q : Prog ι μ σ α) : Prop := ∀ s o t, Reaches p s o t ↔ Reaches q s o t

namespace Alike

variable {p q r : Prog ι μ σ α} {g g' : α → Prog ι μ σ β}

theorem refl (p : Prog ι μ σ α) : Alike p p := fun _ _ _ => Iff.rfl

theorem symm (h : Alike p q) : Alike q p := fun s o t => (h s o t).symm

theorem trans (h : Alike p q) (h' : Alike q r) : Alike p r :=
  fun s o t => (h s o t).trans (h' s o t)

theorem bind (hp : Alike p q) (hg : ∀ a, Alike (g a) (g' a)) : Alike (p >>= g) (q >>= g') := by
  intro s o t
  simp only [reaches_bind, hp s _ _, hg _ _ o t]

/-- The same first program. -/
theorem after (hg : ∀ a, Alike (g a) (g' a)) : Alike (p >>= g) (p >>= g') := (refl p).bind hg

theorem acquire {m : μ} {k : Unit → Prog ι μ σ α} (h : Alike (k ()) q) :
    Alike (Prog.acquire m >>= k) q := h

theorem release {m : μ} {k : Unit → Prog ι μ σ α} (h : Alike (k ()) q) :
    Alike (Prog.release m >>= k) q := h

theorem ite {c : Prop} [Decidable c] {p' q' : Prog ι μ σ α} (h : Alike p q) (h' : Alike p' q') :
    Alike (if c then p else p') (if c then q else q') := by
  split
  · exact h
  · exact h'

theorem loop {body body' : Prog ι μ σ (Option α)} (h : Alike body body') (n : Nat) :
    Alike (Prog.loop n body) (Prog.loop n body') := by
  induction n with
  | zero => exact refl _
  | succ n ih =>
    apply h.bind
    rintro (_ | a)
    · exact ih
    · exact refl _

/-- Programs that are alike have the same results, with the same effects. -/
theorem run [DecidableEq ι] (h : Alike p q) (ans : Answers ι) (s : σ) :
    ∃ ans', (q.run ans' s).1 = (p.run ans s).1 ∧ (q.run ans' s).2.2 = (p.run ans s).2.2 := by
  have hp : Reaches p s (p.run ans s).1 (p.run ans s).2.2 := reaches_iff_run.mpr ⟨ans, _, rfl⟩
  obtain ⟨ans', rest, hq⟩ := reaches_iff_run.mp ((h s _ _).mp hp)
  exact ⟨ans', by rw [hq], by rw [hq]⟩

end Alike

end Prog

end Core
