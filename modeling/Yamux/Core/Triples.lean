import Yamux.Core.Footprint

/-!
# Triples under interference

`E.Triple I P p Q` says that `p`, started where `P` holds, keeps every promise to the
environment `E` and returns where `Q` holds. Where it waits or starts over, `I` holds;
of a failed assertion nothing is said. One rule for each way to build a program.
-/

namespace Core

namespace Env

variable {ι μ σ α β : Type}

/-- The others keep the assertion. -/
def Stable (E : Env ι σ) (P : σ → Prop) : Prop := ∀ s t, P s → E.rely s t → P t

/-- The postcondition of a triple. -/
def ending (I : σ → Prop) (Q : α → σ → Prop) : Outcome α → σ → Prop
  | .ret a, t => Q a t
  | .hang, t => I t
  | .abort, _ => True

/-- From `P` the program keeps its promises and returns in `Q`; where it waits or
starts over it has `I`. -/
def Triple (E : Env ι σ) (I P : σ → Prop) (p : Prog ι μ σ α) (Q : α → σ → Prop) : Prop :=
  ∀ s, P s → E.wp p (ending I Q) s

namespace Stable

variable {E : Env ι σ} {P P' : σ → Prop}

theorem and (h : E.Stable P) (h' : E.Stable P') : E.Stable fun s => P s ∧ P' s :=
  fun s t hs hr => ⟨h s t hs.1 hr, h' s t hs.2 hr⟩

/-- A fact about values that the program has read. -/
theorem const {c : Prop} : E.Stable fun _ => c := fun _ _ hc _ => hc

end Stable

namespace Triple

variable {E : Env ι σ} {I P P' : σ → Prop} {Q Q' : α → σ → Prop} {R : β → σ → Prop}

theorem mono {p : Prog ι μ σ α} (h : E.Triple I P p Q) (hP : ∀ s, P' s → P s)
    (hQ : ∀ a s, Q a s → Q' a s) : E.Triple I P' p Q' := by
  intro s hs
  refine E.wp_mono (h s (hP s hs)) fun o t ht => ?_
  cases o with
  | ret a => exact hQ a t ht
  | hang | abort => exact ht

/-- A fact in the precondition that does not depend on the state. -/
theorem given {c : Prop} {p : Prog ι μ σ α} (h : c → E.Triple I P p Q) :
    E.Triple I (fun s => c ∧ P s) p Q :=
  fun s hs => h hs.1 s hs.2

/-- Sequential composition. -/
theorem bind {p : Prog ι μ σ α} {g : α → Prog ι μ σ β} (hp : E.Triple I P p Q)
    (hg : ∀ a, E.Triple I (Q a) (g a) R) : E.Triple I P (p >>= g) R := by
  intro s hs
  rw [E.wp_bind]
  refine E.wp_mono (hp s hs) fun o t ht => ?_
  cases o with
  | ret a => exact hg a t ht
  | hang | abort => exact ht

/-- A program that has returned waits for the others to let it go. -/
theorem pure {a : α} (hP : E.Stable P) (h : ∀ s, P s → Q a s) :
    E.Triple I P (Pure.pure a : Prog ι μ σ α) Q :=
  fun s hs t ht => h t (hP s t hs ht)

/-- A critical section. -/
theorem crit {ms : List μ} {g : σ → α × σ} (hP : E.Stable P) (hQ : ∀ a, E.Stable (Q a))
    (h : ∀ s, P s → E.guar s (g s).2 ∧ Q (g s).1 (g s).2) :
    E.Triple I P (Prog.crit ms g) Q := by
  intro s hs t ht
  obtain ⟨hguar, hq⟩ := h t (hP s t hs ht)
  exact ⟨hguar, fun u hu => hQ _ _ u hq hu⟩

theorem modify {ms : List μ} {f : σ → σ} {Q : Unit → σ → Prop} (hP : E.Stable P)
    (hQ : E.Stable (Q ())) (h : ∀ s, P s → E.guar s (f s) ∧ Q () (f s)) :
    E.Triple I P (Prog.modify ms f) Q :=
  crit hP (fun _ => hQ) h

/-- A call in front of a program, which goes on with an allowed answer. -/
theorem query_bind {c : ι} {g : Bool → Prog ι μ σ β}
    (h : ∀ b, E.answers c b → E.Triple I P (g b) R) :
    E.Triple I P (Prog.query c >>= g) R :=
  fun s hs b hb => h b hb s hs

theorem acquire {m : μ} (hP : E.Stable P) :
    E.Triple I P (Prog.acquire m : Prog ι μ σ Unit) fun _ => P :=
  fun s hs t ht => hP s t hs ht

theorem release {m : μ} (hP : E.Stable P) :
    E.Triple I P (Prog.release m : Prog ι μ σ Unit) fun _ => P :=
  fun s hs t ht => hP s t hs ht

theorem check {b : Bool} (hP : E.Stable P) :
    E.Triple I P (Prog.check b : Prog ι μ σ Unit) fun _ t => b = true ∧ P t := by
  intro s hs
  cases b with
  | false => exact fun _ _ => trivial
  | true => exact fun t ht => ⟨rfl, hP s t hs ht⟩

theorem await {c : σ → Bool} (hP : E.Stable P) (hI : ∀ s, P s → I s) :
    E.Triple I P (Prog.await c : Prog ι μ σ Unit) fun _ => P := by
  intro s hs t ht
  split
  · exact fun u hu => hP t u (hP s t hs ht) hu
  · exact hI t (hP s t hs ht)

theorem again (hP : E.Stable P) (hI : ∀ s, P s → I s) :
    E.Triple I P (Prog.again : Prog ι μ σ α) Q :=
  fun s hs t ht => hI t (hP s t hs ht)

/-- Rounds that keep an assertion until one of them exits. -/
theorem loop {body : Prog ι μ σ (Option α)} (hP : E.Stable P) (hI : ∀ s, P s → I s)
    (hQ : ∀ a, E.Stable (Q a))
    (hbody : E.Triple I P body fun o => o.elim P Q) (n : Nat) :
    E.Triple I P (Prog.loop n body) Q := by
  induction n with
  | zero =>
    intro s hs t ht
    rw [if_neg Bool.false_ne_true]
    exact hI t (hP s t hs ht)
  | succ n ih =>
    rw [Prog.loop, ← Prog.bind_eq]
    refine hbody.bind fun o => ?_
    cases o with
    | none => exact ih
    | some a => exact fun s hs t ht => hQ a s t hs ht

/-- Actions that are promised and keep the assertion one by one. -/
theorem acts {S : σ → σ → Prop} {p : Prog ι μ σ α} (hp : Acts E.answers S p) (hP : E.Stable P)
    (hI : ∀ s, P s → I s) (hS : ∀ s t, P s → S s t → E.guar s t ∧ P t) :
    E.Triple I P p fun _ => P := by
  intro s hs
  induction p generalizing s with
  | ret => exact fun t ht => hP s t hs ht
  | again => exact fun t ht => hI t (hP s t hs ht)
  | abort => exact fun _ _ => trivial
  | act ms f k ih =>
    intro t ht
    obtain ⟨hguar, hkeep⟩ := hS _ _ (hP s t hs ht) (hp t).1
    exact ⟨hguar, ih t (hp t).2 _ hkeep⟩
  | ask c k ih => exact fun b hb => ih b (hp b hb) s hs
  | lock m k ih | unlock m k ih => exact ih hp s hs
  | wait c k ih =>
    intro t ht
    split
    · exact ih hp t (hP s t hs ht)
    · exact hI t (hP s t hs ht)

end Triple

end Env

end Core
