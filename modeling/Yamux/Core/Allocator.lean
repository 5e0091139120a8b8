import Yamux.Core.Separation
import Mathlib.Tactic

/-!
# Memory on request

An allocator hands out addresses that are not in use, or refuses. What a program does then
depends on the answers, so a triple for such a program has several ends: a result, and the part
of the memory that goes with it.
-/

namespace Core

/-- Who hands out memory. -/
structure Allocator (C : Type) where
  /-- The answer to a request, given the number of requests before it and what is allocated. -/
  answer : ℕ → Memory C → Option ℕ
  fresh {n : ℕ} {m : Memory C} {a : ℕ} : answer n m = some a → a ∉ m

/-- An allocator that answers the address above all that are in use, a limited number of times. -/
def Allocator.above (C : Type) (limit : ℕ) : Allocator C where
  answer n m := if n < limit then some (m.keys.sup id + 1) else none
  fresh {n m a} h := by
    intro ha
    split at h
    · have hle : a ≤ m.keys.sup id := Finset.le_sup (f := id) (Finmap.mem_keys.mpr ha)
      obtain rfl := Option.some.inj h
      exact absurd hle (Nat.not_succ_le_self _)
    · cases h

namespace HeapM

variable {C α β : Type}

/-- Ask for a new cell. The globals count the requests. -/
def request (A : Allocator C) (c : C) : HeapM ℕ C (Option ℕ) := fun h =>
  .ok (A.answer h.globals h.cells,
    ⟨h.globals + 1, ((A.answer h.globals h.cells).map (h.cells.insert · c)).getD h.cells⟩)

variable {G : Type}

/-- Whatever the globals are, in a part of memory like `P` the program comes to one of the ends
`K`: a result, and what the part is like then. It leaves the rest of the memory alone. -/
def Yields (p : HeapM G C α) (P : Region C) (K : α → Region C → Prop) : Prop :=
  ∀ g F m, (P * F).Holds m →
    ∃ a Q g' m', K a Q ∧ p ⟨g, m⟩ = .ok (a, ⟨g', m'⟩) ∧ (Q * F).Holds m'

theorem Does.yields {p : HeapM G C α} {P Q : Region C} {a : α} (h : ∀ g, Does p g P a g Q) :
    Yields p P fun r R => r = a ∧ R = Q := by
  intro g F m hm
  obtain ⟨m', hrun, hm'⟩ := h g F m hm
  exact ⟨a, Q, g, m', ⟨rfl, rfl⟩, hrun, hm'⟩

namespace Yields

variable {p : HeapM G C α} {k : α → HeapM G C β} {P S F : Region C} {K K' : α → Region C → Prop}
  {L : β → Region C → Prop}

theorem pure {a : α} (h : K a P) : Yields (Pure.pure a : HeapM G C α) P K :=
  fun g _ m hm => ⟨a, P, g, m, h, rfl, hm⟩

theorem bind (hp : Yields p P K) (hk : ∀ a Q, K a Q → Yields (k a) Q L) :
    Yields (p >>= k) P L := by
  intro g F m hm
  obtain ⟨a, Q, g', m', hK, hrun, hm'⟩ := hp g F m hm
  obtain ⟨b, R, g'', m'', hL, hrun', hm''⟩ := hk a Q hK g' F m' hm'
  exact ⟨b, R, g'', m'', hL, (bind_ok hrun).trans hrun', hm''⟩

theorem mono (hp : Yields p P K) (h : ∀ a Q, K a Q → K' a Q) : Yields p P K' := by
  intro g F m hm
  obtain ⟨a, Q, g', m', hK, hrun, hm'⟩ := hp g F m hm
  exact ⟨a, Q, g', m', h a Q hK, hrun, hm'⟩

/-- A program in the middle of more memory. -/
theorem frame (hp : Yields p P K) (F : Region C) :
    Yields p (P * F) fun a R => ∃ Q, K a Q ∧ R = Q * F := by
  intro g F' m hm
  rw [mul_assoc] at hm
  obtain ⟨a, Q, g', m', hK, hrun, hm'⟩ := hp g (F * F') m hm
  refine ⟨a, Q * F, g', m', ⟨Q, hK, rfl⟩, hrun, ?_⟩
  rwa [mul_assoc]

/-- A step in the middle of more memory. -/
theorem step (hp : Yields p P K) (hS : S = P * F)
    (hk : ∀ a Q, K a Q → Yields (k a) (Q * F) L) : Yields (p >>= k) S L := by
  rw [hS]
  apply (hp.frame F).bind
  rintro a _ ⟨Q, hK, rfl⟩
  exact hk a Q hK

/-- A step with one end. -/
theorem does {a : α} {Q : Region C} (hp : ∀ g, Does p g P a g Q) (hS : S = P * F)
    (hk : Yields (k a) (Q * F) L) : Yields (p >>= k) S L := by
  apply (Does.yields hp).step hS
  rintro _ _ ⟨rfl, rfl⟩
  exact hk

/-- What a read of the globals gives does not matter. -/
theorem globals {k : G → HeapM G C β} (hk : ∀ g, Yields (k g) P L) :
    Yields (HeapM.globals >>= k) P L :=
  fun g F m hm => hk g g F m hm

/-- A program with nothing else in memory. -/
theorem run {m : Memory C} (hp : Yields p P K) (g : G) (h : P.Holds m) :
    ∃ a Q g' m', K a Q ∧ p ⟨g, m⟩ = .ok (a, ⟨g', m'⟩) ∧ Q.Holds m' := by
  rw [← mul_one P] at h
  obtain ⟨a, Q, g', m', hK, hrun, hm'⟩ := hp g 1 m h
  rw [mul_one] at hm'
  exact ⟨a, Q, g', m', hK, hrun, hm'⟩

/-- A request is refused, or there is a new cell. -/
theorem request (A : Allocator C) (c : C) : Yields (HeapM.request A c) 1 fun r Q =>
    r = none ∧ Q = 1 ∨ ∃ a, r = some a ∧ Q = .cell a c := by
  intro g F m hm
  rw [one_mul] at hm
  cases hA : A.answer g m with
  | none =>
    refine ⟨none, 1, g + 1, m, .inl ⟨rfl, rfl⟩, ?_, by rwa [one_mul]⟩
    simp [HeapM.request, hA]
  | some a =>
    refine ⟨some a, .cell a c, g + 1, m.insert a c, .inr ⟨a, rfl, rfl⟩, ?_, ?_⟩
    · simp [HeapM.request, hA]
    · exact Region.holds_alloc (A.fresh hA) hm c

end Yields

end HeapM

end Core
