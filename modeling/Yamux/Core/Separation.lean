import Mathlib.Data.Finmap
import Mathlib.Algebra.Group.Defs

/-!
# Memory in parts

Programs with pointers work on cells that are allocated, and fail when they touch an address
that is not. A region describes a part of the memory in full. The product of two regions
describes two parts that have no cell in common, and regions form a commutative monoid with
it. What a program does with one part it does next to any other.
-/

namespace Core

/-- The cells that are allocated, by their addresses. -/
abbrev Memory (C : Type) := Finmap fun _ : ℕ => C

/-- A description of a part of the memory. -/
def Region (C : Type) := Memory C → Prop

namespace Region

variable {C : Type}

/-- The part of the memory is as described. -/
def Holds (P : Region C) (m : Memory C) : Prop := P m

theorem ext {P Q : Region C} (h : ∀ m, P.Holds m ↔ Q.Holds m) : P = Q :=
  funext fun m => propext (h m)

/-- One cell. -/
def cell (a : ℕ) (c : C) : Region C := fun m => m = Finmap.singleton a c

instance : One (Region C) := ⟨fun m => m = ∅⟩

instance : Mul (Region C) :=
  ⟨fun P Q m => ∃ l r : Memory C, l.Disjoint r ∧ l ∪ r = m ∧ P.Holds l ∧ Q.Holds r⟩

theorem holds_one {m : Memory C} : (1 : Region C).Holds m ↔ m = ∅ := Iff.rfl

theorem holds_mul {P Q : Region C} {m : Memory C} : (P * Q).Holds m ↔
    ∃ l r : Memory C, l.Disjoint r ∧ l ∪ r = m ∧ P.Holds l ∧ Q.Holds r := Iff.rfl

theorem holds_cell {a : ℕ} {c : C} {m : Memory C} :
    (cell a c).Holds m ↔ m = Finmap.singleton a c := Iff.rfl

protected theorem mul_comm (P Q : Region C) : P * Q = Q * P := by
  have main (P Q : Region C) (m : Memory C) (h : (P * Q).Holds m) : (Q * P).Holds m := by
    obtain ⟨l, r, hd, rfl, hl, hr⟩ := h
    exact ⟨r, l, Finmap.Disjoint.symm _ _ hd, (Finmap.union_comm_of_disjoint hd).symm, hr, hl⟩
  exact ext fun m => ⟨main P Q m, main Q P m⟩

protected theorem one_mul (P : Region C) : 1 * P = P := by
  apply ext
  intro m
  constructor
  · rintro ⟨l, r, -, rfl, rfl, hr⟩
    rwa [Finmap.empty_union]
  · intro h
    exact ⟨∅, m, Finmap.disjoint_empty m, Finmap.empty_union, rfl, h⟩

protected theorem mul_assoc (P Q R : Region C) : P * Q * R = P * (Q * R) := by
  apply ext
  intro m
  constructor
  · rintro ⟨_, r, hd, rfl, ⟨l, k, hd', rfl, hl, hk⟩, hr⟩
    obtain ⟨hlr, hkr⟩ := (Finmap.disjoint_union_left l k r).mp hd
    refine ⟨l, k ∪ r, ?_, Finmap.union_assoc.symm, hl, k, r, hkr, rfl, hk, hr⟩
    exact (Finmap.disjoint_union_right l k r).mpr ⟨hd', hlr⟩
  · rintro ⟨l, _, hd, rfl, hl, ⟨k, r, hd', rfl, hk, hr⟩⟩
    obtain ⟨hlk, hlr⟩ := (Finmap.disjoint_union_right l k r).mp hd
    refine ⟨l ∪ k, r, ?_, Finmap.union_assoc, ⟨l, k, hlk, rfl, hl, hk⟩, hr⟩
    exact (Finmap.disjoint_union_left l k r).mpr ⟨hlr, hd'⟩

instance : CommMonoid (Region C) where
  mul_assoc := Region.mul_assoc
  one_mul := Region.one_mul
  mul_one P := (Region.mul_comm P 1).trans (Region.one_mul P)
  mul_comm := Region.mul_comm

variable {a b : ℕ} {c c' : C} {F : Region C} {m : Memory C}

/-- Memory with one cell told apart. -/
theorem holds_cell_mul : (cell a c * F).Holds m ↔
    ∃ r : Memory C, a ∉ r ∧ Finmap.singleton a c ∪ r = m ∧ F.Holds r := by
  constructor
  · rintro ⟨l, r, hd, rfl, rfl, hr⟩
    exact ⟨r, hd a ((Finmap.mem_singleton a a c).mpr rfl), rfl, hr⟩
  · rintro ⟨r, ha, rfl, hr⟩
    refine ⟨_, r, fun x hx => ?_, rfl, rfl, hr⟩
    rw [(Finmap.mem_singleton x a c).mp hx]
    exact ha

theorem lookup_of_cell (h : (cell a c * F).Holds m) : m.lookup a = some c := by
  obtain ⟨r, -, rfl, -⟩ := holds_cell_mul.mp h
  have ha : a ∈ (Finmap.singleton a c : Memory C) := (Finmap.mem_singleton a a c).mpr rfl
  exact (Finmap.lookup_union_left ha).trans Finmap.lookup_singleton_eq

/-- Two cells that are told apart have different addresses. -/
theorem ne_of_cells (h : (cell a c * (cell b c' * F)).Holds m) : a ≠ b := by
  obtain ⟨r, ha, -, hr⟩ := holds_cell_mul.mp h
  intro hab
  apply ha
  rw [hab]
  exact Finmap.mem_of_lookup_eq_some (lookup_of_cell hr)

theorem holds_insert (h : (cell a c * F).Holds m) (c' : C) :
    (cell a c' * F).Holds (m.insert a c') := by
  obtain ⟨r, ha, rfl, hr⟩ := holds_cell_mul.mp h
  refine holds_cell_mul.mpr ⟨r, ha, ?_, hr⟩
  rw [Finmap.insert_union, Finmap.insert_singleton_eq]

theorem holds_erase (h : (cell a c * F).Holds m) : F.Holds (m.erase a) := by
  obtain ⟨r, ha, rfl, hr⟩ := holds_cell_mul.mp h
  have herase : (Finmap.singleton a c ∪ r).erase a = r := by
    apply Finmap.ext_lookup
    intro x
    by_cases hx : x = a
    · subst hx
      rw [Finmap.lookup_erase, Finmap.lookup_eq_none.mpr ha]
    · rw [Finmap.lookup_erase_ne hx, Finmap.lookup_union_right]
      rwa [Finmap.mem_singleton]
  rwa [herase]

/-- A new cell is next to what is there. -/
theorem holds_alloc {P : Region C} (ha : a ∉ m) (h : P.Holds m) (c : C) :
    (cell a c * P).Holds (m.insert a c) := by
  refine holds_cell_mul.mpr ⟨m, ha, ?_, h⟩
  apply Finmap.ext_lookup
  intro x
  by_cases hx : x = a
  · subst hx
    have hmem : x ∈ (Finmap.singleton x c : Memory C) := (Finmap.mem_singleton x x c).mpr rfl
    rw [Finmap.lookup_union_left hmem, Finmap.lookup_singleton_eq, Finmap.lookup_insert]
  · have hmem : x ∉ (Finmap.singleton a c : Memory C) := by rwa [Finmap.mem_singleton]
    rw [Finmap.lookup_union_right hmem, Finmap.lookup_insert_of_ne _ hx]

end Region

/-! ## Programs -/

/-- Global variables and memory. -/
structure Heap (G C : Type) where
  globals : G
  cells : Memory C

/-- Why a program stops before its end. -/
inductive Fault where
  /-- It touched an address that is not allocated. -/
  | address
  | assertion
  /-- A loop ran out of rounds. -/
  | rounds
  deriving DecidableEq, Repr

/-- Programs with pointers, which may fail. -/
abbrev HeapM (G C : Type) := StateT (Heap G C) (Except Fault)

namespace HeapM

variable {G C α β : Type}

def fail (f : Fault) : HeapM G C α := fun _ => .error f

/-- The cell at an address. -/
def load (a : ℕ) : HeapM G C C := fun h =>
  match h.cells.lookup a with
  | some c => .ok (c, h)
  | none => .error .address

/-- Write to an allocated cell. -/
def store (a : ℕ) (c : C) : HeapM G C Unit := fun h =>
  if a ∈ h.cells then .ok ((), { h with cells := h.cells.insert a c }) else .error .address

/-- A new cell at an address that is not allocated. -/
def alloc (a : ℕ) (c : C) : HeapM G C Unit := fun h =>
  if a ∈ h.cells then .error .address else .ok ((), { h with cells := h.cells.insert a c })

/-- A new cell at the address that the allocator picks. -/
def malloc (pick : Memory C → ℕ) (c : C) : HeapM G C ℕ := fun h =>
  .ok (pick h.cells, { h with cells := h.cells.insert (pick h.cells) c })

/-- Give a cell back. -/
def free (a : ℕ) : HeapM G C Unit := fun h =>
  if a ∈ h.cells then .ok ((), { h with cells := h.cells.erase a }) else .error .address

/-- The address that a pointer points to. -/
def deref : Option ℕ → HeapM G C ℕ
  | some a => pure a
  | none => fail .address

def globals : HeapM G C G := fun h => .ok (h.globals, h)

def setGlobals (g : G) : HeapM G C Unit := fun h => .ok ((), { h with globals := g })

theorem alloc_of_not_mem {a : ℕ} {h : Heap G C} (ha : a ∉ h.cells) (c : C) :
    (alloc a c : HeapM G C Unit) h = .ok ((), { h with cells := h.cells.insert a c }) := if_neg ha

/-- A program goes on from where a first one ends. -/
theorem bind_ok {p : HeapM G C α} {k : α → HeapM G C β} {a : α} {h h' : Heap G C}
    (hp : p h = .ok (a, h')) : (p >>= k) h = k a h' := by
  change (p h).bind (fun r => k r.1 r.2) = _
  rw [hp]
  rfl

/-- With the globals `g` and in a part of memory like `P` the program returns `a`, and leaves
`g'` and a part like `Q`. It leaves the rest of the memory alone. -/
def Does (p : HeapM G C α) (g : G) (P : Region C) (a : α) (g' : G) (Q : Region C) : Prop :=
  ∀ F m, (P * F).Holds m → ∃ m', p ⟨g, m⟩ = .ok (a, ⟨g', m'⟩) ∧ (Q * F).Holds m'

namespace Does

variable {p : HeapM G C α} {k : α → HeapM G C β} {g g' g'' : G} {P Q R S F : Region C} {a : α}
  {b : β} {x y : ℕ} {c c' : C}

theorem pure (a : α) (g : G) (P : Region C) : Does (Pure.pure a) g P a g P :=
  fun _ m h => ⟨m, rfl, h⟩

theorem bind (hp : Does p g P a g' Q) (hk : Does (k a) g' Q b g'' R) :
    Does (p >>= k) g P b g'' R := by
  intro F m h
  obtain ⟨m', hrun, h'⟩ := hp F m h
  obtain ⟨m'', hrun', h''⟩ := hk F m' h'
  exact ⟨m'', (bind_ok hrun).trans hrun', h''⟩

theorem frame (hp : Does p g P a g' Q) (F : Region C) : Does p g (P * F) a g' (Q * F) := by
  intro F' m h
  rw [mul_assoc] at h ⊢
  exact hp (F * F') m h

/-- A program in the middle of more memory. -/
theorem within (hp : Does p g P a g' Q) (hS : S = P * F) (hR : R = Q * F) : Does p g S a g' R := by
  rw [hS, hR]
  exact hp.frame F

/-- A step in the middle of more memory. -/
theorem step (hp : Does p g P a g' Q) (hS : S = P * F) (hk : Does (k a) g' (Q * F) b g'' R) :
    Does (p >>= k) g S b g'' R :=
  (hp.within hS rfl).bind hk

/-- A program with nothing else in memory. -/
theorem run {m : Memory C} (hp : Does p g P a g' Q) (h : P.Holds m) :
    ∃ m', p ⟨g, m⟩ = .ok (a, ⟨g', m'⟩) ∧ Q.Holds m' := by
  rw [← mul_one P] at h
  obtain ⟨m', hrun, h'⟩ := hp 1 m h
  rw [mul_one] at h'
  exact ⟨m', hrun, h'⟩

/-- What the memory says may be assumed. -/
theorem assume {φ : Prop} (hφ : ∀ F m, (P * F).Holds m → φ) (hp : φ → Does p g P a g' Q) :
    Does p g P a g' Q :=
  fun F m h => hp (hφ F m h) F m h

theorem load (x : ℕ) (c : C) (g : G) :
    Does (HeapM.load x) g (.cell x c) c g (.cell x c) := by
  intro F m h
  refine ⟨m, ?_, h⟩
  simp [HeapM.load, Region.lookup_of_cell h]

theorem store (x : ℕ) (c c' : C) (g : G) :
    Does (HeapM.store x c') g (.cell x c) () g (.cell x c') := by
  intro F m h
  refine ⟨m.insert x c', ?_, Region.holds_insert h c'⟩
  exact if_pos (Finmap.mem_of_lookup_eq_some (Region.lookup_of_cell h))

theorem free (x : ℕ) (c : C) (g : G) : Does (HeapM.free x) g (.cell x c) () g 1 := by
  intro F m h
  refine ⟨m.erase x, ?_, ?_⟩
  · exact if_pos (Finmap.mem_of_lookup_eq_some (Region.lookup_of_cell h))
  · rw [one_mul]
    exact Region.holds_erase h

theorem globals (g : G) (P : Region C) : Does HeapM.globals g P g g P :=
  fun _ m h => ⟨m, rfl, h⟩

theorem setGlobals (g g' : G) (P : Region C) : Does (HeapM.setGlobals g') g P () g' P :=
  fun _ m h => ⟨m, rfl, h⟩

theorem deref (x : ℕ) (g : G) (P : Region C) : Does (HeapM.deref (some x)) g P x g P :=
  pure x g P

end Does

end HeapM

end Core
