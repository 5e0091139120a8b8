import Mathlib.Tactic

/-!
# Red-black trees with paths

Trees with coloured nodes, and paths from a place in a tree up to its root. `plug` puts a tree
into the hole of a path. Colours, black heights and the order of the labels of the whole are
read off the path and the tree in its hole, so that a change in one place is checked there.
-/

namespace Core

inductive Color where
  | red
  | black
  deriving DecidableEq, Repr

/-- What a node counts in black heights. -/
def Color.weight : Color → ℕ
  | .red => 0
  | .black => 1

/-- The sides of a node. -/
inductive Dir where
  | left
  | right
  deriving DecidableEq, Repr

def Dir.other : Dir → Dir
  | .left => .right
  | .right => .left

@[simp] theorem Dir.other_other (d : Dir) : d.other.other = d := by
  cases d <;> rfl

theorem Dir.eq_or_eq_other (d e : Dir) : d = e ∨ d = e.other := by
  cases d <;> cases e <;> simp [Dir.other]

/-- The left one of two things, given from one side. -/
def Dir.leftOf {β : Type} (d : Dir) (near far : β) : β :=
  match d with
  | .left => near
  | .right => far

inductive RbTree (α : Type) where
  | nil
  | node (color : Color) (left : RbTree α) (label : α) (right : RbTree α)
  deriving DecidableEq, Repr

namespace RbTree

variable {α : Type}

/-- A node, given from one of its sides. -/
def branch (d : Dir) (c : Color) (near : RbTree α) (a : α) (far : RbTree α) : RbTree α :=
  match d with
  | .left => .node c near a far
  | .right => .node c far a near

theorem branch_other (d : Dir) (c : Color) (near : RbTree α) (a : α) (far : RbTree α) :
    branch d.other c near a far = branch d c far a near := by
  cases d <;> rfl

/-- The label of the root. -/
def top : RbTree α → Option α
  | .nil => none
  | .node _ _ a _ => some a

@[simp] theorem top_nil : (nil : RbTree α).top = none := rfl

@[simp] theorem top_node (c : Color) (l : RbTree α) (a : α) (r : RbTree α) :
    (node c l a r).top = some a := rfl

@[simp] theorem top_branch (d : Dir) (c : Color) (near : RbTree α) (a : α) (far : RbTree α) :
    (branch d c near a far).top = some a := by
  cases d <;> rfl

theorem top_eq_none {t : RbTree α} : t.top = none ↔ t = nil := by
  cases t <;> simp

/-- The labels from left to right. -/
def labels : RbTree α → List α
  | .nil => []
  | .node _ l a r => l.labels ++ a :: r.labels

@[simp] theorem labels_nil : (nil : RbTree α).labels = [] := rfl

@[simp] theorem labels_node (c : Color) (l : RbTree α) (a : α) (r : RbTree α) :
    (node c l a r).labels = l.labels ++ a :: r.labels := rfl

/-- The colour of the root. Where there is nothing, it is black. -/
def color : RbTree α → Color
  | .nil => .black
  | .node c _ _ _ => c

@[simp] theorem color_nil : (nil : RbTree α).color = .black := rfl

@[simp] theorem color_node (c : Color) (l : RbTree α) (a : α) (r : RbTree α) :
    (node c l a r).color = c := rfl

@[simp] theorem color_branch (d : Dir) (c : Color) (near : RbTree α) (a : α) (far : RbTree α) :
    (branch d c near a far).color = c := by
  cases d <;> rfl

/-- The tree with another colour at its root. -/
def paint (c : Color) : RbTree α → RbTree α
  | .nil => .nil
  | .node _ l a r => .node c l a r

@[simp] theorem paint_branch (d : Dir) (c c' : Color) (near : RbTree α) (a : α) (far : RbTree α) :
    (branch d c near a far).paint c' = branch d c' near a far := by
  cases d <;> rfl

/-- A tree seen from one of its sides. -/
theorem eq_branch {t : RbTree α} (d : Dir) (h : t ≠ nil) :
    ∃ c near a far, t = branch d c near a far := by
  cases t with
  | nil => exact absurd rfl h
  | node c l a r =>
    cases d
    · exact ⟨c, l, a, r, rfl⟩
    · exact ⟨c, r, a, l, rfl⟩

@[simp] theorem labels_paint (c : Color) (t : RbTree α) : (t.paint c).labels = t.labels := by
  cases t <;> rfl

@[simp] theorem top_paint (c : Color) (t : RbTree α) : (t.paint c).top = t.top := by
  cases t <;> rfl

theorem paint_color (t : RbTree α) : t.paint t.color = t := by
  cases t <;> rfl

/-- How many nodes a way down meets at most. -/
def depth : RbTree α → ℕ
  | .nil => 0
  | .node _ l _ r => max l.depth r.depth + 1

/-! ## Balance -/

/-- A tree with a root of the given colour in which no red node has a red child, and every way
down meets the given number of black nodes. -/
inductive Balanced : Color → ℕ → RbTree α → Prop where
  | nil : Balanced .black 0 nil
  | red {n : ℕ} {l : RbTree α} {a : α} {r : RbTree α} (hl : l.Balanced .black n)
      (hr : r.Balanced .black n) : Balanced .red n (node .red l a r)
  | black {c c' : Color} {n : ℕ} {l : RbTree α} {a : α} {r : RbTree α} (hl : l.Balanced c n)
      (hr : r.Balanced c' n) : Balanced .black (n + 1) (node .black l a r)

namespace Balanced

variable {c c' : Color} {n : ℕ} {t near far : RbTree α} {d : Dir} {a : α}

theorem color_eq (h : t.Balanced c n) : t.color = c := by
  cases h <;> rfl

theorem branch_red (hn : near.Balanced .black n) (hf : far.Balanced .black n) :
    (branch d .red near a far).Balanced .red n := by
  cases d
  · exact .red hn hf
  · exact .red hf hn

theorem branch_black (hn : near.Balanced c n) (hf : far.Balanced c' n) :
    (branch d .black near a far).Balanced .black (n + 1) := by
  cases d
  · exact .black hn hf
  · exact .black hf hn

theorem branch_of_black (hn : near.Balanced .black n) (hf : far.Balanced .black n) :
    (branch d c near a far).Balanced c (n + c.weight) := by
  cases c
  · exact branch_red hn hf
  · exact branch_black hn hf

theorem of_branch_red (h : (branch d .red near a far).Balanced c n) :
    c = .red ∧ near.Balanced .black n ∧ far.Balanced .black n := by
  cases d
  · cases h with
    | red hl hr => exact ⟨rfl, hl, hr⟩
  · cases h with
    | red hl hr => exact ⟨rfl, hr, hl⟩

theorem of_branch_black (h : (branch d .black near a far).Balanced c n) :
    c = .black ∧ ∃ m c₁ c₂, n = m + 1 ∧ near.Balanced c₁ m ∧ far.Balanced c₂ m := by
  cases d
  · cases h with
    | black hl hr => exact ⟨rfl, _, _, _, rfl, hl, hr⟩
  · cases h with
    | black hl hr => exact ⟨rfl, _, _, _, rfl, hr, hl⟩

/-- Painting the root black makes a red one count. -/
theorem paint_black (h : t.Balanced c n) :
    (t.paint .black).Balanced .black (if c = .red then n + 1 else n) := by
  cases h with
  | nil => exact .nil
  | red hl hr => exact .black hl hr
  | black hl hr => exact .black hl hr

theorem two_pow_le (h : t.Balanced c n) : 2 ^ n ≤ t.labels.length + 1 := by
  induction h with
  | nil => exact le_rfl
  | red hl hr ihl ihr =>
    simp only [labels_node, List.length_append, List.length_cons]
    omega
  | black hl hr ihl ihr =>
    simp only [labels_node, List.length_append, List.length_cons, pow_succ]
    omega

theorem depth_le (h : t.Balanced c n) : t.depth ≤ 2 * n + if c = .red then 1 else 0 := by
  have hcolor (c : Color) : (if c = .red then 1 else 0) ≤ 1 := by
    split <;> omega
  induction h with
  | nil => exact le_rfl
  | red hl hr ihl ihr =>
    simp only [depth, reduceCtorEq, if_false, if_true] at ihl ihr ⊢
    omega
  | @black c c' n l a r hl hr ihl ihr =>
    have hl' := hcolor c
    have hr' := hcolor c'
    simp only [depth, reduceCtorEq, if_false] at ihl ihr ⊢
    omega

/-- A way down is at most twice as long as the logarithm of the size. -/
theorem depth_le_log (h : t.Balanced .black n) :
    t.depth ≤ 2 * Nat.log 2 (t.labels.length + 1) := by
  have hlog : n ≤ Nat.log 2 (t.labels.length + 1) :=
    Nat.le_log_of_pow_le (by decide) h.two_pow_le
  have hdepth := h.depth_le
  simp only [reduceCtorEq, if_false] at hdepth
  omega

end Balanced

/-- A tree that would be balanced with black height `n` if its root were black, and counts one
less if it is red: what is left where a black node was taken out. -/
def Short (n : ℕ) (t : RbTree α) : Prop :=
  t.Balanced .black n ∨ t.color = .red ∧ (t.paint .black).Balanced .black (n + 1)

theorem Balanced.short {c : Color} {n : ℕ} {t : RbTree α} (h : t.Balanced c n) : t.Short n := by
  cases c with
  | black => exact .inl h
  | red => exact .inr ⟨h.color_eq, h.paint_black⟩

/-! ## Paths -/

/-- A node with a hole on one side. -/
structure Rung (α : Type) where
  side : Dir
  color : Color
  label : α
  other : RbTree α

/-- The way up from a hole. -/
abbrev Path (α : Type) := List (Rung α)

def Rung.fill (f : Rung α) (t : RbTree α) : RbTree α := branch f.side f.color t f.label f.other

/-- The tree with `t` in the hole. -/
def plug : Path α → RbTree α → RbTree α
  | [], t => t
  | f :: up, t => plug up (f.fill t)

@[simp] theorem plug_nil (t : RbTree α) : plug [] t = t := rfl

@[simp] theorem plug_cons (f : Rung α) (up : Path α) (t : RbTree α) :
    plug (f :: up) t = plug up (f.fill t) := rfl

theorem plug_append (π π' : Path α) (t : RbTree α) : plug (π ++ π') t = plug π' (plug π t) := by
  induction π generalizing t with
  | nil => rfl
  | cons f up ih => exact ih (f.fill t)

/-- The label above the hole. -/
def parent (π : Path α) : Option α := π.head?.map Rung.label

@[simp] theorem parent_nil : parent ([] : Path α) = none := rfl

@[simp] theorem parent_cons (f : Rung α) (up : Path α) : parent (f :: up) = some f.label := rfl

/-- The labels to the left of the hole. -/
def before : Path α → List α
  | [] => []
  | f :: up => before up ++ match f.side with
    | .left => []
    | .right => f.other.labels ++ [f.label]

/-- The labels to the right of the hole. -/
def after : Path α → List α
  | [] => []
  | f :: up => (match f.side with
    | .left => f.label :: f.other.labels
    | .right => []) ++ after up

theorem labels_plug (π : Path α) (t : RbTree α) :
    (plug π t).labels = before π ++ t.labels ++ after π := by
  induction π generalizing t with
  | nil => simp [before, after]
  | cons f up ih =>
    obtain ⟨d, c, a, o⟩ := f
    rw [plug_cons, ih]
    cases d <;> simp [before, after, Rung.fill, branch]

theorem labels_plug_congr (π : Path α) {t t' : RbTree α} (h : t.labels = t'.labels) :
    (plug π t).labels = (plug π t').labels := by
  rw [labels_plug, labels_plug, h]

/-- A label is somewhere in the tree. -/
theorem exists_plug_of_mem {t : RbTree α} {a : α} (h : a ∈ t.labels) (π : Path α) :
    ∃ π' c l r, plug π t = plug π' (node c l a r) := by
  induction t generalizing π with
  | nil => cases h
  | node c l b r ihl ihr =>
    rcases List.mem_append.mp h with h | h
    · exact ihl h (⟨.left, c, b, r⟩ :: π)
    · rcases List.mem_cons.mp h with rfl | h
      · exact ⟨π, c, l, r, rfl⟩
      · exact ihr h (⟨.right, c, b, l⟩ :: π)

/-- The label of the root depends on the tree in the hole only where there is no way up. -/
def topOf : Path α → Option α → Option α
  | [], a => a
  | f :: up, _ => topOf up (some f.label)

theorem top_plug (π : Path α) (t : RbTree α) : (plug π t).top = topOf π t.top := by
  induction π generalizing t with
  | nil => rfl
  | cons f up ih => rw [plug_cons, ih, Rung.fill, top_branch, topOf]

/-- A hole that takes trees with a root of the given colour and the given black height. The
root of the whole is black. -/
inductive Path.Takes : Color → ℕ → Path α → Prop where
  | nil {n : ℕ} : Path.Takes .black n []
  | red {n : ℕ} {d : Dir} {a : α} {o : RbTree α} {up : Path α} (ho : o.Balanced .black n)
      (hup : Path.Takes .red n up) : Path.Takes .black n (⟨d, .red, a, o⟩ :: up)
  | black {c c' : Color} {n : ℕ} {d : Dir} {a : α} {o : RbTree α} {up : Path α}
      (ho : o.Balanced c' n) (hup : Path.Takes .black (n + 1) up) :
      Path.Takes c n (⟨d, .black, a, o⟩ :: up)

namespace Path.Takes

variable {c : Color} {n : ℕ} {t : RbTree α} {π : Path α}

theorem black_of_red (h : Takes .red n π) : Takes .black n π := by
  cases h with
  | black ho hup => exact .black ho hup

theorem plug (h : Takes c n π) (ht : t.Balanced c n) : ∃ N, (plug π t).Balanced .black N := by
  induction h generalizing t with
  | nil => exact ⟨_, ht⟩
  | red ho hup ih => exact ih (.branch_red ht ho)
  | black ho hup ih => exact ih (.branch_black ht ho)

/-- A balanced tree seen from one of its places. -/
theorem of_plug {N : ℕ} (h : (RbTree.plug π t).Balanced .black N) :
    ∃ c n, Takes c n π ∧ t.Balanced c n := by
  induction π generalizing t with
  | nil => exact ⟨.black, N, .nil, h⟩
  | cons f up ih =>
    obtain ⟨c, n, hup, hfill⟩ := ih h
    obtain ⟨d, c', a, o⟩ := f
    cases c' with
    | red =>
      obtain ⟨rfl, ht, ho⟩ := hfill.of_branch_red
      exact ⟨_, _, .red ho hup, ht⟩
    | black =>
      obtain ⟨rfl, m, c₁, c₂, rfl, ht, ho⟩ := hfill.of_branch_black
      exact ⟨_, _, .black ho hup, ht⟩

/-- The labels on a path do not matter for its balance. -/
theorem relabel {d : Dir} {c' : Color} {a b : α} {o : RbTree α} {ρ : Path α}
    (h : Takes c n (ρ ++ ⟨d, c', a, o⟩ :: π)) : Takes c n (ρ ++ ⟨d, c', b, o⟩ :: π) := by
  induction ρ generalizing c n with
  | nil =>
    cases h with
    | red ho hup => exact .red ho hup
    | black ho hup => exact .black ho hup
  | cons f ρ ih =>
    cases h with
    | red ho hup => exact .red ho (ih hup)
    | black ho hup => exact .black ho (ih hup)

end Path.Takes

/-- A place in a tree is at most as far from its root as the tree is deep. -/
theorem length_add_depth_le (π : Path α) (t : RbTree α) :
    π.length + t.depth ≤ (plug π t).depth := by
  induction π generalizing t with
  | nil => simp
  | cons f up ih =>
    have hup := ih (f.fill t)
    have hfill : t.depth + 1 ≤ (f.fill t).depth := by
      obtain ⟨d, c, a, o⟩ := f
      cases d <;> simp [Rung.fill, branch, depth]
    rw [plug_cons, List.length_cons]
    omega

/-- The root is outside of the hole of a path that leads up. -/
theorem top_plug_mem {f : Rung α} {up : Path α} {t : RbTree α} {a : α}
    (h : (plug (f :: up) t).top = some a) :
    a ∈ before (f :: up) ∨ a ∈ after (f :: up) := by
  induction up generalizing f t with
  | nil =>
    obtain ⟨d, c, b, o⟩ := f
    obtain rfl : b = a := by simpa [Rung.fill] using h
    cases d <;> simp [before, after]
  | cons g up ih =>
    have hmem := ih (t := f.fill t) h
    simp only [before, after, List.mem_append] at hmem ⊢
    tauto

/-! ## Order -/

section Order

variable {K : Type} [LinearOrder K] (κ : α → K)

/-- The labels stand in the order of their keys. -/
def Sorted (t : RbTree α) : Prop := t.labels.Pairwise fun a b => κ a < κ b

/-- A red-black search tree. -/
structure Valid (t : RbTree α) : Prop where
  balanced : ∃ n, t.Balanced .black n
  ordered : t.Sorted κ

/-- The way down to where the key `k` is or would be, with the tree that is there. -/
def zoom (k : K) : RbTree α → Path α → Path α × RbTree α
  | .nil, π => (π, .nil)
  | .node c l a r, π =>
    if k < κ a then zoom k l (⟨.left, c, a, r⟩ :: π)
    else if κ a < k then zoom k r (⟨.right, c, a, l⟩ :: π)
    else (π, .node c l a r)

theorem plug_zoom (k : K) (t : RbTree α) (π : Path α) :
    plug (zoom κ k t π).1 (zoom κ k t π).2 = plug π t := by
  induction t generalizing π with
  | nil => rfl
  | node c l a r ihl ihr =>
    rw [zoom]
    split
    · exact ihl _
    · split
      · exact ihr _
      · rfl

variable {κ} {k : K} {t : RbTree α} {π : Path α}

/-- The path keeps to the sides that the key belongs to. -/
def Between (κ : α → K) (k : K) (π : Path α) : Prop :=
  (∀ a ∈ before π, κ a < k) ∧ ∀ a ∈ after π, k < κ a

theorem zoom_between (ht : (plug π t).Sorted κ) (hπ : Between κ k π) :
    Between κ k (zoom κ k t π).1 := by
  induction t generalizing π with
  | nil => exact hπ
  | node c l a r ihl ihr =>
    have hnode : (l.labels ++ a :: r.labels).Pairwise fun a b => κ a < κ b := by
      rw [Sorted, labels_plug, labels_node] at ht
      exact (List.pairwise_append.mp (List.pairwise_append.mp ht).1).2.1
    have hsides := List.pairwise_append.mp hnode
    have hright := List.pairwise_cons.mp hsides.2.1
    rw [zoom]
    split
    · rename_i hlt
      refine ihl ht ⟨fun b hb => ?_, fun b hb => ?_⟩
      · simp only [before, List.append_nil] at hb
        exact hπ.1 b hb
      · simp only [after, List.cons_append, List.mem_cons, List.mem_append] at hb
        rcases hb with rfl | hb | hb
        · exact hlt
        · exact hlt.trans (hright.1 b hb)
        · exact hπ.2 b hb
    · split
      · rename_i hgt
        refine ihr ht ⟨fun b hb => ?_, fun b hb => ?_⟩
        · simp only [before, List.mem_append, List.mem_singleton] at hb
          rcases hb with hb | hb | rfl
          · exact hπ.1 b hb
          · exact (hsides.2.2 b hb a (List.mem_cons_self ..)).trans hgt
          · exact hgt
        · simp only [after, List.nil_append] at hb
          exact hπ.2 b hb
      · exact hπ

/-- The tree at the end of the way down has the key at its root, if it is anywhere. -/
theorem zoom_top {a : α} (h : (zoom κ k t π).2.top = some a) : κ a = k := by
  induction t generalizing π with
  | nil => cases h
  | node c l b r ihl ihr =>
    rw [zoom] at h
    split at h
    · exact ihl h
    · split at h
      · exact ihr h
      · cases h
        exact le_antisymm (not_lt.mp ‹_›) (not_lt.mp ‹_›)

/-- A label of an ordered tree is what the search for its key ends with. -/
theorem zoom_top_of_mem {a : α} (ht : t.Sorted κ) (ha : a ∈ t.labels) (hk : κ a = k) :
    (zoom κ k t []).2.top = some a := by
  have hbetween : Between κ k (zoom κ k t []).1 :=
    zoom_between ht ⟨by simp [before], by simp [after]⟩
  rw [← plug_nil t, ← plug_zoom κ k t [], labels_plug] at ha
  cases hz : (zoom κ k t []).2 with
  | nil =>
    rw [hz] at ha
    simp only [labels_nil, List.append_nil, List.mem_append] at ha
    rcases ha with ha | ha
    · exact absurd hk (hbetween.1 a ha).ne
    · exact absurd hk (hbetween.2 a ha).ne'
  | node c l b r =>
    have hb : κ b = k := zoom_top (t := t) (π := []) (by rw [hz]; rfl)
    have hplug := plug_zoom κ k t []
    rw [hz, plug_nil] at hplug
    rw [← hplug, Sorted, labels_plug, labels_node] at ht
    rw [hz] at ha
    simp only [labels_node, List.mem_append, List.mem_cons] at ha
    have hparts := List.pairwise_append.mp ht
    have hnode := List.pairwise_append.mp (List.pairwise_append.mp hparts.1).2.1
    rcases ha with (ha | ha | rfl | ha) | ha
    · exact absurd hk (hbetween.1 a ha).ne
    · exact absurd (hk.trans hb.symm) (hnode.2.2 a ha b (List.mem_cons_self ..)).ne
    · rfl
    · exact absurd (hk.trans hb.symm) ((List.pairwise_cons.mp hnode.2.1).1 a ha).ne'
    · exact absurd hk (hbetween.2 a ha).ne'

/-- A new label between those of the path keeps the order. -/
theorem sorted_plug_leaf {a : α} {c : Color} (ht : (plug π nil).Sorted κ)
    (hπ : Between κ (κ a) π) : (plug π (node c nil a nil)).Sorted κ := by
  rw [Sorted, labels_plug] at ht ⊢
  simp only [labels_nil, List.append_nil] at ht
  obtain ⟨hb, haft, hcross⟩ := List.pairwise_append.mp ht
  simp only [labels_node, labels_nil, List.nil_append, List.append_assoc, List.singleton_append]
  refine List.pairwise_append.mpr ⟨hb, List.pairwise_cons.mpr ⟨hπ.2, haft⟩, fun x hx y hy => ?_⟩
  rcases List.mem_cons.mp hy with rfl | hy
  · exact hπ.1 x hx
  · exact hcross x hx y hy

theorem valid_nil : (nil : RbTree α).Valid κ := ⟨⟨0, .nil⟩, List.Pairwise.nil⟩

/-- How far a way down is from the root. -/
theorem length_zoom (k : K) (t : RbTree α) (π : Path α) :
    (zoom κ k t π).1.length ≤ t.depth + π.length := by
  induction t generalizing π with
  | nil => exact Nat.le_add_left _ _
  | node c l a r ihl ihr =>
    rw [zoom, depth]
    split
    · have hl := ihl (⟨.left, c, a, r⟩ :: π)
      rw [List.length_cons] at hl
      omega
    · split
      · have hr := ihr (⟨.right, c, a, l⟩ :: π)
        rw [List.length_cons] at hr
        omega
      · exact Nat.le_add_left _ _

theorem Sorted.nodup (h : t.Sorted κ) : t.labels.Nodup :=
  h.imp fun hlt heq => absurd (congrArg κ heq) hlt.ne

end Order

end RbTree

end Core
