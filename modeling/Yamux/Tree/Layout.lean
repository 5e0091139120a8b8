import Yamux.Tree.Native

/-!
# Trees in memory

A tree of addresses says what the entries of its records hold. A program that works on a
tree somewhere in memory turns it into another one; reading, painting and rotating are shown
for any place of a tree.
-/

namespace Yamux.Tree

open Core HeapM RbTree

/-! ## Entries from one side -/

/-- An entry, with its children given from one side. -/
def Entry.of (d : Dir) (near far parent : Ptr) (c : Color) : Entry :=
  match d with
  | .left => ⟨near, far, parent, c⟩
  | .right => ⟨far, near, parent, c⟩

section Entries

variable (d : Dir) (near far parent p : Ptr) (c c' : Color)

@[simp] theorem Entry.of_child : (Entry.of d near far parent c).child d = near := by
  cases d <;> rfl

@[simp] theorem Entry.of_child_other :
    (Entry.of d near far parent c).child d.other = far := by
  cases d <;> rfl

@[simp] theorem Entry.of_parent : (Entry.of d near far parent c).parent = parent := by
  cases d <;> rfl

@[simp] theorem Entry.of_color : (Entry.of d near far parent c).color = c := by
  cases d <;> rfl

@[simp] theorem Entry.of_withChild :
    (Entry.of d near far parent c).withChild d p = .of d p far parent c := by
  cases d <;> rfl

@[simp] theorem Entry.of_withChild_other :
    (Entry.of d near far parent c).withChild d.other p = .of d near p parent c := by
  cases d <;> rfl

@[simp] theorem Entry.of_withParent :
    (Entry.of d near far parent c).withParent p = .of d near far p c := by
  cases d <;> rfl

@[simp] theorem Entry.of_withColor :
    (Entry.of d near far parent c).withColor c' = .of d near far parent c' := by
  cases d <;> rfl

end Entries

/-! ## Fields of one record -/

section Fields

variable {K : Type} {g : Ptr} {k : K} {e : Entry} {x : ℕ}

theorem does_record : Does (record (some x)) g (.cell x (⟨k, e⟩ : Node K)) ⟨k, e⟩ g
    (.cell x ⟨k, e⟩) := (Does.deref x g _).bind (.load x _ g)

theorem does_keyOf : Does (keyOf (some x)) g (.cell x (⟨k, e⟩ : Node K)) k g (.cell x ⟨k, e⟩) :=
  does_record.bind (.pure _ _ _)

theorem does_rbChild (d : Dir) : Does (rbChild d (some x)) g (.cell x (⟨k, e⟩ : Node K))
    (e.child d) g (.cell x ⟨k, e⟩) := does_record.bind (.pure _ _ _)

theorem does_rbParent : Does (rbParent (some x)) g (.cell x (⟨k, e⟩ : Node K)) e.parent g
    (.cell x ⟨k, e⟩) := does_record.bind (.pure _ _ _)

theorem does_rbColor : Does (rbColor (some x)) g (.cell x (⟨k, e⟩ : Node K)) e.color g
    (.cell x ⟨k, e⟩) := does_record.bind (.pure _ _ _)

theorem does_setEntry (f : Entry → Entry) : Does (setEntry (some x) f) g
    (.cell x (⟨k, e⟩ : Node K)) () g (.cell x ⟨k, f e⟩) :=
  (Does.deref x g _).bind ((Does.load x _ g).bind (.store x _ _ g))

theorem does_setChild (d : Dir) (q : Ptr) : Does (setChild d (some x) q) g
    (.cell x (⟨k, e⟩ : Node K)) () g (.cell x ⟨k, e.withChild d q⟩) := does_setEntry _

theorem does_setParent (q : Ptr) : Does (setParent (some x) q) g
    (.cell x (⟨k, e⟩ : Node K)) () g (.cell x ⟨k, e.withParent q⟩) := does_setEntry _

theorem does_setColor (c : Color) : Does (setColor (some x) c) g
    (.cell x (⟨k, e⟩ : Node K)) () g (.cell x ⟨k, e.withColor c⟩) := does_setEntry _

end Fields

/-! ## Trees and paths -/

variable {K : Type} (κ : ℕ → K)

/-- The records of a tree whose root has the given parent. -/
def layTree : RbTree ℕ → Ptr → Region (Node K)
  | .nil, _ => 1
  | .node c l a r, p =>
    .cell a ⟨κ a, ⟨l.top, r.top, p, c⟩⟩ * (layTree l (some a) * layTree r (some a))

/-- The records of a path whose hole has the given root. -/
def layPath : Path ℕ → Ptr → Region (Node K)
  | [], _ => 1
  | f :: up, hole =>
    .cell f.label ⟨κ f.label, .of f.side hole f.other.top (parent up) f.color⟩ *
      (layTree κ f.other (some f.label) * layPath up (some f.label))

theorem layTree_branch (d : Dir) (c : Color) (near : RbTree ℕ) (a : ℕ) (far : RbTree ℕ)
    (p : Ptr) : layTree κ (branch d c near a far) p =
      .cell a ⟨κ a, .of d near.top far.top p c⟩ *
        (layTree κ near (some a) * layTree κ far (some a)) := by
  cases d
  · rfl
  · exact congrArg _ (mul_comm _ _)

theorem layTree_plug (π : Path ℕ) (t : RbTree ℕ) :
    layTree κ (plug π t) none = layPath κ π t.top * layTree κ t (parent π) := by
  induction π generalizing t with
  | nil => exact (one_mul _).symm
  | cons f up ih =>
    rw [plug_cons, ih, Rung.fill, layTree_branch, layPath, top_branch, parent_cons]
    ac_rfl

/-- The program turns one tree into another one and returns `a`. -/
def Turns {α : Type} (p : RbM K α) (t : RbTree ℕ) (a : α) (t' : RbTree ℕ) : Prop :=
  Does p t.top (layTree κ t none) a t'.top (layTree κ t' none)

variable {κ} {α β : Type} {p : RbM K α} {k : α → RbM K β} {a : α} {b : β}
  {t t' t'' near far inner : RbTree ℕ} {π : Path ℕ} {d : Dir} {c c' : Color} {x y : ℕ}

namespace Turns

theorem pure (a : α) (t : RbTree ℕ) : Turns κ (Pure.pure a) t a t := Does.pure a _ _

theorem bind (hp : Turns κ p t a t') (hk : Turns κ (k a) t' b t'') :
    Turns κ (p >>= k) t b t'' := Does.bind hp hk

theorem root (t : RbTree ℕ) : Turns κ rbRoot t t.top t := Does.globals _ _

/-- Where a tree is turned as a whole. -/
theorem of_plug (h : Does p (topOf π t.top) (layPath κ π t.top * layTree κ t (parent π)) a
    (topOf π t'.top) (layPath κ π t'.top * layTree κ t' (parent π))) :
    Turns κ p (plug π t) a (plug π t') := by
  rw [Turns, top_plug, top_plug, layTree_plug, layTree_plug]
  exact h

/-- A program that works on one record of a tree. -/
theorem of_record {e : Entry} (he : e = .of d near.top far.top (parent π) c)
    (h : Does p (topOf π (some x)) (.cell x ⟨κ x, e⟩) a (topOf π (some x))
      (.cell x ⟨κ x, .of d near.top far.top (parent π) c'⟩)) :
    Turns κ p (plug π (branch d c near x far)) a (plug π (branch d c' near x far)) := by
  subst he
  apply of_plug
  rw [top_branch, top_branch, layTree_branch, layTree_branch]
  exact h.within (mul_left_comm _ _ _) (mul_left_comm _ _ _)

theorem keyOf : Turns κ (keyOf (some x)) (plug π (branch d c near x far)) (κ x)
    (plug π (branch d c near x far)) := of_record rfl does_keyOf

theorem child : Turns κ (rbChild d (some x)) (plug π (branch d c near x far)) near.top
    (plug π (branch d c near x far)) :=
  of_record rfl (by simpa using does_rbChild (e := .of d near.top far.top (parent π) c) d)

theorem child_other : Turns κ (rbChild d.other (some x)) (plug π (branch d c near x far)) far.top
    (plug π (branch d c near x far)) :=
  of_record rfl (by simpa using does_rbChild (e := .of d near.top far.top (parent π) c) d.other)

theorem above : Turns κ (rbParent (some x)) (plug π (branch d c near x far)) (parent π)
    (plug π (branch d c near x far)) :=
  of_record rfl (by simpa using does_rbParent (e := .of d near.top far.top (parent π) c))

theorem color : Turns κ (rbColor (some x)) (plug π (branch d c near x far)) c
    (plug π (branch d c near x far)) :=
  of_record rfl (by simpa using does_rbColor (e := .of d near.top far.top (parent π) c))

theorem setColor (c' : Color) : Turns κ (setColor (some x) c') (plug π (branch d c near x far))
    () (plug π (branch d c' near x far)) :=
  of_record rfl (by
    simpa using does_setColor (k := κ x) (e := .of d near.top far.top (parent π) c) c')

/-- Work in the subtree on the one side. -/
theorem inNear (h : Turns κ p (plug (⟨d, c, x, far⟩ :: π) near) a
    (plug (⟨d, c', x, far⟩ :: π) inner)) :
    Turns κ p (plug π (branch d c near x far)) a (plug π (branch d c' inner x far)) := h

/-- Work in the subtree on the other side. -/
theorem inFar (h : Turns κ p (plug (⟨d.other, c, x, near⟩ :: π) far) a
    (plug (⟨d.other, c', x, near⟩ :: π) inner)) :
    Turns κ p (plug π (branch d c near x far)) a (plug π (branch d c' near x inner)) := by
  rw [plug_cons, plug_cons, Rung.fill, Rung.fill, branch_other, branch_other] at h
  exact h

theorem isRed (π : Path ℕ) (t : RbTree ℕ) : Turns κ (isRed t.top) (plug π t)
    (t.color = .red) (plug π t) := by
  cases t with
  | nil => exact pure _ _
  | node c l a r => exact (color (d := .left)).bind (pure _ _)

theorem parent_of_top (π : Path ℕ) (ht : t.top = some x) :
    Turns κ (rbParent (some x)) (plug π t) (RbTree.parent π) (plug π t) := by
  cases t with
  | nil => cases ht
  | node c l a r =>
    cases ht
    exact above (d := .left)

theorem blacken (π : Path ℕ) (t : RbTree ℕ) :
    Turns κ (blacken t.top) (plug π t) () (plug π (t.paint .black)) := by
  cases t with
  | nil => exact pure _ _
  | node c l a r => exact setColor (d := .left) .black

theorem left : Turns κ (rbLeft (some x)) (plug π (branch d c near x far))
    (d.leftOf near.top far.top) (plug π (branch d c near x far)) := by
  cases d
  · exact child
  · exact child_other

end Turns

/-! ## Distinct addresses -/

/-- The records of a tree are allocated. -/
theorem mem_of_layTree {t : RbTree ℕ} {p : Ptr} {m : Memory (Node K)}
    (h : (layTree κ t p).Holds m) {a : ℕ} (ha : a ∈ t.labels) : a ∈ m := by
  induction t generalizing p m with
  | nil => cases ha
  | node c l b r ihl ihr =>
    obtain ⟨mb, _, -, rfl, hb, ml, mr, -, rfl, hl, hr⟩ := h
    rw [Finmap.mem_union, Finmap.mem_union]
    rcases List.mem_append.mp ha with ha | ha
    · exact .inr (.inl (ihl hl ha))
    · rcases List.mem_cons.mp ha with rfl | ha
      · rw [Region.holds_cell.mp hb]
        exact .inl ((Finmap.mem_singleton _ _ _).mpr rfl)
      · exact .inr (.inr (ihr hr ha))

/-- A tree in memory has no other records. -/
theorem mem_labels_of_layTree {t : RbTree ℕ} {p : Ptr} {m : Memory (Node K)}
    (h : (layTree κ t p).Holds m) {a : ℕ} (ha : a ∈ m) : a ∈ t.labels := by
  induction t generalizing p m with
  | nil =>
    rw [Region.holds_one.mp h] at ha
    exact absurd ha (Finmap.notMem_empty)
  | node c l b r ihl ihr =>
    obtain ⟨mb, _, -, rfl, hb, ml, mr, -, rfl, hl, hr⟩ := h
    rw [Finmap.mem_union, Finmap.mem_union] at ha
    rcases ha with ha | ha | ha
    · rw [Region.holds_cell.mp hb, Finmap.mem_singleton] at ha
      simp [ha]
    · simp [ihl hl ha]
    · simp [ihr hr ha]

/-- A tree in memory has every address once. -/
theorem nodup_of_layTree {t : RbTree ℕ} {p : Ptr} {m : Memory (Node K)}
    (h : (layTree κ t p).Holds m) : t.labels.Nodup := by
  induction t generalizing p m with
  | nil => exact List.nodup_nil
  | node c l b r ihl ihr =>
    obtain ⟨mb, _, hdb, rfl, hb, ml, mr, hd, rfl, hl, hr⟩ := h
    have hbm : b ∈ mb := by
      rw [Region.holds_cell.mp hb]
      exact (Finmap.mem_singleton _ _ _).mpr rfl
    have hbl := hdb b hbm
    rw [Finmap.mem_union, not_or] at hbl
    refine List.nodup_append.mpr ⟨ihl hl, List.nodup_cons.mpr ⟨?_, ihr hr⟩, ?_⟩
    · exact fun hbr => hbl.2 (mem_of_layTree hr hbr)
    · intro x hx y hy hxy
      subst hxy
      have hxl := mem_of_layTree hl hx
      rcases List.mem_cons.mp hy with rfl | hy
      · exact hbl.1 hxl
      · exact hd x hxl (mem_of_layTree hr hy)

theorem Turns.of_nodup (h : t.labels.Nodup → Turns κ p t a t') : Turns κ p t a t' := by
  refine Does.assume (fun F m hm => ?_) h
  obtain ⟨l, r, -, -, hl, -⟩ := Region.holds_mul.mp hm
  exact nodup_of_layTree hl

/-- The two subtrees of a record have different roots. -/
theorem top_ne_top {π : Path ℕ} (h : (plug π (branch d c near x far)).labels.Nodup)
    (hnear : near.top = some y) : far.top ≠ some y := by
  intro hfar
  rw [labels_plug] at h
  have hnode := (List.nodup_append.mp (List.nodup_append.mp h).1).2.1
  have hy {t : RbTree ℕ} (ht : t.top = some y) : y ∈ t.labels := by
    cases t with
    | nil => cases ht
    | node c l a r =>
      cases ht
      simp
  cases d
  · exact (List.nodup_append.mp hnode).2.2 y (hy hnear) y (List.mem_cons_of_mem _ (hy hfar)) rfl
  · exact (List.nodup_append.mp hnode).2.2 y (hy hfar) y (List.mem_cons_of_mem _ (hy hnear)) rfl

/-- Comparing with the left child tells the side of a child. -/
theorem side_eq {π : Path ℕ} (h : (plug π (branch d c near x far)).labels.Nodup)
    (hnear : near.top = some y) :
    (if some y = d.leftOf near.top far.top then Dir.left else .right) = d := by
  cases d
  · exact if_pos hnear.symm
  · exact if_neg fun hfar => top_ne_top h hnear hfar.symm

/-! ## Rotations -/

/-- What points to a record comes to point to another one. -/
theorem does_replaceChild (π : Path ℕ) (x : ℕ) (n : Node K) (q : Ptr) :
    Does (replaceChild (parent π) (some x) q) (topOf π (some x))
      (.cell x n * layPath κ π (some x)) () (topOf π q) (.cell x n * layPath κ π q) := by
  cases π with
  | nil => exact .setGlobals _ _ _
  | cons f up =>
    obtain ⟨d, c, u, o⟩ := f
    simp only [layPath, topOf, parent_cons]
    generalize layPath κ up (some u) = lup
    have hset : Does (setChild d (some u) q) (topOf up (some u))
        (.cell x n * (.cell u ⟨κ u, .of d (some x) o.top (parent up) c⟩ *
          (layTree κ o (some u) * lup))) () (topOf up (some u))
        (.cell x n * (.cell u ⟨κ u, .of d q o.top (parent up) c⟩ *
          (layTree κ o (some u) * lup))) := by
      have h := does_setChild (g := topOf up (some u)) (x := u) (k := κ u)
        (e := .of d (some x) o.top (parent up) c) d q
      rw [Entry.of_withChild] at h
      exact h.within (mul_left_comm _ _ _) (mul_left_comm _ _ _)
    refine ((does_rbChild .left).within (mul_left_comm _ _ _) (mul_left_comm _ _ _)).bind ?_
    cases d with
    | left =>
      rw [Entry.of_child, if_pos rfl]
      exact hset
    | right =>
      -- the record is not on the left side too
      have hside : (Entry.of .right (some x) o.top (parent up) c).child .left = o.top := rfl
      rw [hside]
      cases o with
      | nil => exact hset
      | node c' l y r =>
        apply Does.assume (φ := x ≠ y)
        · intro F m h
          rw [layTree, mul_assoc, mul_assoc, mul_assoc, mul_left_comm (Region.cell u _),
            mul_assoc] at h
          exact Region.ne_of_cells h
        · intro hxy
          rw [top_node, if_neg fun h => hxy (Option.some.inj h).symm]
          exact hset

theorem does_adopt (t : RbTree ℕ) (g p q : Ptr) :
    Does (adopt t.top q) g (layTree κ t p) () g (layTree κ t q) := by
  cases t with
  | nil => exact .pure _ _ _
  | node c l a r => exact (does_setParent q).within rfl rfl

/-- A rotation moves the inner subtree across. -/
theorem turns_rbRotate (d : Dir) (π : Path ℕ) (c c' : Color) (out inner far : RbTree ℕ)
    (x y : ℕ) : Turns κ (rbRotate d (some x))
      (plug π (branch d c out x (branch d c' inner y far))) ()
      (plug π (branch d c' (branch d c out x inner) y far)) := by
  apply Turns.of_plug
  simp only [layTree_branch, top_branch]
  have hadopt := does_adopt (κ := κ) inner (topOf π (some x)) (some y) (some x)
  have hreplace (n : Node K) := does_replaceChild (κ := κ) π x n (some y)
  generalize layPath κ π (some x) = lp, layPath κ π (some y) = lp',
    layTree κ out (some x) = lo, layTree κ inner (some y) = li,
    layTree κ inner (some x) = li', layTree κ far (some y) = lf at *
  generalize topOf π (some x) = g, topOf π (some y) = g', parent π = q at *
  -- the two records, with the entries that they have one after the other
  let X (e : Entry) : Region (Node K) := .cell x ⟨κ x, e⟩
  let Y (e : Entry) : Region (Node K) := .cell y ⟨κ y, e⟩
  let e₀ : Entry := .of d out.top (some y) q c
  let e₁ : Entry := .of d out.top inner.top q c
  let e₂ : Entry := .of d out.top inner.top (some y) c
  let f₀ : Entry := .of d inner.top far.top (some x) c'
  let f₁ : Entry := .of d inner.top far.top q c'
  let f₂ : Entry := .of d (some x) far.top q c'
  have h₁ : Does (rbChild d.other (some x)) g (X e₀) (some y) g (X e₀) := by
    simpa [e₀] using does_rbChild (k := κ x) (e := e₀) d.other
  have h₂ : Does (rbChild d (some y)) g (Y f₀) inner.top g (Y f₀) := by
    simpa [f₀] using does_rbChild (k := κ y) (e := f₀) d
  have h₃ : Does (setChild d.other (some x) inner.top) g (X e₀) () g (X e₁) := by
    simpa [e₀] using does_setChild (k := κ x) (e := e₀) d.other inner.top
  have h₅ : Does (rbParent (some x)) g (X e₁) q g (X e₁) := by
    simpa [e₁] using does_rbParent (k := κ x) (e := e₁)
  have h₆ : Does (setParent (some y) q) g (Y f₀) () g (Y f₁) := by
    simpa [f₀] using does_setParent (k := κ y) (e := f₀) q
  have h₇ : Does (replaceChild q (some x) (some y)) g (X e₁ * lp) () g' (X e₁ * lp') := hreplace _
  have h₈ : Does (setChild d (some y) (some x)) g' (Y f₁) () g' (Y f₂) := by
    simpa [f₁] using does_setChild (k := κ y) (e := f₁) d (some x)
  have h₉ : Does (setParent (some x) (some y)) g' (X e₁) () g' (X e₂) := by
    simpa [e₁] using does_setParent (k := κ x) (e := e₁) (some y)
  apply h₁.step (F := lp * (lo * (Y f₀ * (li * lf)))) (by ac_rfl)
  apply h₂.step (F := lp * (lo * (X e₀ * (li * lf)))) (by ac_rfl)
  apply h₃.step (F := lp * (lo * (Y f₀ * (li * lf)))) (by ac_rfl)
  apply hadopt.step (F := lp * (lo * (Y f₀ * (X e₁ * lf)))) (by ac_rfl)
  apply h₅.step (F := lp * (lo * (Y f₀ * (li' * lf)))) (by ac_rfl)
  apply h₆.step (F := lp * (lo * (X e₁ * (li' * lf)))) (by ac_rfl)
  apply h₇.step (F := lo * (Y f₁ * (li' * lf))) (by ac_rfl)
  apply h₈.step (F := lp' * (lo * (X e₁ * (li' * lf)))) (by ac_rfl)
  exact h₉.within (F := lp' * (lo * (Y f₂ * (li' * lf)))) (by ac_rfl) (by ac_rfl)

end Yamux.Tree
