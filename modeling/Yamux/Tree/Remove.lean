import Yamux.Tree.Insert

/-!
# Removal

`RB_REMOVE` takes a record out, or lets its successor take its place if it has two children.
Where a black record went, `RB_REMOVE_COLOR` works its way up with a tree that counts one
black record less than the path to it expects.
-/

namespace Yamux.Tree

open Core HeapM RbTree

variable {K : Type} {κ : ℕ → K} {t s n f near far : RbTree ℕ} {π up : Path ℕ} {d : Dir}
  {c : Color} {p x y z : ℕ}

/-! ## Rounds -/

/-- A red sibling moves up. -/
theorem turns_removeTurn_red : Turns κ (rbRemoveColorTurn d (some p) (some y))
    (plug π (branch d .black t p (branch d .red n y f))) n.top
    (plug π (branch d .black (branch d .red t p n) y f)) := by
  refine (Turns.inFar (Turns.color (d := d))).bind ?_
  rw [if_pos rfl]
  have hpaint : Turns κ (rbSetBlackRed (some y) (some p))
      (plug π (branch d .black t p (branch d .red n y f))) ()
      (plug π (branch d .red t p (branch d .black n y f))) :=
    (Turns.inFar (Turns.setColor (d := d) .black)).bind (.setColor .red)
  exact hpaint.bind ((turns_rbRotate d π .red .black t n f p y).bind
    (Turns.inNear (Turns.child_other (d := d))))

theorem turns_removeTurn_black (hs : s.color = .black) (hy : s.top = some y) :
    Turns κ (rbRemoveColorTurn d (some p) s.top) (plug π (branch d c t p s)) s.top
      (plug π (branch d c t p s)) := by
  obtain ⟨sc, sn, a, sf, rfl⟩ := eq_branch d (t := s) (by rintro rfl; cases hy)
  obtain rfl : sc = .black := by simpa using hs
  rw [top_branch]
  refine (Turns.inFar (Turns.color (d := d))).bind ?_
  rw [if_neg (by decide)]
  exact .pure _ _

/-- The colours of the children of the sibling. -/
theorem turns_removeRest_children {β : Type} {k : Bool → Bool → RbM K β} {b : β} {t' : RbTree ℕ}
    (hk : Turns κ (k (n.color = .red) (f.color = .red))
      (plug π (branch d c t p (branch d .black n y f))) b t') :
    Turns κ (do
        let near ← isRed (← rbChild d (some y))
        let far ← isRed (← rbChild d.other (some y))
        k near far) (plug π (branch d c t p (branch d .black n y f))) b t' := by
  refine (Turns.inFar (Turns.child (d := d))).bind ?_
  refine (Turns.inFar (Turns.inNear (d := d) (.isRed _ _))).bind ?_
  refine (Turns.inFar (Turns.child_other (d := d))).bind ?_
  exact (Turns.inFar (Turns.inFar (d := d) (.isRed _ _))).bind hk

/-- A sibling without red children turns red, and the parent is next. -/
theorem turns_removeRest_black (hn : n.color ≠ .red) (hf : f.color ≠ .red) :
    Turns κ (rbRemoveColorRest d (some p) (some y))
      (plug π (branch d c t p (branch d .black n y f))) (some (parent π, some p))
      (plug π (branch d c t p (branch d .red n y f))) := by
  refine turns_removeRest_children ?_
  simp only [hn, hf, decide_false, Bool.or_self, Bool.false_eq_true, if_false]
  exact (Turns.inFar (Turns.setColor (d := d) .red)).bind (Turns.above.bind (.pure _ _))

/-- The end of a round that leaves the loop: the sibling moves up with the colour of the parent. -/
theorem turns_removeRest_up {c' : Color} : Turns κ (do
      let color ← rbColor (some p)
      setColor (some y) color
      setColor (some p) .black
      let outer ← rbChild d.other (some y)
      blacken outer
      rbRotate d (some p)
      pure none) (plug π (branch d c t p (branch d c' n y f))) (none : Option (Ptr × Ptr))
    (plug π (branch d c (branch d .black t p n) y (f.paint .black))) := by
  refine Turns.color.bind ?_
  refine (Turns.inFar (Turns.setColor (d := d) c)).bind ?_
  refine (Turns.setColor .black).bind ?_
  refine (Turns.inFar (Turns.child_other (d := d))).bind ?_
  refine (Turns.inFar (Turns.inFar (d := d) (.blacken _ _))).bind ?_
  exact (turns_rbRotate d π .black c t n _ p y).bind (.pure _ _)

/-- A sibling with a red child on the outer side. -/
theorem turns_removeRest_outer (hf : f.color = .red) :
    Turns κ (rbRemoveColorRest d (some p) (some y))
      (plug π (branch d c t p (branch d .black n y f))) none
      (plug π (branch d c (branch d .black t p n) y (f.paint .black))) := by
  refine turns_removeRest_children ?_
  simp only [hf, decide_true, Bool.or_true, if_true]
  exact (Turns.pure _ _).bind turns_removeRest_up

/-- A sibling with a red child on the inner side only. -/
theorem turns_removeRest_inner (hf : f.color ≠ .red) :
    Turns κ (rbRemoveColorRest d (some p) (some y))
      (plug π (branch d c t p (branch d .black (branch d .red near z far) y f))) none
      (plug π (branch d c (branch d .black t p near) z (branch d .black far y f))) := by
  refine turns_removeRest_children ?_
  simp only [hf, color_branch, decide_true, decide_false, Bool.true_or, if_true]
  have hinner : Turns κ (rbRemoveColorInner d (some p) (some y) false)
      (plug π (branch d c t p (branch d .black (branch d .red near z far) y f))) (some z)
      (plug π (branch d c t p (branch d .black near z (branch d .red far y f)))) := by
    have hrotate := turns_rbRotate (κ := κ) d.other (⟨d.other, c, p, t⟩ :: π) .red .black f far
      near y z
    rw [branch_other, branch_other, branch_other, branch_other] at hrotate
    refine (Turns.inFar (Turns.child (d := d))).bind ?_
    refine (Turns.inFar (Turns.inNear (d := d) (.blacken _ _))).bind ?_
    refine (Turns.inFar (Turns.setColor (d := d) .red)).bind ?_
    rw [paint_branch]
    refine (Turns.inFar hrotate).bind ?_
    have hchild : Turns κ (rbChild d.other (some p))
        (plug π (branch d c t p (branch d .black near z (branch d .red far y f))))
        (branch d .black near z (branch d .red far y f)).top
        (plug π (branch d c t p (branch d .black near z (branch d .red far y f)))) :=
      Turns.child_other
    rwa [top_branch] at hchild
  rw [← paint_branch d .red .black far y f]
  exact hinner.bind turns_removeRest_up

/-- What a round leaves: a balanced tree, or the next place to go on from, which is closer to
the root unless the loop ends there. -/
inductive AfterRound (T : RbTree ℕ) (m : ℕ) : Option (Ptr × Ptr) → RbTree ℕ → Prop where
  | done {t' : RbTree ℕ} {N : ℕ} (hl : t'.labels = T.labels) (ht : t'.Balanced .black N) :
      AfterRound T m none t'
  | next {π : Path ℕ} {r : RbTree ℕ} {c : Color} {k : ℕ} (hl : (plug π r).labels = T.labels)
      (hπ : Path.Takes c (k + 1) π) (hr : r.Short k) (hm : π.length ≤ m ∨ r.color = .red) :
      AfterRound T m (some (parent π, r.top)) (plug π r)

/-- The second part of a round, with a tree in its hole that counts one less than its sibling. -/
theorem turns_removeRest {k m : ℕ} (ht : t.Balanced .black k) (hs : s.Balanced .black (k + 1))
    (hπ : Path.Takes c (k + 1 + c.weight) π) (hm : π.length ≤ m ∨ c = .red) :
    ∃ res t', Turns κ (rbRemoveColorRest d (some p) s.top) (plug π (branch d c t p s)) res t' ∧
      AfterRound (plug π (branch d c t p s)) m res t' := by
  have hne : s ≠ .nil := by
    rintro rfl
    cases hs
  obtain ⟨sc, n, y, f, rfl⟩ := eq_branch d hne
  obtain rfl : sc = .black := by simpa using hs.color_eq
  obtain ⟨-, j, cn, cf, hj, hn, hf⟩ := hs.of_branch_black
  obtain rfl : j = k := by omega
  rw [top_branch]
  by_cases hfred : f.color = .red
  · -- a red child on the outer side
    obtain rfl : cf = .red := hf.color_eq.symm.trans hfred
    obtain ⟨N, hN⟩ := hπ.plug (.branch_of_black (d := d) (a := y)
      (.branch_black (d := d) (a := p) ht hn) hf.paint_black)
    refine ⟨_, _, turns_removeRest_outer hfred, .done (labels_plug_congr π ?_) hN⟩
    cases d <;> simp [branch]
  · obtain rfl : cf = .black := by
      cases cf with
      | black => rfl
      | red => exact absurd hf.color_eq hfred
    by_cases hnred : n.color = .red
    · -- a red child on the inner side only
      have hnne : n ≠ .nil := by
        rintro rfl
        cases hnred
      obtain ⟨nc, near, z, far, rfl⟩ := eq_branch d hnne
      obtain rfl : nc = .red := by simpa using hnred
      obtain ⟨-, hnear, hfar⟩ := hn.of_branch_red
      obtain ⟨N, hN⟩ := hπ.plug (.branch_of_black (d := d) (a := z)
        (.branch_black (d := d) (a := p) ht hnear) (.branch_black (d := d) (a := y) hfar hf))
      refine ⟨_, _, turns_removeRest_inner hfred, .done (labels_plug_congr π ?_) hN⟩
      cases d <;> simp [branch]
    · obtain rfl : cn = .black := by
        cases cn with
        | black => rfl
        | red => exact absurd hn.color_eq hnred
      -- no red child: what is missing is missing in the parent too
      refine ⟨_, _, turns_removeRest_black hnred hfred, ?_⟩
      have hlabels : (plug π (branch d c t p (branch d .red n y f))).labels =
          (plug π (branch d c t p (branch d .black n y f))).labels := by
        refine labels_plug_congr π ?_
        cases d <;> simp [branch]
      have hsibling : (branch d .red n y f).Balanced .red j := .branch_red hn hf
      cases c with
      | black =>
        have hshort : (branch d .black t p (branch d .red n y f)).Short (j + 1) :=
          .inl (.branch_black ht hsibling)
        simpa using AfterRound.next hlabels hπ hshort (by simpa using hm)
      | red =>
        have hshort : (branch d .red t p (branch d .red n y f)).Short j := by
          refine .inr ⟨color_branch .., ?_⟩
          rw [paint_branch]
          exact .branch_black ht hsibling
        simpa using AfterRound.next hlabels hπ hshort (m := m) (by simp)

/-- A round of the loop of `RB_REMOVE_COLOR`. -/
theorem turns_removeRound {k : ℕ} (ht : t.Balanced .black k) {c' : Color}
    (hπ : Path.Takes c' (k + 1) (⟨d, c, p, s⟩ :: up)) :
    ∃ res t', Turns κ (rbRemoveColorRound d (some p)) (plug up (branch d c t p s)) res t' ∧
      AfterRound (plug up (branch d c t p s)) up.length res t' := by
  have hchild : Turns κ (rbChild d.other (some p)) (plug up (branch d c t p s)) s.top
      (plug up (branch d c t p s)) := Turns.child_other
  have hblack (hs : s.Balanced .black (k + 1)) (hup : Path.Takes c (k + 1 + c.weight) up) :
      ∃ res t', Turns κ (rbRemoveColorRound d (some p)) (plug up (branch d c t p s)) res t' ∧
        AfterRound (plug up (branch d c t p s)) up.length res t' := by
    obtain ⟨res, t', hrest, hafter⟩ := turns_removeRest (κ := κ) (d := d) (p := p) ht hs hup
      (.inl le_rfl)
    obtain ⟨y, hy⟩ : ∃ y, s.top = some y := by
      cases hs
      exact ⟨_, rfl⟩
    exact ⟨res, t', hchild.bind ((turns_removeTurn_black hs.color_eq hy).bind hrest), hafter⟩
  cases hπ with
  | red ho hup => exact hblack ho hup
  | @black _ cs _ _ _ _ _ ho hup =>
    cases cs with
    | black => exact hblack ho hup
    | red =>
      -- a red sibling has black children
      have hne : s ≠ .nil := by
        rintro rfl
        cases ho
      obtain ⟨sc, n, y, f, rfl⟩ := eq_branch d hne
      obtain rfl : sc = .red := by simpa using ho.color_eq
      obtain ⟨-, hn, hf⟩ := ho.of_branch_red
      obtain ⟨res, t', hrest, hafter⟩ := turns_removeRest (κ := κ) (d := d) (c := .red)
        (p := p) (π := ⟨d, .black, y, f⟩ :: up) (m := up.length) ht hn (.black hf hup) (.inr rfl)
      refine ⟨res, t', hchild.bind ?_, ?_⟩
      · rw [top_branch]
        exact turns_removeTurn_red.bind hrest
      · have hlabels : (plug (⟨d, .black, y, f⟩ :: up) (branch d .red t p n)).labels =
            (plug up (branch d .black t p (branch d .red n y f))).labels := by
          refine labels_plug_congr up ?_
          cases d <;> simp [branch, Rung.fill]
        cases hafter with
        | done hl ht' => exact .done (hl.trans hlabels) ht'
        | next hl hπ hr hm => exact .next (hl.trans hlabels) hπ hr hm

/-! ## The loop of `RB_REMOVE_COLOR` -/

/-- The tree in a hole and the whole have different roots, unless there is no way up. -/
theorem top_ne_root {f : Rung ℕ} (h : (plug (f :: up) t).labels.Nodup) :
    t.top ≠ (plug (f :: up) t).top := by
  intro heq
  cases htop : (plug (f :: up) t).top with
  | none =>
    obtain ⟨d, c, a, o⟩ := f
    have hnil := top_eq_none.mp htop
    have hlabels := congrArg labels hnil
    rw [labels_plug] at hlabels
    cases d <;> simp [before, after] at hlabels
  | some a =>
    rw [htop] at heq
    have ha : a ∈ t.labels := by
      cases t with
      | nil => cases heq
      | node c l b r =>
        cases heq
        simp
    rw [labels_plug] at h
    have hparts := List.nodup_append.mp h
    rcases top_plug_mem htop with hmem | hmem
    · exact (List.nodup_append.mp hparts.1).2.2 a hmem a ha rfl
    · exact hparts.2.2 a (List.mem_append_right _ ha) a hmem rfl

/-- The place of a black record below the root is worked on from its side. -/
theorem turns_removeLoop_enter {α : Type} {a : α} {t' : RbTree ℕ} {k : Dir → RbM K α}
    (hs : s ≠ .nil) (hk : Turns κ (k d) (plug up (branch d c t p s)) a t') :
    Turns κ (do
        let left ← rbLeft (some p)
        k (if left = t.top then .left else .right)) (plug up (branch d c t p s)) a t' := by
  apply Turns.of_nodup
  intro hnodup
  have hside : (if d.leftOf t.top s.top = t.top then Dir.left else .right) = d := by
    cases d with
    | left => exact if_pos rfl
    | right =>
      refine if_neg fun heq => ?_
      cases htop : t.top with
      | none => exact hs (top_eq_none.mp (heq.trans htop))
      | some x => exact top_ne_top hnodup htop (heq.trans htop)
  refine Turns.left.bind ?_
  rw [hside]
  exact hk

/-- The loop ends at a place where painting the root black balances the whole. -/
theorem turns_removeLoop {k fuel : ℕ} {c : Color} (hπ : Path.Takes c (k + 1) π) (ht : t.Short k)
    (hf : π.length < fuel ∨ t.color = .red ∧ 0 < fuel) :
    ∃ π' s, Turns κ (rbRemoveColorLoop fuel (parent π) t.top) (plug π t) s.top (plug π' s) ∧
      (plug π' s).labels = (plug π t).labels ∧
      ∃ N, (plug π' (s.paint .black)).Balanced .black N := by
  induction fuel generalizing π t k c with
  | zero => omega
  | succ fuel ih =>
    have hred : Turns κ (isRed t.top) (plug π t) (t.color = .red) (plug π t) := .isRed _ _
    have hroot := Turns.root (κ := κ) (plug π t)
    rcases ht with ht | ⟨hcolor, ht⟩
    · have hblack : ¬ t.color = .red := by
        rw [ht.color_eq]
        decide
      cases π with
      | nil =>
        have hpaint : t.paint .black = t := by
          rw [← ht.color_eq, paint_color]
        refine ⟨[], t, hred.bind (hroot.bind ?_), rfl, k, by rw [hpaint]; exact ht⟩
        simp only [plug_nil, decide_true, Bool.or_true, if_true]
        exact .pure _ _
      | cons f up =>
        obtain ⟨d, pc, p, s⟩ := f
        have hs : s ≠ .nil := by
          rintro rfl
          cases hπ with
          | red ho hup => cases ho
          | black ho hup => cases ho
        obtain ⟨res, t', hround, hafter⟩ := turns_removeRound (κ := κ) ht hπ
        -- the loop goes into the round, and on from what it leaves
        have henter {π' : Path ℕ} {u : RbTree ℕ}
            (hrest : Turns κ (do
                let next ← rbRemoveColorRound d (some p)
                rbRemoveColorNext (rbRemoveColorLoop fuel) next)
              (plug up (branch d pc t p s)) u.top (plug π' u)) :
            Turns κ (rbRemoveColorLoop (fuel + 1) (some p) t.top)
              (plug (⟨d, pc, p, s⟩ :: up) t) u.top (plug π' u) := by
          apply Turns.of_nodup
          intro hnodup
          refine hred.bind (hroot.bind ?_)
          rw [decide_eq_false hblack, decide_eq_false (top_ne_root hnodup), Bool.or_self,
            if_neg (by decide)]
          exact turns_removeLoop_enter (k := fun e => do
            let next ← rbRemoveColorRound e (some p)
            rbRemoveColorNext (rbRemoveColorLoop fuel) next) hs hrest
        cases hafter with
        | @done _ N hl hN =>
          refine ⟨[], t', henter (hround.bind (Turns.root t')), hl, N, ?_⟩
          simpa using hN.paint_black
        | @next π₁ r c₁ k₁ hl hπ₁ hr hm =>
          have hfuel : π₁.length < fuel ∨ r.color = .red ∧ 0 < fuel := by
            simp only [List.length_cons, hblack, false_and, or_false] at hf
            rcases hm with hm | hm
            · exact .inl (by omega)
            · exact .inr ⟨hm, by omega⟩
          obtain ⟨π', u, hloop, hlabels, hN⟩ := ih hπ₁ hr hfuel
          exact ⟨π', u, henter (hround.bind hloop), hlabels.trans hl, hN⟩
    · refine ⟨π, t, hred.bind (hroot.bind ?_), rfl, ?_⟩
      · simp only [hcolor, decide_true, Bool.true_or, if_true]
        exact .pure _ _
      · cases c with
        | black => exact hπ.plug ht
        | red => exact hπ.black_of_red.plug ht

/-- `RB_REMOVE_COLOR` mends a tree with one black record too few in one place. -/
theorem turns_rbRemoveColor {k fuel : ℕ} {c : Color} (hπ : Path.Takes c (k + 1) π)
    (ht : t.Short k) (hf : π.length < fuel) :
    ∃ t', Turns κ (rbRemoveColor fuel (parent π) t.top) (plug π t) () t' ∧
      t'.labels = (plug π t).labels ∧ ∃ N, t'.Balanced .black N := by
  obtain ⟨π', s, hloop, hlabels, hN⟩ := turns_removeLoop (κ := κ) hπ ht (.inl hf)
  refine ⟨_, hloop.bind (.blacken π' s), ?_, hN⟩
  rw [← hlabels]
  exact labels_plug_congr π' (labels_paint .black s)

/-! ## `RB_REMOVE` -/

/-- Put a subtree into the place of the record above it. -/
theorem does_rbUnlink (π : Path ℕ) (q : RbTree ℕ) {e : Entry} (he : e.parent = parent π) :
    Does (rbUnlink (some x) q.top) (topOf π (some x))
      (.cell x ⟨κ x, e⟩ * (layPath κ π (some x) * layTree κ q (some x))) (parent π, e.color)
      (topOf π q.top) (.cell x ⟨κ x, e⟩ * (layPath κ π q.top * layTree κ q (parent π))) := by
  rw [← he]
  apply does_rbParent.step rfl
  apply does_rbColor.step rfl
  apply (does_adopt q (topOf π (some x)) (some x) e.parent).step
    (F := .cell x ⟨κ x, e⟩ * layPath κ π (some x)) (by ac_rfl)
  rw [he]
  apply (does_replaceChild π x ⟨κ x, e⟩ q.top).step (F := layTree κ q (parent π)) (by ac_rfl)
  rw [mul_assoc]
  exact .pure _ _ _

/-- A record with one subtree at most is taken out. -/
theorem does_rbUnlink_plug (d : Dir) (π : Path ℕ) (c : Color) (q : RbTree ℕ) (x : ℕ) :
    Does (rbUnlink (some x) q.top) (plug π (branch d c q x .nil)).top
      (layTree κ (plug π (branch d c q x .nil)) none) (parent π, c) (plug π q).top
      (layTree κ (plug π q) none *
        .cell x ⟨κ x, .of d q.top none (parent π) c⟩) := by
  have hnil : layTree κ .nil (some x) = 1 := rfl
  rw [layTree_plug, layTree_plug, top_plug, top_plug, layTree_branch, top_branch, hnil, mul_one,
    mul_left_comm, mul_comm (layPath κ π q.top * _)]
  simpa using does_rbUnlink (κ := κ) (x := x) π q (e := .of d q.top none (parent π) c)
    (Entry.of_parent ..)

/-- A record that was taken out of a balanced tree is made up for. -/
theorem turns_rbRemove_end {N fuel : ℕ} (d : Dir) {q : RbTree ℕ} {s : ℕ}
    (h : (plug π (branch d c q s .nil)).Balanced .black N) (hf : π.length < fuel) (elm : Ptr) :
    ∃ t', Turns κ (if c = .black then do
          rbRemoveColor fuel (parent π) q.top
          pure elm
        else pure elm) (plug π q) elm t' ∧
      t'.labels = (plug π q).labels ∧ ∃ N, t'.Balanced .black N := by
  obtain ⟨c', n, hπ, hs⟩ := Path.Takes.of_plug h
  cases c with
  | red =>
    obtain ⟨rfl, hq, hnil⟩ := hs.of_branch_red
    exact ⟨_, .pure _ _, rfl, hπ.black_of_red.plug hq⟩
  | black =>
    obtain ⟨rfl, m, cq, cn, rfl, hq, hnil⟩ := hs.of_branch_black
    obtain ⟨t', hcolor, hlabels, hbalanced⟩ := turns_rbRemoveColor (κ := κ) hπ hq.short hf
    exact ⟨t', hcolor.bind (.pure _ _), hlabels, hbalanced⟩

/-- The way down on one side ends at a record without a child there. -/
theorem turns_rbOuter (d : Dir) {fuel : ℕ} (ht : t ≠ .nil) (hf : t.depth < fuel + 1)
    (π : Path ℕ) : ∃ ρ c s q, t = plug ρ (branch d c .nil s q) ∧ (∀ f ∈ ρ, f.side = d) ∧
      Turns κ (rbOuter d fuel t.top) (plug π t) (some s) (plug π t) := by
  induction fuel generalizing t π with
  | zero =>
    cases t with
    | nil => exact absurd rfl ht
    | node c l a r => simp [depth] at hf
  | succ fuel ih =>
    obtain ⟨c, near, a, far, rfl⟩ := eq_branch d ht
    rw [top_branch]
    by_cases hnear : near = .nil
    · subst hnear
      exact ⟨[], c, a, far, rfl, by simp, Turns.child.bind (.pure _ _)⟩
    · have hdepth : near.depth + 1 ≤ (branch d c near a far).depth := by
        cases d <;> simp [branch, depth]
      obtain ⟨ρ, c', s, q, hplug, hside, houter⟩ := ih hnear (by omega) (⟨d, c, a, far⟩ :: π)
      refine ⟨ρ ++ [⟨d, c, a, far⟩], c', s, q, ?_, ?_, ?_⟩
      · rw [plug_append, ← hplug]
        rfl
      · intro f hf
        rcases List.mem_append.mp hf with hf | hf
        · exact hside f hf
        · rw [List.mem_singleton.mp hf]
      · refine Turns.child.bind ?_
        rw [if_neg (mt top_eq_none.mp hnear)]
        exact Turns.inNear houter

/-- The way up to the root changes nothing. -/
theorem turns_rbAugment {fuel : ℕ} (hf : π.length ≤ fuel) (t : RbTree ℕ) :
    Turns κ (rbAugment fuel (parent π)) (plug π t) () (plug π t) := by
  have main {fuel : ℕ} (f : Rung ℕ) (up : Path ℕ) (t : RbTree ℕ) (hf : up.length < fuel) :
      Turns κ (rbAugmentUp fuel (some f.label)) (plug (f :: up) t) () (plug (f :: up) t) := by
    induction fuel generalizing f up t with
    | zero => omega
    | succ fuel ih =>
      refine (Turns.parent_of_top up (t := f.fill t) (top_branch ..)).bind ?_
      cases up with
      | nil => exact .pure _ _
      | cons g up =>
        simp only [List.length_cons] at hf
        exact ih g up (f.fill t) (by omega)
  cases π with
  | nil => exact .pure _ _
  | cons f up => exact main f up t hf

/-- A record takes the place of another one. -/
theorem does_rbExchange {l r : RbTree ℕ} (hl : l ≠ .nil) (π : Path ℕ) (c : Color) (x s : ℕ)
    (e : Entry) :
    Does (rbExchange (some x) (some s)) (plug π (node c l x r)).top
      (layTree κ (plug π (node c l x r)) none * .cell s ⟨κ s, e⟩) ()
      (plug π (node c l s r)).top (layTree κ (plug π (node c l s r)) none *
        .cell x ⟨κ x, ⟨l.top, r.top, parent π, c⟩⟩) := by
  have hreplace := does_replaceChild (κ := κ) π x ⟨κ x, ⟨l.top, r.top, parent π, c⟩⟩ (some s)
  have hrecord (g : Ptr) := does_record (g := g) (x := x) (k := κ x)
    (e := ⟨l.top, r.top, parent π, c⟩)
  have habove := does_rbParent (g := topOf π (some x)) (x := x) (k := κ x)
    (e := ⟨l.top, r.top, parent π, c⟩)
  have hleft := does_rbChild (g := topOf π (some s)) (x := x) (k := κ x)
    (e := ⟨l.top, r.top, parent π, c⟩) .left
  have hright := does_rbChild (g := topOf π (some s)) (x := x) (k := κ x)
    (e := ⟨l.top, r.top, parent π, c⟩) .right
  have hset := does_setEntry (g := topOf π (some x)) (x := s) (k := κ s) (e := e)
    fun _ => ⟨l.top, r.top, parent π, c⟩
  have hadopt := does_adopt (κ := κ) r (topOf π (some s)) (some x) (some s)
  have hparent : Does (setParent l.top (some s)) (topOf π (some s)) (layTree κ l (some x)) ()
      (topOf π (some s)) (layTree κ l (some s)) := by
    have h := does_adopt (κ := κ) l (topOf π (some s)) (some x) (some s)
    rwa [adopt, if_neg (mt top_eq_none.mp hl)] at h
  simp only [layTree_plug, top_plug, top_node, layTree]
  generalize layPath κ π (some x) = lp, layPath κ π (some s) = lp',
    layTree κ l (some x) = ll, layTree κ l (some s) = ll', layTree κ r (some x) = lr,
    layTree κ r (some s) = lr', topOf π (some x) = g, topOf π (some s) = g',
    Region.cell x (⟨κ x, ⟨l.top, r.top, parent π, c⟩⟩ : Node K) = X,
    Region.cell s (⟨κ s, e⟩ : Node K) = S,
    Region.cell s (⟨κ s, ⟨l.top, r.top, parent π, c⟩⟩ : Node K) = S' at *
  apply (hrecord g).step (F := lp * (ll * (lr * S))) (by ac_rfl)
  apply hset.step (F := lp * (ll * (lr * X))) (by ac_rfl)
  apply habove.step (F := lp * (ll * (lr * S'))) (by ac_rfl)
  apply hreplace.step (F := ll * (lr * S')) (by ac_rfl)
  apply hleft.step (F := lp' * (ll * (lr * S'))) (by ac_rfl)
  apply hparent.step (F := lp' * (X * (lr * S'))) (by ac_rfl)
  apply hright.step (F := lp' * (ll' * (lr * S'))) (by ac_rfl)
  exact hadopt.within (F := lp' * (X * (ll' * S'))) (by ac_rfl) (by ac_rfl)

/-- The parent of the successor, where the successor has taken the place of the record. -/
theorem parent_exchange {ρ : Path ℕ} {l q : RbTree ℕ} {old : ℕ}
    (h : (plug (ρ ++ ⟨.right, c, old, l⟩ :: π) q).labels.Nodup) (s : ℕ) :
    (if parent (ρ ++ ⟨.right, c, old, l⟩ :: π) = some old then some s
      else parent (ρ ++ ⟨.right, c, old, l⟩ :: π)) = parent (ρ ++ ⟨.right, c, s, l⟩ :: π) := by
  cases ρ with
  | nil => exact if_pos rfl
  | cons f ρ =>
    refine if_neg fun hf => ?_
    obtain rfl : f.label = old := Option.some.inj hf
    -- the label of the rung is to the right of the record
    have hmem : f.label ∈ (plug (f :: ρ) q).labels := by
      rw [labels_plug]
      obtain ⟨d, c', a, o⟩ := f
      cases d <;> simp [before, after]
    rw [plug_append, plug_cons, labels_plug, Rung.fill] at h
    have hnode := (List.nodup_append.mp (List.nodup_append.mp h).1).2.1
    exact (List.nodup_cons.mp (List.nodup_append.mp hnode).2.1).1 hmem

/-- The successor of a record with two children takes its place. -/
theorem does_rbSplice {l r : RbTree ℕ} (hl : l ≠ .nil) (hr : r ≠ .nil) {old fuel : ℕ}
    (hf : (plug π (node c l old r)).depth < fuel) :
    ∃ ρ c' s q e, r = plug ρ (branch .right c' q s .nil) ∧
      (ρ ++ ⟨.right, c, s, l⟩ :: π).length < fuel ∧ before ρ = [] ∧
      Does (rbSplice fuel (some old)) (plug π (node c l old r)).top
        (layTree κ (plug π (node c l old r)) none)
        (parent (ρ ++ ⟨.right, c, s, l⟩ :: π), q.top, c')
        (plug (ρ ++ ⟨.right, c, s, l⟩ :: π) q).top
        (layTree κ (plug (ρ ++ ⟨.right, c, s, l⟩ :: π) q) none * .cell old ⟨κ old, e⟩) := by
  have hdepth := length_add_depth_le π (node c l old r)
  rw [depth] at hdepth
  obtain ⟨ρ, c', s, q, hplug, hside, houter⟩ := turns_rbOuter (κ := κ) .left hr
    (show r.depth < fuel + 1 by omega) (⟨.right, c, old, l⟩ :: π)
  have hlength := length_add_depth_le ρ (branch .left c' .nil s q)
  rw [← hplug] at hlength
  have hbefore : before ρ = [] := by
    clear hplug houter hlength
    induction ρ with
    | nil => rfl
    | cons f ρ ih =>
      rw [before, ih fun g hg => hside g (List.mem_cons_of_mem _ hg),
        hside f (List.mem_cons_self ..)]
      rfl
  have hpath (a : ℕ) : (ρ ++ ⟨.right, c, a, l⟩ :: π).length < fuel := by
    simp only [List.length_append, List.length_cons]
    omega
  have hwhole (a : ℕ) (u : RbTree ℕ) :
      plug (ρ ++ ⟨.right, c, a, l⟩ :: π) u = plug π (node c l a (plug ρ u)) := plug_append ..
  have hunlink := does_rbUnlink_plug (κ := κ) .right (ρ ++ ⟨.right, c, old, l⟩ :: π) c' q s
  have hexchange := does_rbExchange (κ := κ) hl π c old s
    (e := .of .right q.top none (parent (ρ ++ ⟨.right, c, old, l⟩ :: π)) c') (r := plug ρ q)
  have haugment := turns_rbAugment (κ := κ) (hpath s).le q
  refine ⟨ρ, c', s, q, ⟨l.top, (plug ρ q).top, parent π, c⟩, hplug, hpath s, hbefore, ?_⟩
  apply Does.assume
  · intro F m hm
    obtain ⟨m', -, -, -, hm', -⟩ := Region.holds_mul.mp hm
    exact nodup_of_layTree hm'
  · intro hnodup
    have hparent := parent_exchange (ρ := ρ) (q := branch .left c' .nil s q)
      (by rw [hwhole, ← hplug]; exact hnodup) s
    have hright : Turns κ (rbRight (some s)) (plug π (node c l old r)) q.top
        (plug π (node c l old r)) := by
      have hchild : Turns κ (rbRight (some s))
          (plug (ρ ++ ⟨.right, c, old, l⟩ :: π) (branch .left c' .nil s q)) q.top
          (plug (ρ ++ ⟨.right, c, old, l⟩ :: π) (branch .left c' .nil s q)) :=
        Turns.child_other (d := .left)
      rwa [hwhole, ← hplug] at hchild
    have hchild : Turns κ (rbRight (some old)) (plug π (node c l old r)) r.top
        (plug π (node c l old r)) := Turns.child (d := .right)
    refine Does.bind hchild (Does.bind houter (Does.bind hright ?_))
    have hstart : plug π (node c l old r) =
        plug (ρ ++ ⟨.right, c, old, l⟩ :: π) (branch .right c' q s .nil) := by
      rw [hwhole, hplug]
      rfl
    rw [hstart]
    apply hunlink.bind
    apply does_rbParent.step (mul_comm _ _)
    rw [Entry.of_parent, hparent, mul_comm, hwhole, hwhole]
    apply hexchange.bind
    rw [← hwhole]
    exact (haugment.within rfl rfl).bind (.pure _ _ _)

/-- What `RB_REMOVE` leaves before the colours are mended: a place where a record is missing. -/
theorem does_rbDetach {N fuel : ℕ} {l r : RbTree ℕ}
    (hN : (plug π (node c l x r)).Balanced .black N) (hf : (plug π (node c l x r)).depth < fuel) :
    ∃ ψ d c' q s e N', Does (rbDetach fuel (some x) l.top r.top) (plug π (node c l x r)).top
        (layTree κ (plug π (node c l x r)) none) (parent ψ, q.top, c') (plug ψ q).top
        (layTree κ (plug ψ q) none * .cell x ⟨κ x, e⟩) ∧
      (plug ψ (branch d c' q s .nil)).Balanced .black N' ∧ ψ.length < fuel ∧
      ∃ A B, (plug π (node c l x r)).labels = A ++ x :: B ∧ (plug ψ q).labels = A ++ B := by
  have hlength := length_add_depth_le π (node c l x r)
  by_cases hl : l = .nil
  · subst hl
    refine ⟨π, .right, c, r, x, .of .right r.top none (parent π) c, N, ?_, hN, by omega,
      before π, r.labels ++ after π, ?_, ?_⟩
    · rw [rbDetach, top_nil, if_pos rfl]
      exact (does_rbUnlink_plug .right π c r x).bind (.pure _ _ _)
    · simp [labels_plug]
    · simp [labels_plug]
  by_cases hr : r = .nil
  · subst hr
    refine ⟨π, .left, c, l, x, .of .left l.top none (parent π) c, N, ?_, hN, by omega,
      before π ++ l.labels, after π, ?_, ?_⟩
    · rw [rbDetach, if_neg (mt top_eq_none.mp hl), top_nil, if_pos rfl]
      exact (does_rbUnlink_plug .left π c l x).bind (.pure _ _ _)
    · simp [labels_plug]
    · simp [labels_plug]
  · obtain ⟨ρ, c', s, q, e, rfl, hpath, hbefore, hsplice⟩ :=
      does_rbSplice (κ := κ) hl hr hf
    have hbalanced : (plug (ρ ++ ⟨.right, c, x, l⟩ :: π) (branch .right c' q s .nil)).Balanced
        .black N := by
      rw [plug_append]
      exact hN
    obtain ⟨c₀, n, hρ, hs⟩ := Path.Takes.of_plug hbalanced
    obtain ⟨N', hN'⟩ := (hρ.relabel (b := s)).plug hs
    refine ⟨_, .right, c', q, s, e, N', ?_, hN', hpath, before π ++ l.labels,
      s :: (q.labels ++ after ρ ++ after π), ?_, ?_⟩
    · rw [rbDetach, if_neg (mt top_eq_none.mp hl), if_neg (mt top_eq_none.mp hr)]
      exact hsplice
    · simp [labels_plug, hbefore, branch]
    · rw [plug_append, plug_cons, labels_plug, Rung.fill, branch, labels_node, labels_plug, hbefore]
      simp

/-- A record is taken out of the tree, which stays a search tree. -/
theorem does_rbRemove [LinearOrder K] (ht : t.Valid κ) (hx : x ∈ t.labels) {fuel : ℕ}
    (hf : t.depth < fuel) :
    ∃ t' e, Does (rbRemove fuel (some x)) t.top (layTree κ t none) (some x) t'.top
        (layTree κ t' none * .cell x ⟨κ x, e⟩) ∧
      t'.Valid κ ∧ ∀ a, a ∈ t'.labels ↔ a ∈ t.labels ∧ a ≠ x := by
  obtain ⟨π, c, l, r, hplug⟩ := exists_plug_of_mem hx []
  rw [plug_nil] at hplug
  subst hplug
  obtain ⟨⟨N, hN⟩, hordered⟩ := ht
  obtain ⟨ψ, d, c', q, s, e, N', hplace, hN', hψ, A, B, hA, hB⟩ :=
    does_rbDetach (κ := κ) hN hf
  obtain ⟨t', hend, hlabels, hbalanced⟩ := turns_rbRemove_end (κ := κ) d hN' hψ (some x)
  have hleft : Turns κ (rbLeft (some x)) (plug π (node c l x r)) l.top
      (plug π (node c l x r)) := Turns.child (d := .left)
  have hright : Turns κ (rbRight (some x)) (plug π (node c l x r)) r.top
      (plug π (node c l x r)) := Turns.child (d := .right)
  have hnodup := hordered.nodup
  rw [Sorted, hA] at hordered
  rw [hA] at hnodup
  refine ⟨t', e, Does.bind hleft (Does.bind hright (hplace.bind (Does.within hend rfl rfl))),
    ⟨hbalanced, ?_⟩, fun a => ?_⟩
  · rw [Sorted, hlabels, hB]
    exact hordered.sublist ((List.sublist_cons_self x B).append_left A)
  · rw [hlabels, hB, hA]
    have hxA : x ∉ A := fun h => (List.nodup_append.mp hnodup).2.2 x h x (List.mem_cons_self ..) rfl
    have hxB : x ∉ B := (List.nodup_cons.mp (List.nodup_append.mp hnodup).2.1).1
    simp only [List.mem_append, List.mem_cons]
    constructor
    · rintro (ha | ha)
      · exact ⟨.inl ha, fun h => hxA (h ▸ ha)⟩
      · exact ⟨.inr (.inr ha), fun h => hxB (h ▸ ha)⟩
    · rintro ⟨ha | rfl | ha, hne⟩
      · exact .inl ha
      · exact absurd rfl hne
      · exact .inr ha

end Yamux.Tree
