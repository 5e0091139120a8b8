import Yamux.Tree.Layout

/-!
# Insertion

`RB_INSERT` puts a red leaf where the search for its key ended, and `RB_INSERT_COLOR` works
its way up as long as a red record has a red parent. The invariant is a path that takes black
trees of the black height of the tree in its hole, which has a red root.
-/

namespace Yamux.Tree

open Core HeapM RbTree

variable {K : Type} {κ : ℕ → K} {α : Type} {t near far o u : RbTree ℕ} {π up : Path ℕ} {d e : Dir}
  {c c' : Color} {g p x : ℕ}

/-! ## Rounds -/

theorem turns_rbSetBlackRed (hp : near = branch e .red t p o) :
    Turns κ (rbSetBlackRed (some p) (some g)) (plug up (branch d c near g u)) ()
      (plug up (branch d .red (branch e .black t p o) g u)) := by
  subst hp
  exact (Turns.inNear (.setColor .black)).bind (.setColor .red)

/-- A red uncle takes the black of the grandparent. -/
theorem turns_insertRound_uncle (hu : u.color = .red) (elm : Ptr) :
    Turns κ (rbInsertColorRound d elm (some p) (some g))
      (plug up (branch d .black (branch e .red t p o) g u)) (some g)
      (plug up (branch d .red (branch e .black t p o) g (u.paint .black))) := by
  have hne : u ≠ .nil := by
    rintro rfl
    cases hu
  obtain ⟨uc, un, ul, uf, rfl⟩ := eq_branch d hne
  obtain rfl : uc = .red := by simpa using hu
  refine Turns.child_other.bind ((Turns.inFar (.isRed _ _)).bind ?_)
  simp only [color_branch, decide_true, if_true, top_branch, paint_branch]
  exact (Turns.inFar (.setColor .black)).bind ((turns_rbSetBlackRed rfl).bind (.pure _ _))

/-- A record on the outer side: the parent moves up. -/
theorem turns_insertRound_outer (hu : u.color ≠ .red) (hx : t.top = some x) :
    Turns κ (rbInsertColorRound d (some x) (some p) (some g))
      (plug up (branch d .black (branch d .red t p o) g u)) (some x)
      (plug up (branch d .black t p (branch d .red o g u))) := by
  apply Turns.of_nodup
  intro hnodup
  have hne : o.top ≠ some x := top_ne_top (π := ⟨d, .black, g, u⟩ :: up) (d := d) (c := .red)
    (x := p) hnodup hx
  refine Turns.child_other.bind ((Turns.inFar (.isRed _ _)).bind ?_)
  simp only [hu, decide_false, Bool.false_eq_true, if_false]
  refine (Turns.inNear .child_other).bind ?_
  rw [if_neg hne]
  have hrotate := turns_rbRotate (κ := κ) d.other up .red .black u o t g p
  rw [branch_other, branch_other, branch_other, branch_other] at hrotate
  exact (turns_rbSetBlackRed rfl).bind (hrotate.bind (.pure _ _))

/-- A record on the inner side: it moves up past its parent and its grandparent. -/
theorem turns_insertRound_inner (hu : u.color ≠ .red) :
    Turns κ (rbInsertColorRound d (some x) (some p) (some g))
      (plug up (branch d .black (branch d.other .red (branch d .red near x far) p o) g u)) (some p)
      (plug up (branch d .black (branch d .red o p near) x (branch d .red far g u))) := by
  rw [branch_other]
  refine Turns.child_other.bind ((Turns.inFar (.isRed _ _)).bind ?_)
  simp only [hu, decide_false, Bool.false_eq_true, if_false]
  refine (Turns.inNear .child_other).bind ?_
  rw [top_branch, if_pos rfl]
  refine (Turns.inNear (turns_rbRotate d _ .red .red o near far p x)).bind ?_
  have hrotate := turns_rbRotate (κ := κ) d.other up .red .black u far
    (branch d .red o p near) g x
  rw [branch_other, branch_other, branch_other, branch_other] at hrotate
  exact (turns_rbSetBlackRed rfl).bind (hrotate.bind (.pure _ _))

/-! ## The loop of `RB_INSERT_COLOR` -/

/-- The colour of the parent. -/
theorem turns_isRed_parent (f : Rung ℕ) (up : Path ℕ) (t : RbTree ℕ) :
    Turns κ (isRed (some f.label)) (plug (f :: up) t) (f.color = .red) (plug (f :: up) t) := by
  have h := Turns.isRed (κ := κ) up (f.fill t)
  rwa [Rung.fill, top_branch, color_branch] at h

/-- Below a black record, and at the root, the loop ends. -/
theorem turns_insertLoop_exit (hπ : ∀ f ∈ π.head?, f.color = .black) (ht : t.top = some x)
    {fuel : ℕ} (hf : 0 < fuel) :
    Turns κ (rbInsertColorLoop fuel (some x)) (plug π t) () (plug π t) := by
  obtain ⟨fuel, rfl⟩ := Nat.exists_eq_succ_of_ne_zero hf.ne'
  refine (Turns.parent_of_top π ht).bind ?_
  cases π with
  | nil => exact (Turns.pure _ _).bind (.pure _ _)
  | cons f up =>
    refine (turns_isRed_parent f up t).bind ?_
    rw [hπ f rfl]
    exact .pure _ _

/-- A round of the loop below a red record. -/
theorem turns_insertLoop_round {fuel : ℕ} {t' : RbTree ℕ} {elm : Ptr} (ht : t.top = some x)
    (hround : Turns κ (rbInsertColorRound e (some x) (some p) (some g))
      (plug up (branch e .black (branch d .red t p o) g u)) elm (plug up near))
    (hrest : Turns κ (rbInsertColorLoop fuel elm) (plug up near) () t') :
    Turns κ (rbInsertColorLoop (fuel + 1) (some x))
      (plug up (branch e .black (branch d .red t p o) g u)) () t' := by
  apply Turns.of_nodup
  intro hnodup
  have hparent : Turns κ (rbParent (some x)) (plug up (branch e .black (branch d .red t p o) g u))
      (some p) (plug up (branch e .black (branch d .red t p o) g u)) :=
    Turns.parent_of_top (⟨d, .red, p, o⟩ :: ⟨e, .black, g, u⟩ :: up) ht
  have hred : Turns κ (isRed (some p)) (plug up (branch e .black (branch d .red t p o) g u))
      true (plug up (branch e .black (branch d .red t p o) g u)) :=
    turns_isRed_parent ⟨d, .red, p, o⟩ (⟨e, .black, g, u⟩ :: up) t
  have hgrand : Turns κ (rbParent (some p)) (plug up (branch e .black (branch d .red t p o) g u))
      (some g) (plug up (branch e .black (branch d .red t p o) g u)) := Turns.inNear .above
  have hleft : Turns κ (rbLeft (some g)) (plug up (branch e .black (branch d .red t p o) g u))
      (e.leftOf (some p) u.top) (plug up (branch e .black (branch d .red t p o) g u)) := by
    have h : Turns κ (rbLeft (some g)) (plug up (branch e .black (branch d .red t p o) g u))
        (e.leftOf (branch d .red t p o).top u.top)
        (plug up (branch e .black (branch d .red t p o) g u)) := Turns.left
    rwa [top_branch] at h
  have hside : (if some p = e.leftOf (some p) u.top then Dir.left else .right) = e := by
    simpa using side_eq hnodup (top_branch ..)
  refine hparent.bind (hred.bind ?_)
  refine hgrand.bind (hleft.bind ?_)
  rw [hside]
  exact hround.bind hrest

/-- The loop keeps the labels, and what it leaves is balanced once its root is black. -/
theorem turns_insertLoop {n fuel : ℕ} (hπ : Path.Takes .black n π) (ht : t.Balanced .red n)
    (hx : t.top = some x) (hf : π.length < fuel) :
    ∃ t', Turns κ (rbInsertColorLoop fuel (some x)) (plug π t) () t' ∧
      t'.labels = (plug π t).labels ∧ ∃ N, (t'.paint .black).Balanced .black N := by
  induction fuel generalizing π t x n with
  | zero => omega
  | succ fuel ih =>
    cases hπ with
    | nil => exact ⟨t, turns_insertLoop_exit (by simp) hx (by omega), rfl, _, ht.paint_black⟩
    | @black _ _ _ d a o up ho hup =>
      obtain ⟨N, hN⟩ := (Path.Takes.black (d := d) (a := a) ho hup).plug ht
      refine ⟨_, turns_insertLoop_exit (by simp) hx (by omega), rfl, N, ?_⟩
      simpa using hN.paint_black
    | @red _ d p o up ho hup =>
      cases hup with
      | @black _ c' _ e g u up hu hup =>
        simp only [List.length_cons] at hf
        by_cases hred : u.color = .red
        · -- the grandparent turns red, two levels up
          obtain rfl : c' = .red := hu.color_eq.symm.trans hred
          have hroot : (branch e .red (branch d .black t p o) g (u.paint .black)).Balanced .red
              (n + 1) := .branch_red (.branch_black ht ho) hu.paint_black
          obtain ⟨t', hrest, hlabels, hbalanced⟩ := ih hup hroot (top_branch ..) (by omega)
          refine ⟨t', turns_insertLoop_round hx (turns_insertRound_uncle hred _) hrest, ?_,
            hbalanced⟩
          rw [hlabels]
          refine labels_plug_congr up ?_
          cases d <;> cases e <;> simp [branch, Rung.fill]
        · obtain rfl : c' = .black := by
            cases c' with
            | black => rfl
            | red => exact absurd hu.color_eq hred
          rcases d.eq_or_eq_other e with rfl | rfl
          · have hexit : Turns κ (rbInsertColorLoop fuel (some x))
                (plug up (branch d .black t p (branch d .red o g u))) ()
                (plug up (branch d .black t p (branch d .red o g u))) :=
              turns_insertLoop_exit (π := ⟨d, .black, p, branch d .red o g u⟩ :: up) (by simp) hx
                (by omega)
            obtain ⟨N, hN⟩ := hup.plug (.branch_black (d := d) (a := p) ht
              (.branch_red (d := d) (a := g) ho hu))
            refine ⟨_, turns_insertLoop_round hx (turns_insertRound_outer hred hx) hexit, ?_, N, ?_⟩
            · refine labels_plug_congr up ?_
              cases d <;> simp [branch, Rung.fill]
            · simpa using hN.paint_black
          · have hne : t ≠ .nil := by
              rintro rfl
              cases hx
            obtain ⟨c, near, a, far, rfl⟩ := eq_branch e hne
            obtain rfl : a = x := by simpa using hx
            obtain rfl : c = .red := by simpa using ht.color_eq
            obtain ⟨-, hnear, hfar⟩ := ht.of_branch_red
            have hexit : Turns κ (rbInsertColorLoop fuel (some p))
                (plug up (branch e .black (branch e .red o p near) a (branch e .red far g u))) ()
                (plug up (branch e .black (branch e .red o p near) a (branch e .red far g u))) :=
              turns_insertLoop_exit (π := ⟨e, .black, a, branch e .red far g u⟩ :: up) (by simp)
                (top_branch ..) (by omega)
            obtain ⟨N, hN⟩ := hup.plug (.branch_black (d := e) (a := a)
              (.branch_red (d := e) (a := p) ho hnear) (.branch_red (d := e) (a := g) hfar hu))
            refine ⟨_, turns_insertLoop_round (top_branch ..) (turns_insertRound_inner hred) hexit,
              ?_, N, ?_⟩
            · refine labels_plug_congr up ?_
              cases e <;> simp [branch, Rung.fill, Dir.other]
            · simpa using hN.paint_black

/-- `RB_INSERT_COLOR` mends a tree in which a red record may have a red parent. -/
theorem turns_rbInsertColor {n fuel : ℕ} (hπ : Path.Takes .black n π) (ht : t.Balanced .red n)
    (hx : t.top = some x) (hf : π.length < fuel) :
    ∃ t', Turns κ (rbInsertColor fuel (some x)) (plug π t) () t' ∧
      t'.labels = (plug π t).labels ∧ ∃ N, t'.Balanced .black N := by
  obtain ⟨t', hloop, hlabels, N, hN⟩ := turns_insertLoop (κ := κ) hπ ht hx hf
  have hne : t' ≠ .nil := by
    rintro rfl
    have hmem : x ∈ (plug π t).labels := by
      rw [labels_plug]
      cases t with
      | nil => cases hx
      | node c l a r =>
        cases hx
        simp
    rw [← hlabels] at hmem
    cases hmem
  obtain ⟨c, near, a, far, rfl⟩ := eq_branch .left hne
  refine ⟨branch .left .black near a far, ?_, ?_, N, by simpa using hN⟩
  · refine hloop.bind ((Turns.root _).bind ?_)
    rw [top_branch]
    exact Turns.setColor (π := []) .black
  · rw [← hlabels]
    exact (labels_paint .black _).symm

/-! ## `RB_INSERT` -/

/-- A comparison that agrees with the order of the keys. -/
structure Compares [LinearOrder K] (cmp : K → K → Int) : Prop where
  lt : ∀ a b, cmp a b < 0 ↔ a < b
  gt : ∀ a b, 0 < cmp a b ↔ b < a

/-- Point to the new record from where the search ended. -/
theorem does_link {comp : Int} (hside : ∀ f ∈ π.head?, comp < 0 ↔ f.side = .left) :
    Does (rbLink (some x) (parent π) comp) (topOf π none) (layPath κ π none) ()
      (topOf π (some x)) (layPath κ π (some x)) := by
  cases π with
  | nil => exact .setGlobals _ _ _
  | cons f up =>
    obtain ⟨d, c, u, o⟩ := f
    have hd : (if comp < 0 then Dir.left else .right) = d := by
      have h := hside ⟨d, c, u, o⟩ rfl
      cases d with
      | left => exact if_pos (h.mpr rfl)
      | right => exact if_neg fun hlt => by cases h.mp hlt
    have hset : Does (setChild d (some u) (some x)) (topOf up (some u))
        (.cell u ⟨κ u, .of d none o.top (parent up) c⟩) () (topOf up (some u))
        (.cell u ⟨κ u, .of d (some x) o.top (parent up) c⟩) := by
      simpa using does_setChild (k := κ u) (e := .of d none o.top (parent up) c) d (some x)
    rw [rbLink, hd]
    exact hset.within rfl rfl

section Order

variable [LinearOrder K] {cmp : K → K → Int} {k : K}

/-- The loop of `RB_INSERT` goes down to where the key is or would be. -/
theorem turns_rbInsertLoop (hcmp : Compares cmp) (k : K) {fuel : ℕ} (hf : t.depth < fuel)
    (comp : Int) (hπ : ∀ f ∈ π.head?, comp < 0 ↔ f.side = .left) :
    ∃ comp', Turns κ (rbInsertLoop cmp k fuel t.top (parent π) comp) (plug π t)
        ((zoom κ k t π).2.top, if (zoom κ k t π).2.top = none then parent (zoom κ k t π).1
          else (zoom κ k t π).2.top, comp') (plug π t) ∧
      ((zoom κ k t π).2.top = none →
        ∀ f ∈ (zoom κ k t π).1.head?, comp' < 0 ↔ f.side = .left) := by
  induction fuel generalizing t π comp with
  | zero => omega
  | succ fuel ih =>
    cases t with
    | nil => exact ⟨comp, .pure _ _, fun _ => hπ⟩
    | node c l a r =>
      rw [depth] at hf
      have hkey : Turns κ (keyOf (some a)) (plug π (node c l a r)) (κ a)
          (plug π (node c l a r)) := Turns.keyOf (d := .left)
      rw [zoom]
      by_cases hlt : k < κ a
      · obtain ⟨comp', hrest, hside⟩ := ih (t := l) (π := ⟨.left, c, a, r⟩ :: π) (by omega)
          (cmp k (κ a)) (by simpa using (hcmp.lt _ _).mpr hlt)
        rw [if_pos hlt]
        refine ⟨comp', hkey.bind ?_, hside⟩
        rw [if_pos ((hcmp.lt _ _).mpr hlt)]
        exact (Turns.child (d := .left)).bind hrest
      · have hnlt := mt (hcmp.lt k (κ a)).mp hlt
        rw [if_neg hlt]
        by_cases hgt : κ a < k
        · obtain ⟨comp', hrest, hside⟩ := ih (t := r) (π := ⟨.right, c, a, l⟩ :: π) (by omega)
            (cmp k (κ a)) (by simpa using not_lt.mp hnlt)
          rw [if_pos hgt]
          refine ⟨comp', hkey.bind ?_, hside⟩
          rw [if_neg hnlt, if_pos ((hcmp.gt _ _).mpr hgt)]
          exact (Turns.child (d := .right)).bind hrest
        · rw [if_neg hgt]
          refine ⟨cmp k (κ a), hkey.bind ?_, fun h => by cases h⟩
          rw [if_neg hnlt, if_neg (mt (hcmp.gt _ _).mp hgt)]
          exact .pure _ _

/-- A new key goes into the tree, which stays a search tree. -/
theorem does_rbInsert (hcmp : Compares cmp) (ht : t.Valid κ)
    (hnew : ∀ a ∈ t.labels, κ a ≠ κ x) (e : Entry) {fuel : ℕ} (hf : t.depth < fuel) :
    ∃ t', Does (rbInsert cmp fuel (some x)) t.top (layTree κ t none * .cell x ⟨κ x, e⟩)
        none t'.top (layTree κ t' none) ∧
      t'.Valid κ ∧ ∀ a, a ∈ t'.labels ↔ a = x ∨ a ∈ t.labels := by
  have hplug := plug_zoom κ (κ x) t []
  have hbetween : Between κ (κ x) (zoom κ (κ x) t []).1 :=
    zoom_between ht.ordered ⟨by simp [before], by simp [after]⟩
  obtain ⟨comp, hloop, hside⟩ := turns_rbInsertLoop (κ := κ) (π := []) hcmp (κ x) hf 0
    (by simp)
  have hlength := length_zoom (κ := κ) (κ x) t []
  generalize hz : zoom κ (κ x) t [] = z at *
  obtain ⟨π, s⟩ := z
  -- the search ends where nothing is
  have hs : s = .nil := by
    cases s with
    | nil => rfl
    | node c l a r =>
      have hkey : κ a = κ x := zoom_top (t := t) (π := []) (by rw [hz]; rfl)
      have hmem : a ∈ t.labels := by
        rw [plug_nil] at hplug
        rw [← hplug, labels_plug]
        simp
      exact absurd hkey (hnew a hmem)
  subst hs
  simp only [plug_nil, top_nil, if_true] at hplug hloop hside
  subst hplug
  obtain ⟨⟨N, hN⟩, hordered⟩ := ht
  obtain ⟨c, n, hπ, hleaf⟩ := Path.Takes.of_plug hN
  cases hleaf
  have hπf : π.length < fuel := by
    simp only [List.length_nil] at hlength
    omega
  obtain ⟨t', hcolor, hlabels, hbalanced⟩ := turns_rbInsertColor (κ := κ) hπ
    (.red .nil .nil : (node .red .nil x .nil).Balanced .red 0) rfl hπf
  refine ⟨t', ?_, ⟨hbalanced, ?_⟩, fun a => ?_⟩
  · have hlay : layTree κ (plug π .nil) none = layPath κ π none := by
      rw [layTree_plug]
      exact mul_one _
    have hleaf : layTree κ (plug π (node .red .nil x .nil)) none =
        .cell x ⟨κ x, ⟨none, none, parent π, .red⟩⟩ * layPath κ π (some x) := by
      rw [layTree_plug, layTree, layTree, one_mul, mul_one, mul_comm, top_node]
      rfl
    rw [Turns, hleaf, top_plug, top_node] at hcolor
    rw [Turns, hlay, top_plug, top_nil] at hloop
    rw [hlay, top_plug, top_nil]
    apply does_keyOf.step (F := layPath κ π none) (mul_comm _ _)
    apply (Does.globals _ _).bind
    apply hloop.step (F := .cell x ⟨κ x, e⟩) (mul_comm _ _)
    apply (does_setEntry _).step (F := layPath κ π none) (mul_comm _ _)
    apply (does_link (hside trivial)).step (F := .cell x ⟨κ x, ⟨none, none, parent π, .red⟩⟩)
      (mul_comm _ _)
    rw [mul_comm]
    exact hcolor.bind (.pure _ _ _)
  · rw [Sorted, hlabels]
    exact sorted_plug_leaf hordered hbetween
  · rw [hlabels, labels_plug, labels_plug]
    simp only [labels_node, labels_nil, List.nil_append, List.append_nil, List.mem_append,
      List.mem_singleton]
    tauto

end Order

end Yamux.Tree
