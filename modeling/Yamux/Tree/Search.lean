import Yamux.Tree.Insert
import Yamux.Tree.Remove

/-!
# Search and order

`RB_FIND` ends where the way down for a key ends. `RB_MIN` finds the first record, and
`RB_NEXT` goes from a record to the one after it: down on the right side, or up to where the
way came from the left. None of them changes anything.
-/

namespace Yamux.Tree

open Core HeapM RbTree

variable {K : Type} {κ : ℕ → K} {t l r : RbTree ℕ} {π up : Path ℕ} {d : Dir} {c : Color}
  {x fuel : ℕ}

/-! ## `RB_FIND` -/

/-- The key of a record of the tree. -/
theorem turns_keyOf {a : ℕ} (ha : a ∈ t.labels) : Turns κ (keyOf (some a)) t (κ a) t := by
  obtain ⟨π, c, l, r, hplug⟩ := exists_plug_of_mem ha []
  rw [plug_nil] at hplug
  rw [hplug]
  exact Turns.keyOf (d := .left)

section Find

variable [LinearOrder K] {cmp : K → K → Int}

theorem turns_rbFindLoop (hcmp : Compares cmp) (k : K) (hf : t.depth < fuel) (π : Path ℕ) :
    Turns κ (rbFindLoop cmp k fuel t.top) (plug π t) (zoom κ k t π).2.top (plug π t) := by
  induction fuel generalizing t π with
  | zero => omega
  | succ fuel ih =>
    cases t with
    | nil => exact .pure _ _
    | node c l a r =>
      rw [depth] at hf
      have hkey : Turns κ (keyOf (some a)) (plug π (node c l a r)) (κ a)
          (plug π (node c l a r)) := Turns.keyOf (d := .left)
      rw [zoom]
      by_cases hlt : k < κ a
      · have hrest := ih (t := l) (by omega) (⟨.left, c, a, r⟩ :: π)
        rw [if_pos hlt]
        refine hkey.bind ?_
        rw [if_pos ((hcmp.lt _ _).mpr hlt)]
        exact (Turns.child (d := .left)).bind hrest
      · rw [if_neg hlt]
        by_cases hgt : κ a < k
        · have hrest := ih (t := r) (by omega) (⟨.right, c, a, l⟩ :: π)
          rw [if_pos hgt]
          refine hkey.bind ?_
          rw [if_neg (mt (hcmp.lt _ _).mp hlt), if_pos ((hcmp.gt _ _).mpr hgt)]
          exact (Turns.child (d := .right)).bind hrest
        · rw [if_neg hgt]
          refine hkey.bind ?_
          rw [if_neg (mt (hcmp.lt _ _).mp hlt), if_neg (mt (hcmp.gt _ _).mp hgt)]
          exact .pure _ _

/-- What a search finds in an ordered tree. -/
theorem zoom_top_iff {k : K} {a : ℕ} (ht : t.Sorted κ) :
    (zoom κ k t []).2.top = some a ↔ a ∈ t.labels ∧ κ a = k := by
  constructor
  · intro h
    refine ⟨?_, zoom_top h⟩
    rw [← plug_nil t, ← plug_zoom κ k t [], labels_plug]
    cases hz : (zoom κ k t []).2 with
    | nil =>
      rw [hz] at h
      cases h
    | node c l b r =>
      rw [hz] at h
      cases h
      simp
  · rintro ⟨ha, hk⟩
    exact zoom_top_of_mem ht ha hk

/-- `RB_FIND` finds the record with the key, if there is one. -/
theorem turns_rbFind (hcmp : Compares cmp) (ht : t.Valid κ) (k : K) (hf : t.depth < fuel) :
    ∃ res, Turns κ (rbFind cmp fuel k) t res t ∧
      ∀ a, res = some a ↔ a ∈ t.labels ∧ κ a = k :=
  ⟨_, (Turns.root t).bind (turns_rbFindLoop hcmp k hf []), fun _ => zoom_top_iff ht.ordered⟩

/-- The check of the key changes nothing. -/
theorem turns_rbLookup (hcmp : Compares cmp) (ht : t.Valid κ) (k : K) (hf : t.depth < fuel) :
    ∃ res, Turns κ (rbLookup cmp fuel k) t res t ∧ ∀ a, res = some a ↔ a ∈ t.labels ∧ κ a = k := by
  obtain ⟨res, hfind, hres⟩ := turns_rbFind hcmp ht k hf
  refine ⟨res, hfind.bind ?_, hres⟩
  cases res with
  | none => exact .pure _ _
  | some a =>
    obtain ⟨ha, hk⟩ := (hres a).mp rfl
    refine (turns_keyOf ha).bind ?_
    rw [if_pos hk]
    exact .pure _ _

end Find

/-! ## `RB_MIN` -/

/-- The record at the end of the way down on the left is the first one. -/
theorem head_labels_plug {ρ : Path ℕ} {q : RbTree ℕ} {s : ℕ} (h : ∀ f ∈ ρ, f.side = .left) :
    (plug ρ (branch .left c .nil s q)).labels.head? = some s := by
  have hbefore : before ρ = [] := by
    induction ρ with
    | nil => rfl
    | cons f ρ ih =>
      rw [before, ih fun g hg => h g (List.mem_cons_of_mem _ hg), h f (List.mem_cons_self ..)]
      rfl
  rw [labels_plug, hbefore]
  rfl

theorem turns_rbOuter_left (ht : t ≠ .nil) (hf : t.depth < fuel + 1) (π : Path ℕ) :
    Turns κ (rbOuter .left fuel t.top) (plug π t) t.labels.head? (plug π t) := by
  obtain ⟨ρ, c, s, q, hplug, hside, houter⟩ := turns_rbOuter (κ := κ) .left ht hf π
  have hhead : t.labels.head? = some s := by
    rw [hplug]
    exact head_labels_plug hside
  rw [hhead]
  exact houter

/-- `RB_MIN` finds the first record. -/
theorem turns_rbMin (hf : t.depth < fuel + 1) :
    Turns κ (rbMinmax .left fuel) t t.labels.head? t := by
  refine (Turns.root t).bind ?_
  by_cases ht : t = .nil
  · subst ht
    exact .pure _ _
  · rw [if_neg (mt top_eq_none.mp ht)]
    exact turns_rbOuter_left ht hf []

/-! ## `RB_NEXT` -/

/-- The child of the record above a place, on the side of the place. -/
theorem turns_child_above (f : Rung ℕ) (up : Path ℕ) (t : RbTree ℕ) :
    Turns κ (rbChild f.side (some f.label)) (plug (f :: up) t) t.top (plug (f :: up) t) :=
  Turns.child

theorem turns_child_other_above (f : Rung ℕ) (up : Path ℕ) (t : RbTree ℕ) :
    Turns κ (rbChild f.side.other (some f.label)) (plug (f :: up) t) f.other.top
      (plug (f :: up) t) := Turns.child_other

/-- The way up ends at the record that comes after the place. -/
theorem turns_rbClimb (hx : t.top = some x) (hf : π.length < fuel) :
    Turns κ (rbClimb .right fuel (some x)) (plug π t) (after π).head? (plug π t) := by
  induction fuel generalizing π t x with
  | zero => omega
  | succ fuel ih =>
    refine (Turns.parent_of_top π hx).bind ?_
    cases π with
    | nil => exact .pure _ _
    | cons f up =>
      have hchild := turns_child_above (κ := κ) f up t
      have hother := turns_child_other_above (κ := κ) f up t
      have hup := ih (t := f.fill t) (top_branch ..) (π := up) (by simpa using hf)
      obtain ⟨d, c, a, o⟩ := f
      rw [hx] at hchild
      rw [parent_cons, if_neg (by simp)]
      cases d with
      | right =>
        refine Turns.bind hchild ?_
        rw [if_pos rfl]
        exact hup
      | left =>
        apply Turns.of_nodup
        intro hnodup
        refine Turns.bind hother ?_
        rw [if_neg fun h => top_ne_top (π := up) (d := .left) hnodup hx h.symm]
        exact .pure _ _

/-- `RB_NEXT` finds the record that comes after a record. -/
theorem turns_rbNext {A B : List ℕ} (h : t.labels = A ++ x :: B) (hf : t.depth < fuel) :
    Turns κ (rbNext fuel (some x)) t B.head? t := by
  apply Turns.of_nodup
  intro hnodup
  obtain ⟨π, c, l, r, hplug⟩ := exists_plug_of_mem (t := t) (a := x) (by simp [h]) []
  rw [plug_nil] at hplug
  subst hplug
  have hlength := length_add_depth_le π (node c l x r)
  rw [depth] at hlength
  have hB : B = r.labels ++ after π := by
    rw [h] at hnodup
    have hA := fun hmem => (List.nodup_append.mp hnodup).2.2 x hmem x (List.mem_cons_self ..) rfl
    have hx := (List.nodup_cons.mp (List.nodup_append.mp hnodup).2.1).1
    have hsplit : before π ++ l.labels ++ x :: (r.labels ++ after π) = A ++ x :: B := by
      rw [← h, labels_plug]
      simp
    exact ((List.append_cons_inj_of_notMem hA hx).mp hsplit.symm).2.2
  have hright : Turns κ (rbChild .right (some x)) (plug π (node c l x r)) r.top
      (plug π (node c l x r)) := Turns.child (d := .right)
  subst hB
  refine Turns.bind hright ?_
  by_cases hr : r = .nil
  · subst hr
    have hclimb := turns_rbClimb (κ := κ) (π := π) (t := node c l x .nil) rfl
      (show π.length < fuel by omega)
    refine Turns.bind (Turns.parent_of_top π rfl) ?_
    cases π with
    | nil => exact hclimb
    | cons f up =>
      have hchild := turns_child_above (κ := κ) f up (node c l x .nil)
      have hother := turns_child_other_above (κ := κ) f up (node c l x .nil)
      obtain ⟨d, c', a, o⟩ := f
      rw [parent_cons, if_neg (by simp)]
      cases d with
      | left =>
        refine Turns.bind hchild ?_
        rw [top_node, if_pos rfl]
        exact .pure _ _
      | right =>
        refine Turns.bind hother ?_
        rw [if_neg fun h => top_ne_top (π := up) (d := .right) hnodup rfl h.symm]
        exact hclimb
  · rw [if_neg (mt top_eq_none.mp hr)]
    have houter := turns_rbOuter_left (κ := κ) hr (show r.depth < fuel + 1 by omega)
      (⟨.right, c, x, l⟩ :: π)
    have hhead : (r.labels ++ after π).head? = r.labels.head? := by
      cases r with
      | nil => exact absurd rfl hr
      | node c l a r => cases hl : l.labels <;> simp [hl]
    rw [hhead]
    exact houter

end Yamux.Tree
