import Yamux.Core.Matching

/-!
# Pools whose calls match

Two pools of threads make the same calls with different programs for them. If the programs match,
then every step of a thread in the one pool is made up for by steps of the same thread in the
other one, as long as no step changes what the mutexes of the other threads guard: the states
stay the same, and so do the calls that are in progress.
-/

namespace Core

namespace Pool

variable {ι μ σ κ τ : Type} {S : Sharing ι μ σ}

/-- The mutexes that a thread owns. -/
def owned (P : Pool ι μ σ κ τ) (i : τ) : Set μ := {m | P.owner m = some i}

/-- An assertion of the thread fails. -/
def Fails (P : Pool ι μ σ κ τ) (i : τ) : Prop := ∃ c, P.threads i = some (c, .abort)

variable (S) in
/-- A step of thread `i` leaves what the mutexes of the others guard as it was. -/
def Spares (i : τ) (P Q : Pool ι μ σ κ τ) : Prop :=
  ∀ j, j ≠ i → S.rely (P.owned j) P.state Q.state

variable (S) in
/-- What a thread does in the one pool matches what it does in the other one. -/
def MatchedAt (H H' : Set μ) (s : σ) : Option (κ × Prog ι μ σ Unit) →
    Option (κ × Prog ι μ σ Unit) → Prop
  | none, none => H' ⊆ H
  | some (c, p), some (c', q) => c' = c ∧ S.Matches p q H H' s (fun _ _ _ _ _ => True) ∧
    (p = .abort → q = .abort ∧ (S.lasting → H' ⊆ H))
  | _, _ => False

variable (S) in
/-- All threads match. -/
structure Matched (P P' : Pool ι μ σ κ τ) : Prop where
  state : P'.state = P.state
  thread : ∀ i, MatchedAt S (P.owned i) (P'.owned i) P.state (P.threads i) (P'.threads i)

/-- What others do leaves a thread matched. -/
theorem MatchedAt.rely {H H' : Set μ} {s t : σ} {th th' : Option (κ × Prog ι μ σ Unit)}
    (h : MatchedAt S H H' s th th') (hr : S.rely H s t) : MatchedAt S H H' t th th' := by
  cases th with
  | none => cases th' with
    | none => exact h
    | some th' => exact h
  | some th => cases th' with
    | none => exact h
    | some th' => exact ⟨h.1, h.2.1.rely hr, h.2.2⟩

namespace Matched

variable {P P' : Pool ι μ σ κ τ}

/-- A thread that is idle in one pool is idle in the other one. -/
theorem idle (h : Matched S P P') {i : τ} (hth : P.threads i = none) :
    P'.threads i = none ∧ P'.owned i ⊆ P.owned i := by
  have hi := h.thread i
  rw [hth] at hi
  cases hth' : P'.threads i with
  | none =>
    rw [hth'] at hi
    exact ⟨rfl, hi⟩
  | some th' =>
    rw [hth'] at hi
    exact hi.elim

/-- A thread in a call is in the same call in the other pool. -/
theorem busy (h : Matched S P P') {i : τ} {c : κ} {p : Prog ι μ σ Unit}
    (hth : P.threads i = some (c, p)) : ∃ q, P'.threads i = some (c, q) ∧
      S.Matches p q (P.owned i) (P'.owned i) P.state (fun _ _ _ _ _ => True) ∧
      (p = .abort → q = .abort ∧ (S.lasting → P'.owned i ⊆ P.owned i)) := by
  have hi := h.thread i
  rw [hth] at hi
  cases hth' : P'.threads i with
  | none =>
    rw [hth'] at hi
    exact hi.elim
  | some th' =>
    obtain ⟨c', q⟩ := th'
    rw [hth'] at hi
    obtain ⟨rfl, hmatches, hfails⟩ := hi
    exact ⟨q, rfl, hmatches, hfails⟩

/-- A thread owns no other mutexes in the other pool. -/
theorem owned_subset (h : Matched S P P') (hlive : S.lasting ∨ ∀ i, ¬ P.Fails i) (i : τ) :
    P'.owned i ⊆ P.owned i := by
  cases hth : P.threads i with
  | none => exact (h.idle hth).2
  | some th =>
    obtain ⟨c, p⟩ := th
    obtain ⟨q, -, hmatches, hfails⟩ := h.busy hth
    by_cases hp : p = .abort
    · rcases hlive with hlast | hlive
      · exact (hfails hp).2 hlast
      · exact absurd ⟨c, hp ▸ hth⟩ (hlive i)
    · exact hmatches.subset hp

end Matched

/-! ## Owners -/

section Owners

variable {P : Pool ι μ σ κ τ} {i j : τ} {m : μ}

/-- A mutex that no thread owns is free. -/
theorem free_of_owned (hi : m ∉ P.owned i) (hothers : ∀ j, j ≠ i → m ∉ P.owned j) :
    P.owner m = none := by
  refine Option.eq_none_iff_forall_ne_some.mpr fun j hj => ?_
  by_cases hji : j = i
  · subst hji
    exact hi hj
  · exact hothers j hji hj

/-- No mutex has two owners. -/
theorem not_mem_owned (hm : m ∈ P.owned i) (hj : j ≠ i) : m ∉ P.owned j := by
  intro hm'
  have hij : some i = some j := hm.symm.trans hm'
  exact hj (Option.some.inj hij).symm

theorem free_not_mem (hm : P.owner m = none) : m ∉ P.owned j := by
  intro hm'
  have hj : none = some j := hm.symm.trans hm'
  cases hj

variable [DecidableEq μ]

theorem owned_lock : ({ P with owner := Function.update P.owner m (some i) } :
    Pool ι μ σ κ τ).owned i = insert m (P.owned i) := by
  ext n
  by_cases hn : n = m
  · simp [owned, hn]
  · simp [owned, hn]

theorem owned_unlock : ({ P with owner := Function.update P.owner m none } :
    Pool ι μ σ κ τ).owned i = P.owned i \ {m} := by
  ext n
  by_cases hn : n = m
  · simp [owned, hn]
  · simp [owned, hn]

/-- Taking a free mutex takes none from the others. -/
theorem owned_lock_of_ne (hm : P.owner m = none) (hj : j ≠ i) :
    ({ P with owner := Function.update P.owner m (some i) } : Pool ι μ σ κ τ).owned j =
      P.owned j := by
  ext n
  by_cases hn : n = m
  · subst hn
    simp [owned, hm, hj.symm]
  · simp [owned, hn]

/-- Giving back a mutex of its own takes none from the others. -/
theorem owned_unlock_of_ne (hm : P.owner m = some i) (hj : j ≠ i) :
    ({ P with owner := Function.update P.owner m none } : Pool ι μ σ κ τ).owned j =
      P.owned j := by
  ext n
  by_cases hn : n = m
  · subst hn
    simp [owned, hm, hj.symm]
  · simp [owned, hn]

end Owners

/-! ## Steps -/

section Steps

variable [DecidableEq τ] [DecidableEq μ] {code code' : κ → Prog ι μ σ Unit} {may : τ → κ → Prop}
  {i : τ} {c : κ}

/-- A program that goes on alone goes on in a pool, if no other thread owns a mutex that it takes
and the change of the state spares the others. -/
theorem exists_run {R : Pool ι μ σ κ τ → Prop}
    (hR : ∀ A B, R A → Step code may S.answers i A B → Spares S i A B → R B) {mine H : Set μ}
    {s t : σ} {K : Prog ι μ σ Unit → Set μ → Prop} {q : Prog ι μ σ Unit}
    (h : S.Arrives mine t K q H s) {P : Pool ι μ σ κ τ} (hP : R P)
    (hth : P.threads i = some (c, q)) (hH : P.owned i = H) (hs : P.state = s)
    (hmine : ∀ j, j ≠ i → ∀ m ∈ mine, m ∉ P.owned j)
    (hspare : ∀ j, j ≠ i → S.rely (P.owned j) s t) :
    ∃ Q q', R Q ∧ Q.state = t ∧ Q.threads = Function.update P.threads i (some (c, q')) ∧
      K q' (Q.owned i) ∧ ∀ j, j ≠ i → Q.owned j = P.owned j := by
  induction h generalizing P with
  | @stop q H h =>
    refine ⟨P, q, hP, hs, ?_, ?_, fun _ _ => rfl⟩
    · rw [← hth, Function.update_eq_self]
    · rwa [hH]
  | @act ms f k H s hfree hf h ih =>
    subst hs hH
    have hmutex : ∀ m ∈ ms, P.owner m = none := fun m hm =>
      free_of_owned (hfree m hm).2 fun j hj => hmine j hj m (hfree m hm).1
    have hspare' : ∀ j, j ≠ i →
        S.rely (P.owned j) P.state (f P.state) ∧ S.rely (P.owned j) (f P.state) t := by
      intro j hj
      rcases hf with hf | hf <;> rw [hf]
      · exact ⟨S.rely_refl _ _, hspare j hj⟩
      · exact ⟨hspare j hj, S.rely_refl _ _⟩
    have hQ := hR _ _ hP (.act hth hmutex) fun j hj => (hspare' j hj).1
    obtain ⟨Q, q', hQ, hstate, hthreads, hK, hothers⟩ :=
      ih hQ (Function.update_self _ _ _) rfl rfl hmine fun j hj => (hspare' j hj).2
    exact ⟨Q, q', hQ, hstate, hthreads.trans (Function.update_idem _ _ _), hK, hothers⟩
  | @ask x k H s b hb h ih =>
    have hQ := hR _ _ hP (.ask hth hb) fun j _ => S.rely_refl (P.owned j) P.state
    obtain ⟨Q, q', hQ, hstate, hthreads, hK, hothers⟩ :=
      ih hQ (Function.update_self _ _ _) hH hs hmine hspare
    exact ⟨Q, q', hQ, hstate, hthreads.trans (Function.update_idem _ _ _), hK, hothers⟩
  | @lock m k H s hm hfree h ih =>
    subst hs hH
    have hmutex : P.owner m = none := free_of_owned hfree fun j hj => hmine j hj m hm
    have hQ := hR _ _ hP (.lock hth hmutex) fun j _ => S.rely_refl (P.owned j) P.state
    have howned (j : τ) (hj : j ≠ i) := owned_lock_of_ne hmutex hj
    obtain ⟨Q, q', hQ, hstate, hthreads, hK, hothers⟩ :=
      ih hQ (Function.update_self _ _ _) owned_lock rfl
        (fun j hj => (howned j hj).symm ▸ hmine j hj) fun j hj => (howned j hj).symm ▸ hspare j hj
    exact ⟨Q, q', hQ, hstate, hthreads.trans (Function.update_idem _ _ _), hK,
      fun j hj => (hothers j hj).trans (howned j hj)⟩
  | @unlock m k H s hm h ih =>
    subst hs hH
    have hQ := hR _ _ hP (.unlock hth hm) fun j _ => S.rely_refl (P.owned j) P.state
    have howned (j : τ) (hj : j ≠ i) := owned_unlock_of_ne hm hj
    obtain ⟨Q, q', hQ, hstate, hthreads, hK, hothers⟩ :=
      ih hQ (Function.update_self _ _ _) owned_unlock rfl
        (fun j hj => (howned j hj).symm ▸ hmine j hj) fun j hj => (howned j hj).symm ▸ hspare j hj
    exact ⟨Q, q', hQ, hstate, hthreads.trans (Function.update_idem _ _ _), hK,
      fun j hj => (hothers j hj).trans (howned j hj)⟩
  | @wait g k H s hc h ih =>
    subst hs
    have hQ := hR _ _ hP (.wait hth hc) fun j _ => S.rely_refl (P.owned j) P.state
    obtain ⟨Q, q', hQ, hstate, hthreads, hK, hothers⟩ :=
      ih hQ (Function.update_self _ _ _) hH rfl hmine hspare
    exact ⟨Q, q', hQ, hstate, hthreads.trans (Function.update_idem _ _ _), hK, hothers⟩

variable {R : Pool ι μ σ κ τ → Prop} {P P' Q : Pool ι μ σ κ τ}

/-- A step of a thread that leaves it in a call is made up for by the rest of that call. -/
theorem Matched.resume
    (hR : ∀ A B, R A → Step code may S.answers i A B → Spares S i A B → R B) (hP' : R P')
    (hstate : P'.state = P.state) (hothers : ∀ j, j ≠ i →
      MatchedAt S (P.owned j) (P'.owned j) P.state (P.threads j) (P'.threads j))
    (hsubset : ∀ j, j ≠ i → P'.owned j ⊆ P.owned j) {p q : Prog ι μ σ Unit} {mine : Set μ}
    (hth' : P'.threads i = some (c, q))
    (h : S.Arrives mine Q.state (fun q' G => S.Matches p q' (Q.owned i) G Q.state
      fun _ _ _ _ _ => True) q (P'.owned i) P.state) (hmine : Q.owned i ⊆ mine)
    (hfree : ∀ j, j ≠ i → ∀ m ∈ mine, m ∉ P.owned j)
    (hth : Q.threads = Function.update P.threads i (some (c, p)))
    (howned : ∀ j, j ≠ i → Q.owned j = P.owned j) (hspare : Spares S i P Q) :
    ∃ Q', R Q' ∧ Matched S Q Q' := by
  have harrives := h.next fun q' G hG => hG.settle.mono hmine fun _ _ hK => hK
  obtain ⟨Q', q', hQ', hstate', hthreads, ⟨hmatches, hfails⟩, hrest⟩ :=
    exists_run hR harrives hP' hth' rfl hstate
      (fun j hj m hm hm' => hfree j hj m hm (hsubset j hj hm'))
      fun j hj m hm => hspare j hj m (hsubset j hj hm)
  refine ⟨Q', hQ', hstate', fun j => ?_⟩
  rw [hthreads, hth]
  by_cases hj : j = i
  · subst hj
    rw [Function.update_self, Function.update_self]
    exact ⟨rfl, hmatches, hfails⟩
  · rw [Function.update_of_ne hj, Function.update_of_ne hj, howned j hj, hrest j hj]
    exact (hothers j hj).rely (hspare j hj)

/-- A step of a thread is made up for by steps of the same thread. -/
theorem Matched.step (hcode : ∀ c, S.Mirrors ∅ (code' c) (code c))
    (hR : ∀ A B, R A → Step code may S.answers i A B → Spares S i A B → R B)
    (h : Matched S P P') (hlive : S.lasting ∨ ∀ i, ¬ P.Fails i)
    (hs : Step code' may S.answers i P Q) (hspare : Spares S i P Q) (hP' : R P') :
    ∃ Q', R Q' ∧ Matched S Q Q' := by
  have hsubset := h.owned_subset hlive
  have hbegins (c : κ) {H H' : Set μ} (hH : H' ⊆ H) (s : σ) :
      S.Matches (code' c) (code c) H H' s fun _ _ _ _ _ => True :=
    (hcode c H H' s hH (Set.empty_subset H)).mono fun _ _ _ _ _ _ => trivial
  have hown (j : τ) (hj : j ≠ i) (m : μ) (hm : m ∈ P.owned i) : m ∉ P.owned j :=
    not_mem_owned hm hj
  cases hs with
  | @call c hidle hmay =>
    obtain ⟨hidle', hH⟩ := h.idle hidle
    have hcall := hR _ _ hP' (.call hidle' hmay) fun j _ => S.rely_refl (P'.owned j) P'.state
    refine Matched.resume hR hcall h.state (fun j hj => ?_) (fun j _ => hsubset j)
      (Function.update_self _ _ _) (.stop (hbegins c hH P.state)) subset_rfl hown rfl
      (fun _ _ => rfl) hspare
    change MatchedAt S _ _ _ _ (Function.update P'.threads i _ j)
    rw [Function.update_of_ne hj]
    exact h.thread j
  | @ret c u hth =>
    obtain ⟨q, hth', hmatches, -⟩ := h.busy hth
    obtain ⟨Q', q', hQ', hstate', hthreads, ⟨b, rfl, hsub, -⟩, hrest⟩ :=
      exists_run hR (hmatches.2 P.state (S.rely_refl _ _)) hP' hth' rfl h.state
        (fun j hj m hm hm' => hown j hj m hm (hsubset j hm')) fun j _ => S.rely_refl _ _
    have hret : Q'.threads i = some (c, .ret b) := by
      rw [hthreads, Function.update_self]
    refine ⟨Q'.leave i, hR _ _ hQ' (.ret hret) fun j _ => S.rely_refl (Q'.owned j) Q'.state,
      hstate', fun j => ?_⟩
    change MatchedAt S (P.owned j) (Q'.owned j) P.state (Function.update P.threads i none j)
      (Function.update Q'.threads i none j)
    by_cases hj : j = i
    · subst hj
      rw [Function.update_self, Function.update_self]
      exact hsub
    · rw [Function.update_of_ne hj, Function.update_of_ne hj, hrest j hj, hthreads,
        Function.update_of_ne hj]
      exact h.thread j
  | @act c ms f k hth hfree =>
    obtain ⟨q, hth', hmatches, -⟩ := h.busy hth
    have hms : ∀ m ∈ ms, m ∉ P.owned i := fun m hm => free_not_mem (hfree m hm)
    refine Matched.resume hR hP' h.state (fun j _ => h.thread j) (fun j _ => hsubset j) hth'
      (hmatches.2 P.state (S.rely_refl _ _) hms).2 Set.subset_union_left (fun j hj m hm => ?_) rfl
      (fun _ _ => rfl) hspare
    rcases hm with hm | hm
    · exact hown j hj m hm
    · exact free_not_mem (hfree m hm)
  | @ask c x k b hth hb =>
    obtain ⟨q, hth', hmatches, -⟩ := h.busy hth
    exact Matched.resume hR hP' h.state (fun j _ => h.thread j) (fun j _ => hsubset j) hth'
      (hmatches.2 b hb P.state (S.rely_refl _ _)) subset_rfl hown rfl (fun _ _ => rfl) hspare
  | @lock c m k hth hfree =>
    obtain ⟨q, hth', hmatches, -⟩ := h.busy hth
    have harrives := hmatches.2 P.state (S.rely_refl _ _) (free_not_mem hfree)
    rw [← owned_lock] at harrives
    refine Matched.resume hR hP' h.state (fun j _ => h.thread j) (fun j _ => hsubset j) hth'
      harrives subset_rfl (fun j hj n hn => ?_) rfl
      (fun j hj => owned_lock_of_ne hfree hj) hspare
    rw [owned_lock] at hn
    rcases hn with rfl | hn
    · exact free_not_mem hfree
    · exact hown j hj n hn
  | @unlock c m k hth hm =>
    obtain ⟨q, hth', hmatches, -⟩ := h.busy hth
    have harrives := hmatches.2 P.state (S.rely_refl _ _) hm
    rw [← owned_unlock] at harrives
    exact Matched.resume hR hP' h.state (fun j _ => h.thread j) (fun j _ => hsubset j) hth'
      harrives (owned_unlock.trans_subset Set.sdiff_subset) hown rfl
      (fun j hj => owned_unlock_of_ne hm hj) hspare
  | @wait c g k hth hg =>
    obtain ⟨q, hth', hmatches, -⟩ := h.busy hth
    exact Matched.resume hR hP' h.state (fun j _ => h.thread j) (fun j _ => hsubset j) hth'
      (hmatches.2 P.state (S.rely_refl _ _) hg) subset_rfl hown rfl (fun _ _ => rfl) hspare
  | @again c hth =>
    obtain ⟨q, hth', hmatches, -⟩ := h.busy hth
    obtain ⟨Q', q', hQ', hstate', hthreads, ⟨rfl, hsub⟩, hrest⟩ :=
      exists_run hR (hmatches.2 P.state (S.rely_refl _ _)) hP' hth' rfl h.state
        (fun j hj m hm hm' => hown j hj m hm (hsubset j hm')) fun j _ => S.rely_refl _ _
    have hagain : Q'.threads i = some (c, .again) := by
      rw [hthreads, Function.update_self]
    have hQ := hR _ _ hQ' (.again hagain) fun j _ => S.rely_refl (Q'.owned j) Q'.state
    refine Matched.resume hR hQ hstate' (fun j hj => ?_)
      (fun j hj => (hrest j hj).trans_subset (hsubset j)) (Function.update_self _ _ _)
      (.stop (hbegins c hsub P.state)) subset_rfl hown rfl (fun _ _ => rfl) hspare
    change MatchedAt S (P.owned j) (Q'.owned j) P.state (P.threads j)
      (Function.update Q'.threads i _ j)
    rw [Function.update_of_ne hj, hrest j hj, hthreads, Function.update_of_ne hj]
    exact h.thread j

/-- The step of a matched thread does what its mutexes allow. -/
theorem Matched.allows (h : Matched S P P') (hs : Step code may S.answers i P Q) :
    ∃ H, (∀ j, j ≠ i → ∀ m ∈ H, m ∉ P.owned j) ∧ S.allows H P.state Q.state := by
  have hown (j : τ) (hj : j ≠ i) (m : μ) (hm : m ∈ P.owned i) : m ∉ P.owned j :=
    not_mem_owned hm hj
  cases hs with
  | @act c ms f k hth hfree =>
    obtain ⟨q, -, hmatches, -⟩ := h.busy hth
    have hms : ∀ m ∈ ms, m ∉ P.owned i := fun m hm => free_not_mem (hfree m hm)
    refine ⟨_, fun j hj m hm => ?_, (hmatches.2 P.state (S.rely_refl _ _) hms).1⟩
    rcases hm with hm | hm
    · exact hown j hj m hm
    · exact free_not_mem (hfree m hm)
  | call | ret | ask | lock | unlock | wait | again => exact ⟨_, hown, S.allows_refl _ _⟩

end Steps

end Pool

end Core
