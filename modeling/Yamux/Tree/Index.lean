import Yamux.Tree.Search

/-!
# The index that a tree keeps

What the trees are for: they keep one record for each key. An index says which record that
is. Calls on an index are put next to the code of `tree.h`, and every run of calls has the
answers that the index gives, with memory that holds the records of the index and no others.
-/

namespace Yamux.Tree

open Core HeapM RbTree

/-- The record that each key has. -/
abbrev Index (K : Type) := K → Option ℕ

section Calls

variable {K : Type} [LinearOrder K]

/-- The record with the least of the keys that `P` allows. -/
structure Index.Least (index : Index K) (P : K → Prop) (res : Ptr) : Prop where
  of_none : res = none → ∀ k, P k → index k = none
  of_some : ∀ a, res = some a →
    ∃ k, P k ∧ index k = some a ∧ ∀ k', P k' → index k' ≠ none → k ≤ k'

/-- The calls on a tree. An inserted record is new: its memory holds anything before. -/
inductive Call (K : Type) where
  | insert (a : ℕ) (k : K) (before : Entry)
  | find (k : K)
  | min
  | next (a : ℕ)
  | remove (a : ℕ)

/-- What an index answers to a call, and the index afterwards. A record is inserted under a key
that has none, and the records that are asked about or removed are in the index. -/
inductive Index.Answers (index : Index K) : Call K → Ptr → Index K → Prop where
  | insert {a : ℕ} {k : K} {before : Entry} (hk : index k = none) (ha : ∀ k', index k' ≠ some a) :
      Answers index (.insert a k before) none (Function.update index k (some a))
  | find {k : K} : Answers index (.find k) (index k) index
  | min {res : Ptr} (h : index.Least (fun _ => True) res) : Answers index .min res index
  | next {a : ℕ} {k : K} {res : Ptr} (ha : index k = some a) (h : index.Least (k < ·) res) :
      Answers index (.next a) res index
  | remove {a : ℕ} {k : K} (ha : index k = some a) :
      Answers index (.remove a) (some a) (Function.update index k none)

/-- The answers of an index to calls one after the other. -/
inductive Index.Run : Index K → List (Call K) → List Ptr → Index K → Prop where
  | nil {index : Index K} : Run index [] [] index
  | cons {index index' index'' : Index K} {c : Call K} {res : Ptr} {cs : List (Call K)}
      {ress : List Ptr} (hc : index.Answers c res index') (hcs : Run index' cs ress index'') :
      Run index (c :: cs) (res :: ress) index''

theorem Index.Run.append {index index' index'' : Index K} {cs cs' : List (Call K)}
    {ress ress' : List Ptr} (h : index.Run cs ress index') (h' : index'.Run cs' ress' index'') :
    index.Run (cs ++ cs') (ress ++ ress') index'' := by
  induction h with
  | nil => exact h'
  | cons hc _ ih => exact .cons hc (ih h')

variable (cmp : K → K → Int) (fuel : ℕ)

/-- The code of a call, with `malloc` before an insertion and `free` after a removal. -/
def Call.code : Call K → RbM K Ptr
  | .insert a k before => do
    alloc a ⟨k, before⟩
    rbInsert cmp fuel (some a)
  | .find k => rbLookup cmp fuel k
  | .min => rbMinmax .left fuel
  | .next a => rbNext fuel (some a)
  | .remove a => do
    let old ← rbRemove fuel (some a)
    free a
    pure old

end Calls

/-! ## Trees and indexes -/

section IsOf

variable {K : Type} {κ κ' : ℕ → K} {t t' : RbTree ℕ} {index : Index K} {a : ℕ} {k : K}

/-- The records of the tree are the ones of the index. -/
def Index.IsOf (index : Index K) (κ : ℕ → K) (t : RbTree ℕ) : Prop :=
  ∀ k a, index k = some a ↔ a ∈ t.labels ∧ κ a = k

namespace Index.IsOf

theorem get (h : index.IsOf κ t) (ha : a ∈ t.labels) : index (κ a) = some a :=
  (h _ a).mpr ⟨ha, rfl⟩

theorem not_mem (h : index.IsOf κ t) (ha : ∀ k', index k' ≠ some a) : a ∉ t.labels :=
  fun hmem => ha _ (h.get hmem)

theorem ne_of_eq_none (h : index.IsOf κ t) (hk : index k = none) : ∀ a ∈ t.labels, κ a ≠ k := by
  rintro a ha rfl
  rw [h.get ha] at hk
  cases hk

theorem congr (h : index.IsOf κ t) (hκ : ∀ a ∈ t.labels, κ a = κ' a) : index.IsOf κ' t := by
  intro k b
  constructor
  · intro hi
    obtain ⟨hb, rfl⟩ := (h k b).mp hi
    exact ⟨hb, (hκ b hb).symm⟩
  · rintro ⟨hb, rfl⟩
    rw [← hκ b hb]
    exact h.get hb

/-- A record that comes in under a key that has none. -/
theorem insert [DecidableEq K] (h : index.IsOf κ t) (hk : index (κ a) = none)
    (ht : ∀ b, b ∈ t'.labels ↔ b = a ∨ b ∈ t.labels) :
    Index.IsOf (Function.update index (κ a) (some a)) κ t' := by
  intro k b
  by_cases hka : k = κ a
  · subst hka
    rw [Function.update_self, Option.some.injEq, ht]
    constructor
    · rintro rfl
      exact ⟨.inl rfl, rfl⟩
    · rintro ⟨rfl | hb, hκ⟩
      · rfl
      · exact absurd hκ (h.ne_of_eq_none hk b hb)
  · rw [Function.update_of_ne hka, h k b, ht]
    constructor
    · rintro ⟨hb, hκ⟩
      exact ⟨.inr hb, hκ⟩
    · rintro ⟨rfl | hb, hκ⟩
      · exact absurd hκ.symm hka
      · exact ⟨hb, hκ⟩

/-- The record of a key goes. -/
theorem remove [DecidableEq K] (h : index.IsOf κ t) (ha : index k = some a)
    (ht : ∀ b, b ∈ t'.labels ↔ b ∈ t.labels ∧ b ≠ a) :
    Index.IsOf (Function.update index k none) κ t' := by
  obtain ⟨-, rfl⟩ := (h k a).mp ha
  intro k b
  by_cases hka : k = κ a
  · subst hka
    rw [Function.update_self, ht]
    constructor
    · intro hb
      cases hb
    · rintro ⟨⟨hb, hne⟩, hκ⟩
      have hi := h.get hb
      rw [hκ, ha] at hi
      exact absurd (Option.some.inj hi).symm hne
  · rw [Function.update_of_ne hka, h k b, ht]
    constructor
    · rintro ⟨hb, rfl⟩
      exact ⟨⟨hb, fun hba => hka (congrArg κ hba)⟩, rfl⟩
    · rintro ⟨⟨hb, -⟩, hκ⟩
      exact ⟨hb, hκ⟩

end Index.IsOf

theorem layTree_congr {p : Ptr} (h : ∀ a ∈ t.labels, κ a = κ' a) :
    layTree κ t p = layTree κ' t p := by
  induction t generalizing p with
  | nil => rfl
  | node c l a r ihl ihr =>
    rw [layTree, layTree, h a (by simp), ihl fun b hb => h b (by simp [hb]),
      ihr fun b hb => h b (by simp [hb])]

/-- A record outside of the tree is freed. -/
theorem does_free {α : Type} {p : RbM K α} {b : α} {g g' : Ptr} {N : Node K}
    {P Q : Region (Node K)} (hp : Does p g P b g' Q) :
    Does (free a >>= fun _ => p) g (P * .cell a N) b g' Q := by
  apply (Does.free a N g).step (mul_comm _ _)
  rw [one_mul]
  exact hp

end IsOf

section Order

variable {K : Type} [LinearOrder K] {κ κ' : ℕ → K} {t : RbTree ℕ} {index : Index K}
  {P : K → Prop}

theorem valid_congr (ht : t.Valid κ) (h : ∀ a ∈ t.labels, κ a = κ' a) : t.Valid κ' := by
  refine ⟨ht.balanced, List.Pairwise.imp_of_mem ?_ ht.ordered⟩
  intro a b ha hb hlt
  rwa [← h a ha, ← h b hb]

/-- The first of the records whose keys are allowed has the least key of them. -/
theorem Index.IsOf.least (h : index.IsOf κ t) (ht : t.Sorted κ) {A B : List ℕ}
    (hAB : t.labels = A ++ B) (hA : ∀ a ∈ A, ¬ P (κ a)) (hB : ∀ b ∈ B, P (κ b)) :
    index.Least P B.head? := by
  have hmem {k : K} {a : ℕ} (hi : index k = some a) (hk : P k) : a ∈ B ∧ κ a = k := by
    obtain ⟨ha, rfl⟩ := (h k a).mp hi
    rw [hAB] at ha
    rcases List.mem_append.mp ha with ha | ha
    · exact absurd hk (hA a ha)
    · exact ⟨ha, rfl⟩
  rw [Sorted, hAB] at ht
  have hsorted := (List.pairwise_append.mp ht).2.1
  constructor
  · intro hnone k hk
    cases hi : index k with
    | none => rfl
    | some a =>
      rw [List.head?_eq_none_iff.mp hnone] at hmem
      exact absurd (hmem hi hk).1 List.not_mem_nil
  · intro b hsome
    obtain ⟨B', rfl⟩ := List.head?_eq_some_iff.mp hsome
    refine ⟨κ b, hB b (List.mem_cons_self ..), h.get (by simp [hAB]), fun k' hk' hne => ?_⟩
    obtain ⟨a, hi⟩ := Option.ne_none_iff_exists'.mp hne
    obtain ⟨ha, rfl⟩ := hmem hi hk'
    rcases List.mem_cons.mp ha with rfl | ha
    · exact le_rfl
    · exact (List.rel_of_pairwise_cons hsorted ha).le

/-- There is one record with the least key. -/
theorem Index.Least.unique {res res' : Ptr} (h : index.Least P res) (h' : index.Least P res') :
    res = res' := by
  have hnone {res res' : Ptr} (h : index.Least P res) (h' : index.Least P res')
      (hn : res = none) : res' = none := by
    cases res' with
    | none => rfl
    | some a =>
      obtain ⟨k, hk, hi, -⟩ := h'.of_some a rfl
      rw [h.of_none hn k hk] at hi
      cases hi
  cases res with
  | none => exact (hnone h h' rfl).symm
  | some a =>
    cases res' with
    | none => exact hnone h' h rfl
    | some b =>
      obtain ⟨k, hk, hi, hle⟩ := h.of_some a rfl
      obtain ⟨k', hk', hi', hle'⟩ := h'.of_some b rfl
      obtain rfl : k = k' := le_antisymm (hle k' hk' (by simp [hi'])) (hle' k hk (by simp [hi]))
      rw [← hi, ← hi']

end Order

/-! ## The heap -/

section InHeap

variable {K : Type} [LinearOrder K] {cmp : K → K → Int} {fuel n : ℕ} {index index' : Index K}
  {h : Heap Ptr (Node K)} {a : ℕ} {k : K} {res : Ptr}

/-- The head and the memory are a search tree with at most `n` records for the index, and there
are no other records. -/
def Index.InHeap (index : Index K) (n : ℕ) (h : Heap Ptr (Node K)) : Prop :=
  ∃ κ t, t.Valid κ ∧ index.IsOf κ t ∧ t.labels.length ≤ n ∧ h.globals = t.top ∧
    (layTree κ t none).Holds h.cells

theorem Index.InHeap.mono (hI : index.InHeap n h) {n' : ℕ} (hn : n ≤ n') : index.InHeap n' h := by
  obtain ⟨κ, t, ht, hindex, hlength, hheap⟩ := hI
  exact ⟨κ, t, ht, hindex, hlength.trans hn, hheap⟩

/-- `RB_INIT`. -/
theorem inHeap_empty [Inhabited K] : Index.InHeap (fun _ : K => none) 0 ⟨none, ∅⟩ :=
  ⟨fun _ => default, .nil, valid_nil, fun k a => by simp, le_rfl, rfl, rfl⟩

/-- How many rounds are enough. -/
theorem depth_lt {κ : ℕ → K} {t : RbTree ℕ} (ht : t.Valid κ) (hn : t.labels.length ≤ n)
    (hf : 2 * Nat.log 2 (n + 1) < fuel) : t.depth < fuel := by
  obtain ⟨N, hN⟩ := ht.balanced
  have hlog : Nat.log 2 (t.labels.length + 1) ≤ Nat.log 2 (n + 1) := Nat.log_mono_right (by omega)
  have hdepth := hN.depth_le_log
  omega

/-- The records of the index are the ones that are allocated. -/
theorem Index.InHeap.mem_cells (hI : index.InHeap n h) (ha : a ∈ h.cells) :
    ∃ k, index k = some a := by
  obtain ⟨κ, t, -, hindex, -, -, hcells⟩ := hI
  exact ⟨κ a, hindex.get (mem_labels_of_layTree hcells ha)⟩

/-- The heap with one more record, which is not in the tree. -/
theorem Index.InHeap.beside (hI : index.InHeap n h) (ha : a ∉ h.cells) (k : K) (before : Entry) :
    ∃ κ t, t.Valid κ ∧ index.IsOf κ t ∧ t.labels.length ≤ n ∧ h.globals = t.top ∧ κ a = k ∧
      (layTree κ t none * .cell a ⟨κ a, before⟩).Holds (h.cells.insert a ⟨k, before⟩) := by
  obtain ⟨κ, t, ht, hindex, hn, hroot, hcells⟩ := hI
  have hat : a ∉ t.labels := fun hmem => ha (mem_of_layTree hcells hmem)
  have hκ : ∀ b ∈ t.labels, κ b = Function.update κ a k b := by
    intro b hb
    rw [Function.update_of_ne (ne_of_mem_of_not_mem hb hat)]
  refine ⟨Function.update κ a k, t, valid_congr ht hκ, hindex.congr hκ, hn, hroot,
    Function.update_self .., ?_⟩
  rw [layTree_congr hκ] at hcells
  rw [Function.update_self, mul_comm]
  exact Region.holds_alloc ha hcells _

/-- A new record that is given to the tree under a key that has none. -/
theorem inHeap_rbInsert (hcmp : Compares cmp) (hI : index.InHeap n h) (hk : index k = none)
    (ha : a ∉ h.cells) (hf : 2 * Nat.log 2 (n + 1) < fuel) (before : Entry) :
    ∃ h', rbInsert cmp fuel (some a) { h with cells := h.cells.insert a ⟨k, before⟩ } =
        .ok (none, h') ∧ Index.InHeap (Function.update index k (some a)) (n + 1) h' := by
  obtain ⟨κ, t, ht, hindex, hn, hroot, rfl, hcells⟩ := hI.beside ha k before
  obtain ⟨t', hinsert, ht', hlabels⟩ := does_rbInsert hcmp ht (hindex.ne_of_eq_none hk) before
    (depth_lt ht hn hf)
  obtain ⟨m', hrun, hm'⟩ := hinsert.run hcells
  rw [← hroot] at hrun
  refine ⟨⟨t'.top, m'⟩, hrun, κ, t', ht', hindex.insert hk hlabels, ?_, rfl, hm'⟩
  have hsub : t'.labels ⊆ a :: t.labels := by
    intro b hb
    rcases (hlabels b).mp hb with rfl | hb
    · exact List.mem_cons_self ..
    · exact List.mem_cons_of_mem _ hb
  exact ((ht'.ordered.nodup.subperm hsub).length_le).trans (Nat.succ_le_succ hn)

/-- A program that takes the record of a key out of the tree and frees it. -/
theorem inHeap_remove {α : Type} {p : RbM K α} {b : α} (hI : index.InHeap n h)
    (ha : index k = some a) (hf : 2 * Nat.log 2 (n + 1) < fuel)
    (hp : ∀ κ t t' e, t.Valid κ → index.IsOf κ t → t.labels.length ≤ n →
      Does (rbRemove fuel (some a)) t.top (layTree κ t none) (some a) t'.top
        (layTree κ t' none * .cell a ⟨κ a, e⟩) →
      Does p t.top (layTree κ t none) b t'.top (layTree κ t' none)) :
    ∃ h', p h = .ok (b, h') ∧ Index.InHeap (Function.update index k none) n h' := by
  obtain ⟨κ, t, ht, hindex, hn, hroot, hcells⟩ := hI
  obtain ⟨hmem, -⟩ := (hindex k a).mp ha
  obtain ⟨t', e, hremove, ht', hlabels⟩ := does_rbRemove (κ := κ) ht hmem (depth_lt ht hn hf)
  obtain ⟨m', hrun, hm'⟩ := (hp κ t t' e ht hindex hn hremove).run hcells
  rw [← hroot] at hrun
  refine ⟨⟨t'.top, m'⟩, hrun, κ, t', ht', hindex.remove ha hlabels, ?_, rfl, hm'⟩
  exact ((ht'.ordered.nodup.subperm fun b hb => ((hlabels b).mp hb).1).length_le).trans hn

/-- A call that only looks. -/
theorem inHeap_look {p : RbM K Ptr} (hI : index.InHeap n h)
    (hp : ∀ κ t, t.Valid κ → index.IsOf κ t → t.labels.length ≤ n → Turns κ p t res t) :
    ∃ h', p h = .ok (res, h') ∧ index.InHeap n h' := by
  obtain ⟨κ, t, ht, hindex, hn, hroot, hcells⟩ := hI
  obtain ⟨m', hrun, hm'⟩ := (hp κ t ht hindex hn).run hcells
  rw [← hroot] at hrun
  exact ⟨⟨h.globals, m'⟩, hrun, κ, t, ht, hindex, hn, hroot, hm'⟩

/-- A search answers what the index says. -/
theorem inHeap_find (hcmp : Compares cmp) (hI : index.InHeap n h)
    (hf : 2 * Nat.log 2 (n + 1) < fuel) (k : K) :
    ∃ h', rbLookup cmp fuel k h = .ok (index k, h') ∧ index.InHeap n h' := by
  apply inHeap_look hI
  intro κ t ht hindex hn
  obtain ⟨res, hfind, hres⟩ := turns_rbLookup hcmp ht k (depth_lt ht hn hf)
  have heq : index k = res := Option.ext fun a => (hindex k a).trans (hres a).symm
  rw [heq]
  exact hfind

/-- A call has the answer that the index gives. -/
theorem inHeap_code (hcmp : Compares cmp) {c : Call K} (hc : index.Answers c res index')
    (hI : index.InHeap n h) (hf : 2 * Nat.log 2 (n + 1) < fuel) :
    ∃ h', c.code cmp fuel h = .ok (res, h') ∧ index'.InHeap (n + 1) h' := by
  cases hc with
  | @insert a k before hk ha =>
    have hnew : a ∉ h.cells := by
      intro hmem
      obtain ⟨k', hk'⟩ := hI.mem_cells hmem
      exact ha k' hk'
    obtain ⟨h', hrun, hI'⟩ := inHeap_rbInsert hcmp hI hk hnew hf before
    exact ⟨h', (bind_ok (alloc_of_not_mem hnew _)).trans hrun, hI'⟩
  | find =>
    obtain ⟨h', hrun, hI'⟩ := inHeap_find hcmp hI hf _
    exact ⟨h', hrun, hI'.mono (Nat.le_succ n)⟩
  | min hleast =>
    obtain ⟨h', hrun, hI'⟩ : ∃ h', rbMinmax .left fuel h = .ok (res, h') ∧ index.InHeap n h' := by
      apply inHeap_look hI
      intro κ t ht hindex hn
      have hmin := hindex.least ht.ordered (P := fun _ => True) (List.nil_append _).symm
        (by simp) (by simp)
      rw [hleast.unique hmin]
      exact turns_rbMin (by have := depth_lt ht hn hf; omega)
    exact ⟨h', hrun, hI'.mono (Nat.le_succ n)⟩
  | @next a k _ ha hleast =>
    obtain ⟨h', hrun, hI'⟩ : ∃ h', rbNext fuel (some a) h = .ok (res, h') ∧ index.InHeap n h' := by
      apply inHeap_look hI
      intro κ t ht hindex hn
      obtain ⟨hmem, rfl⟩ := (hindex k a).mp ha
      obtain ⟨A, B, hAB⟩ := List.append_of_mem hmem
      have hsorted := ht.ordered
      rw [Sorted, hAB] at hsorted
      obtain ⟨-, hB, hA⟩ := List.pairwise_append.mp hsorted
      have hnext := hindex.least ht.ordered (A := A ++ [a]) (B := B) (P := (κ a < ·))
        (by simp [hAB]) ?_ (List.pairwise_cons.mp hB).1
      · rw [hleast.unique hnext]
        exact turns_rbNext hAB (depth_lt ht hn hf)
      · intro b hb
        rcases List.mem_append.mp hb with hb | hb
        · exact (hA b hb a (List.mem_cons_self ..)).not_gt
        · rw [List.mem_singleton.mp hb]
          exact lt_irrefl _
    exact ⟨h', hrun, hI'.mono (Nat.le_succ n)⟩
  | @remove a k ha =>
    obtain ⟨h', hrun, hI'⟩ := inHeap_remove (p := (Call.remove a).code cmp fuel) hI ha hf
      fun κ t t' e _ _ _ hremove => hremove.bind (does_free (.pure _ _ _))
    exact ⟨h', hrun, hI'.mono (Nat.le_succ n)⟩

end InHeap

end Yamux.Tree
