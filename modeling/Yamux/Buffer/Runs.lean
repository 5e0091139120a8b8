import Yamux.Buffer.Calls
import Mathlib.Algebra.BigOperators.Group.Finset.Basic

/-!
# Buffers in one memory

A program has any number of buffers and calls the functions of `bio.c` on them. Whatever the
allocator answers, each buffer is the list of its nodes, no call touches another buffer, and the
memory holds the buffers and nothing else.
-/

namespace Yamux.Buffer

open Core HeapM

/-- The calls that a program makes. -/
inductive BioCall where
  | new
  | on (bio : ℕ) (op : BioOp)
  | free (bio : ℕ)
  deriving DecidableEq, Repr

/-- What they return. -/
inductive Result where
  | pointer (bio : Ptr)
  | reply (r : Reply)
  | done
  deriving DecidableEq, Repr

section Code

variable (A : Allocator Cell) (junk : ℕ → Junk)

/-- The code of a call on a buffer. -/
def onCode (bio : ℕ) : BioOp → BioM Reply
  | .write data => do return ⟨← bioWrite A junk bio data, []⟩
  | .read n => do
    let (r, out) ← bioRead bio true n
    pure ⟨r, out⟩
  | .peek n => do
    let (r, out) ← bioPeek bio n
    pure ⟨r, out⟩
  | .consume n => do return ⟨← bioConsume bio n, []⟩
  | .pending => do return ⟨← bioPending bio, []⟩
  | .reset => do
    bioReset bio
    pure ⟨0, []⟩

def BioCall.code : BioCall → BioM Result
  | .new => do return .pointer (← bioNew A junk)
  | .on bio op => do return .reply (← onCode A junk bio op)
  | .free bio => do
    bioFree bio
    pure .done

end Code

/-! ## The nodes of every buffer -/

/-- The buffers, by their addresses. -/
abbrev Store := ℕ → Option Bio

/-- What a call may return, and the buffers then. -/
inductive Store.Answers (q : Store) : BioCall → Result → Store → Prop where
  | refused : Answers q .new (.pointer none) q
  | new {bio : ℕ} (h : q bio = none) :
      Answers q .new (.pointer (some bio)) (Function.update q bio (some Bio.new))
  | on {bio : ℕ} {b b' : Bio} {op : BioOp} {ans ans' : Prog.Answers Call} {r : Reply}
      (h : q bio = some b)
      (hrun : (op.code b : Prog Call Empty Unit _).run ans () = (.ret (r, b'), ans', ())) :
      Answers q (.on bio op) (.reply r) (Function.update q bio (some b'))
  | free {bio : ℕ} {b : Bio} (h : q bio = some b) :
      Answers q (.free bio) .done (Function.update q bio none)

/-- The buffers after calls with what they returned, from none. -/
inductive Store.After : List (BioCall × Result) → Store → Prop where
  | nil : After [] fun _ => none
  | snoc {calls : List (BioCall × Result)} {q q' : Store} {c : BioCall} {r : Result}
      (h : After calls q) (hc : q.Answers c r q') : After (calls ++ [(c, r)]) q'

/-- The buffers are what functions of `bio.c` lead to. -/
def Store.Ok (q : Store) : Prop := ∀ bio b, q bio = some b → b.Reached

theorem Store.Ok.update {q : Store} (hq : q.Ok) (bio : ℕ) {o : Option Bio}
    (ho : ∀ b, o = some b → b.Reached) : Store.Ok (Function.update q bio o) := by
  intro a b hb
  by_cases ha : a = bio
  · subst ha
    rw [Function.update_self] at hb
    exact ho b hb
  · rw [Function.update_of_ne ha] at hb
    exact hq a b hb

theorem Store.Answers.ok {q q' : Store} {c : BioCall} {r : Result} (h : q.Answers c r q')
    (hq : q.Ok) : q'.Ok := by
  cases h with
  | refused => exact hq
  | new hnone => exact hq.update _ fun b hb => by cases hb; exact .new
  | on hsome hrun => exact hq.update _ fun b hb => by cases hb; exact .call (hq _ _ hsome) hrun
  | free hsome => exact hq.update _ fun b hb => by cases hb

/-! ## The heap -/

/-- The memory holds the buffers, each with its elements, and nothing else. -/
def Store.InHeap (q : Store) (h : Heap ℕ Cell) : Prop :=
  ∃ (s : Finset ℕ) (chains : ℕ → Chain), (∀ bio, q bio = if bio ∈ s then some (chains bio).toBio
    else none) ∧ (∏ bio ∈ s, (chains bio).lay bio).Holds h.cells

section InHeap

variable {A : Allocator Cell} {junk : ℕ → Junk} {q : Store} {h : Heap ℕ Cell} {bio : ℕ} {b : Bio}

theorem inHeap_empty (n : ℕ) : Store.InHeap (fun _ => none) ⟨n, ∅⟩ :=
  ⟨∅, fun _ => ⟨[], 0, 0⟩, fun bio => (if_neg (Finset.notMem_empty bio)).symm, rfl⟩

/-- A program that works on one buffer leaves the others alone. -/
theorem inHeap_yields {α : Type} {p : BioM α} {K : Chain → α → Region Cell → Prop}
    (hI : q.InHeap h) (hbio : q bio = some b)
    (hp : ∀ c : Chain, c.toBio = b → Yields p (c.lay bio) (K c)) :
    ∃ (c : Chain) (a : α) (Q : Region Cell) (h' : Heap ℕ Cell), c.toBio = b ∧ K c a Q ∧
      p h = .ok (a, h') ∧
      (∀ c' : Chain, Q = c'.lay bio → Store.InHeap (Function.update q bio (some c'.toBio)) h') ∧
      (Q = 1 → Store.InHeap (Function.update q bio none) h') := by
  obtain ⟨s, chains, hq, hheap⟩ := hI
  have hs : bio ∈ s := by
    by_contra hns
    rw [hq, if_neg hns] at hbio
    cases hbio
  have hchain : (chains bio).toBio = b := by
    rw [hq, if_pos hs] at hbio
    exact Option.some.inj hbio
  rw [← Finset.mul_prod_erase s _ hs] at hheap
  obtain ⟨a, Q, g', m', hK, hrun, hheap'⟩ := hp _ hchain h.globals _ h.cells hheap
  refine ⟨chains bio, a, Q, ⟨g', m'⟩, hchain, hK, hrun, ?_, ?_⟩
  · rintro c' rfl
    refine ⟨s, Function.update chains bio c', ?_, ?_⟩
    · intro a
      by_cases ha : a = bio
      · subst ha
        rw [Function.update_self, Function.update_self, if_pos hs]
      · rw [Function.update_of_ne ha, Function.update_of_ne ha, hq]
    · rw [← Finset.mul_prod_erase s _ hs, Function.update_self]
      have hothers : ∏ a ∈ s.erase bio, (Function.update chains bio c' a).lay a =
          ∏ a ∈ s.erase bio, (chains a).lay a := by
        apply Finset.prod_congr rfl
        intro a ha
        rw [Function.update_of_ne (Finset.ne_of_mem_erase ha)]
      rwa [hothers]
  · rintro rfl
    refine ⟨s.erase bio, chains, ?_, by rwa [one_mul] at hheap'⟩
    intro a
    by_cases ha : a = bio
    · subst ha
      rw [Function.update_self, if_neg (Finset.notMem_erase a s)]
    · rw [Function.update_of_ne ha, hq]
      simp only [Finset.mem_erase, ne_eq, ha, not_false_eq_true, true_and]

/-- A new buffer next to the others. -/
theorem inHeap_bioNew (A : Allocator Cell) (junk : ℕ → Junk) (hI : q.InHeap h) :
    ∃ r h', bioNew A junk h = .ok (r, h') ∧
    (r = none ∧ q.InHeap h' ∨
      ∃ a, r = some a ∧ q a = none ∧ Store.InHeap (Function.update q a (some Bio.new)) h') := by
  obtain ⟨s, chains, hq, hheap⟩ := hI
  rw [← one_mul (∏ bio ∈ s, _)] at hheap
  obtain ⟨r, Q, g', m', hK, hrun, hheap'⟩ := yields_bioNew A junk h.globals _ h.cells hheap
  refine ⟨r, ⟨g', m'⟩, hrun, ?_⟩
  rcases hK with ⟨rfl, rfl⟩ | ⟨a, rfl, rfl⟩
  · exact .inl ⟨rfl, s, chains, hq, by rwa [one_mul] at hheap'⟩
  · have hns : a ∉ s := by
      intro hs
      rw [← Finset.mul_prod_erase s _ hs, Chain.lay, Chain.lay, mul_assoc, mul_assoc] at hheap'
      rw [mul_left_comm (layPieces _ _)] at hheap'
      exact Region.ne_of_cells hheap' rfl
    refine .inr ⟨a, rfl, (hq a).trans (if_neg hns), insert a s,
      Function.update chains a ⟨[], 0, 0⟩, ?_, ?_⟩
    · intro x
      by_cases hx : x = a
      · subst hx
        rw [Function.update_self, Function.update_self, if_pos (Finset.mem_insert_self x s)]
        rfl
      · rw [Function.update_of_ne hx, Function.update_of_ne hx, hq]
        simp only [Finset.mem_insert, hx, false_or]
    · rw [Finset.prod_insert hns, Function.update_self]
      have hothers : ∏ x ∈ s, (Function.update chains a ⟨[], 0, 0⟩ x).lay x =
          ∏ x ∈ s, (chains x).lay x := by
        apply Finset.prod_congr rfl
        intro x hx
        rw [Function.update_of_ne (ne_of_mem_of_not_mem hx hns)]
      rwa [hothers]

/-- The reply of a call on the nodes, with some answers to its requests, and the queue then. -/
def RepliesAs (bio : ℕ) (c : Chain) (op : BioOp) (r : Reply) (Q : Region Cell) : Prop :=
  ∃ (c' : Chain) (ans ans' : Prog.Answers Call), (op.code c.toBio : Prog Call Empty Unit _).run ans ()
    = (.ret (r, c'.toBio), ans', ()) ∧ Q = c'.lay bio

/-- A call that requests nothing. -/
theorem yields_of_does {c : Chain} (c' : Chain) {op : BioOp} {r : Reply}
    (hr : (op.code c.toBio : Prog Call Empty Unit _).run Prog.noFail () =
      (.ret (r, c'.toBio), Prog.noFail, ()))
    (hp : ∀ g, Does (onCode A junk bio op) g (c.lay bio) r g (c'.lay bio)) :
    Yields (onCode A junk bio op) (c.lay bio) (RepliesAs bio c op) := by
  apply (Does.yields hp).mono
  rintro _ _ ⟨rfl, rfl⟩
  exact ⟨c', _, _, hr, rfl⟩

/-- The code of a call on a buffer replies as on the list of its nodes. -/
theorem yields_onCode {c : Chain} (op : BioOp) (hc : c.toBio.Wf) :
    Yields (onCode A junk bio op) (c.lay bio) (RepliesAs bio c op) := by
  cases op with
  | write data =>
    apply (yields_bioWrite A junk data).bind
    rintro r _ ⟨c', ans, ans', hrun, rfl⟩
    refine .pure ⟨c', ans, ans', ?_, rfl⟩
    rw [BioOp.code, Prog.run_bind, hrun]
    rfl
  | read n =>
    obtain ⟨c', hc', hread⟩ := does_bioRead bio true n hc
    apply yields_of_does c'
    · rw [hc']
      rfl
    · exact fun g => (hread g).bind (.pure _ _ _)
  | peek n => exact yields_of_does c rfl fun g => (does_bioPeek n hc).bind (.pure _ _ _)
  | consume n =>
    obtain ⟨c', hc', hconsume⟩ := does_bioConsume bio n hc
    apply yields_of_does c'
    · rw [hc']
      rfl
    · exact fun g => (hconsume g).bind (.pure _ _ _)
  | pending => exact yields_of_does c rfl fun g => does_bioPending.bind (.pure _ _ _)
  | reset =>
    exact yields_of_does ⟨[], 0, 0⟩ rfl fun g => (does_bioReset hc).bind (.pure _ _ _)

end InHeap

/-! ## Runs -/

/-- The addresses of buffers that were made and not freed. -/
def heldAfter (s : Finset ℕ) : BioCall × Result → Finset ℕ
  | (.new, .pointer (some bio)) => insert bio s
  | (.free bio, _) => s.erase bio
  | _ => s

def held (calls : List (BioCall × Result)) : Finset ℕ := calls.foldl heldAfter ∅

/-- A call on a buffer that is there. -/
def BioCall.Uses (s : Finset ℕ) : BioCall → Prop
  | .new => True
  | .on bio _ => bio ∈ s
  | .free bio => bio ∈ s

theorem held_concat (calls : List (BioCall × Result)) (c : BioCall) (r : Result) :
    held (calls ++ [(c, r)]) = heldAfter (held calls) (c, r) := by
  simp [held]

section Runs

variable (A : Allocator Cell) (junk : ℕ → Junk)

/-- The heaps that calls on such buffers lead to, with what the calls returned. -/
inductive Reached : List (BioCall × Result) → Heap ℕ Cell → Prop where
  | start : Reached [] ⟨0, ∅⟩
  | call {calls : List (BioCall × Result)} {h h' : Heap ℕ Cell} {c : BioCall} {r : Result}
      (hcalls : Reached calls h) (hc : c.Uses (held calls)) (hrun : c.code A junk h = .ok (r, h')) :
      Reached (calls ++ [(c, r)]) h'

variable {A junk} {q : Store} {h : Heap ℕ Cell} {s : Finset ℕ}

theorem Store.Answers.held {q' : Store} {c : BioCall} {r : Result} (hc : q.Answers c r q')
    (hs : ∀ bio, bio ∈ s ↔ q bio ≠ none) (bio : ℕ) : bio ∈ heldAfter s (c, r) ↔ q' bio ≠ none := by
  cases hc with
  | refused => exact hs bio
  | @new a ha =>
    by_cases hbio : bio = a
    · simp [heldAfter, hbio]
    · simp [heldAfter, hbio, hs]
  | @on a b _ _ _ _ _ ha _ =>
    by_cases hbio : bio = a
    · simp [heldAfter, hbio, hs, ha]
    · simp [heldAfter, hbio, hs]
  | @free a b ha =>
    by_cases hbio : bio = a
    · simp [heldAfter, hbio]
    · simp [heldAfter, hbio, hs]

/-- A call answers as the store allows, and leaves the heap of the store then. -/
theorem inHeap_code (A : Allocator Cell) (junk : ℕ → Junk) (hI : q.InHeap h) (hq : q.Ok)
    (hs : ∀ bio, bio ∈ s ↔ q bio ≠ none) {c : BioCall} (hc : c.Uses s) :
    ∃ r h' q', c.code A junk h = .ok (r, h') ∧ q.Answers c r q' ∧ q'.InHeap h' := by
  cases c with
  | new =>
    obtain ⟨r, h', hrun, ⟨rfl, hI'⟩ | ⟨a, rfl, ha, hI'⟩⟩ := inHeap_bioNew A junk hI
    · exact ⟨_, h', q, bind_ok hrun, .refused, hI'⟩
    · exact ⟨_, h', _, bind_ok hrun, .new ha, hI'⟩
  | on bio op =>
    obtain ⟨b, hb⟩ := Option.ne_none_iff_exists'.mp ((hs bio).mp hc)
    obtain ⟨c, r, Q, h', rfl, ⟨c', ans, ans', hop, rfl⟩, hrun, hI', -⟩ := inHeap_yields hI hb
      (K := fun c => RepliesAs bio c op) (p := onCode A junk bio op) (by
        rintro c rfl
        exact yields_onCode op (hq bio _ hb).wf)
    exact ⟨_, h', _, bind_ok hrun, .on hb hop, hI' c' rfl⟩
  | free bio =>
    obtain ⟨b, hb⟩ := Option.ne_none_iff_exists'.mp ((hs bio).mp hc)
    obtain ⟨c, r, Q, h', rfl, ⟨rfl, rfl⟩, hrun, -, hI'⟩ := inHeap_yields hI hb
      (K := fun c r Q => r = () ∧ Q = 1) (p := bioFree bio) (by
        rintro c rfl
        exact Does.yields fun g => does_bioFree (hq bio _ hb).wf)
    exact ⟨_, h', _, bind_ok hrun, .free hb, hI' rfl⟩

/-- The heap is the one of a store that the calls lead to. -/
theorem Reached.inHeap {calls : List (BioCall × Result)} (hr : Reached A junk calls h) :
    ∃ q, Store.After calls q ∧ q.Ok ∧ (∀ bio, bio ∈ held calls ↔ q bio ≠ none) ∧ q.InHeap h := by
  induction hr with
  | start =>
    have hnone : ∀ bio, bio ∈ held [] ↔ (fun _ => none : Store) bio ≠ none := fun bio => by
      simp [held]
    exact ⟨fun _ => none, .nil, (fun bio b hb => by cases hb), hnone, inHeap_empty 0⟩
  | @call calls h h' c r _ hc hrun ih =>
    obtain ⟨q, hafter, hq, hs, hI⟩ := ih
    obtain ⟨r', h'', q', hrun', hanswers, hI'⟩ := inHeap_code A junk hI hq hs hc
    rw [hrun] at hrun'
    obtain ⟨rfl, rfl⟩ := Prod.mk.inj (Except.ok.inj hrun')
    refine ⟨q', hafter.snoc hanswers, hanswers.ok hq, fun bio => ?_, hI'⟩
    rw [held_concat]
    exact hanswers.held hs bio

end Runs

end Yamux.Buffer
