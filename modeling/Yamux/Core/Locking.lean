import Yamux.Core.Threads
import Mathlib.Data.List.Pairwise
import Mathlib.Order.WellFounded

/-!
# Mutexes taken in order

Mutexes are on levels. A program is ordered if it takes a mutex only when that is above
all the mutexes it holds, gives back the one it took last, and holds none where it blocks
on a condition or starts over. The promise is about every state that others may leave and
about every answer of the environment, so ordered calls stay ordered in a pool: there
every thread owns what it holds, and no threads wait for each other.
-/

namespace Core

variable {ι μ σ α β L : Type} [Preorder L]

/-- The mutex is above all those in the list. -/
def Above (level : μ → L) (m : μ) (held : List μ) : Prop := ∀ m' ∈ held, level m' < level m

namespace Above

variable {level : μ → L} {m m' : μ} {held : List μ}

@[simp] theorem nil : Above level m [] := fun _ h => absurd h List.not_mem_nil

@[simp] theorem cons_iff : Above level m (m' :: held) ↔ level m' < level m ∧ Above level m held :=
  List.forall_mem_cons

/-- A mutex on top of the ones that are held. -/
theorem cons (hlt : level m' < level m) (h : Above level m' held) :
    Above level m (m' :: held) :=
  cons_iff.mpr ⟨hlt, fun n hn => (h n hn).trans hlt⟩

theorem mono (h : Above level m' held) (hle : level m' ≤ level m) : Above level m held :=
  fun n hn => (h n hn).trans_le hle

theorem not_mem (h : Above level m held) : m ∉ held := fun hm => lt_irrefl _ (h m hm)

end Above

/-- From the mutexes `held` on, innermost first, the program takes mutexes in the order of
their levels, and returns in `Q`. -/
def Ordered (ok : ι → Bool → Prop) (level : μ → L) :
    Prog ι μ σ α → List μ → (α → List μ → Prop) → Prop
  | .ret a, held, Q => Q a held
  | .act ms _ k, held, Q => (∀ m ∈ ms, Above level m held) ∧ ∀ s, Ordered ok level (k s) held Q
  | .ask c k, held, Q => ∀ b, ok c b → Ordered ok level (k b) held Q
  | .lock m k, held, Q => Above level m held ∧ Ordered ok level k (m :: held) Q
  | .unlock m k, held, Q => ∃ rest, held = m :: rest ∧ Ordered ok level k rest Q
  | .wait c k, held, Q => (∃ s, c s = true) → held = [] ∧ Ordered ok level k held Q
  | .again, held, _ => held = []
  | .abort, _, _ => True

namespace Ordered

variable {ok : ι → Bool → Prop} {level : μ → L} {held : List μ} {Q : α → List μ → Prop}

theorem bind {p : Prog ι μ σ α} {k : α → Prog ι μ σ β} {R : β → List μ → Prop}
    (hp : Ordered ok level p held Q) (hk : ∀ a held', Q a held' → Ordered ok level (k a) held' R) :
    Ordered ok level (p >>= k) held R := by
  rw [Prog.bind_eq]
  induction p generalizing held with
  | ret a => exact hk a held hp
  | act ms f k ih => exact ⟨hp.1, fun s => ih s (hp.2 s)⟩
  | ask c k ih => exact fun b hb => ih b (hp b hb)
  | lock m k ih => exact ⟨hp.1, ih hp.2⟩
  | unlock m k ih =>
    obtain ⟨rest, heq, hrest⟩ := hp
    exact ⟨rest, heq, ih hrest⟩
  | wait c k ih => exact fun hc => ⟨(hp hc).1, ih (hp hc).2⟩
  | again => exact hp
  | abort => trivial

/-- Sequential composition, backwards. -/
theorem seq {p : Prog ι μ σ α} {k : α → Prog ι μ σ β} {R : β → List μ → Prop}
    (h : Ordered ok level p held fun a held' => Ordered ok level (k a) held' R) :
    Ordered ok level (p >>= k) held R :=
  h.bind fun _ _ hk => hk

theorem mono {Q' : α → List μ → Prop} {p : Prog ι μ σ α} (h : Ordered ok level p held Q)
    (hQ : ∀ a held', Q a held' → Q' a held') : Ordered ok level p held Q' := by
  induction p generalizing held with
  | ret a => exact hQ a held h
  | act ms f k ih => exact ⟨h.1, fun s => ih s (h.2 s)⟩
  | ask c k ih => exact fun b hb => ih b (h b hb)
  | lock m k ih => exact ⟨h.1, ih h.2⟩
  | unlock m k ih =>
    obtain ⟨rest, heq, hrest⟩ := h
    exact ⟨rest, heq, ih hrest⟩
  | wait c k ih => exact fun hc => ⟨(h hc).1, ih (h hc).2⟩
  | again => exact h
  | abort => trivial

theorem pure {a : α} (h : Q a held) : Ordered ok level (Pure.pure a : Prog ι μ σ α) held Q := h

/-- An action that needs no mutex beyond those that are held. -/
theorem crit {f : σ → α × σ} (h : ∀ s, Q (f s).1 held) :
    Ordered ok level (Prog.crit [] f : Prog ι μ σ α) held Q :=
  ⟨fun _ hm => absurd hm List.not_mem_nil, h⟩

theorem read {f : σ → α} (h : ∀ s, Q (f s) held) :
    Ordered ok level (Prog.read [] f : Prog ι μ σ α) held Q := crit h

theorem modify {f : σ → σ} {Q : Unit → List μ → Prop} (h : Q () held) :
    Ordered ok level (Prog.modify [] f : Prog ι μ σ Unit) held Q := crit fun _ => h

theorem query {c : ι} {Q : Bool → List μ → Prop} (h : ∀ b, Q b held) :
    Ordered ok level (Prog.query c : Prog ι μ σ Bool) held Q := fun b _ => h b

theorem await {c : σ → Bool} {Q : Unit → List μ → Prop} (h : Q () []) :
    Ordered ok level (Prog.await c : Prog ι μ σ Unit) [] Q := fun _ => ⟨rfl, h⟩

theorem check {b : Bool} {Q : Unit → List μ → Prop} (h : b = true → Q () held) :
    Ordered ok level (Prog.check b : Prog ι μ σ Unit) held Q := by
  cases b with
  | true => exact h rfl
  | false => trivial

theorem acquire {m : μ} {Q : Unit → List μ → Prop} (hm : Above level m held)
    (h : Q () (m :: held)) : Ordered ok level (Prog.acquire m : Prog ι μ σ Unit) held Q := ⟨hm, h⟩

theorem release {m : μ} {Q : Unit → List μ → Prop} (h : Q () held) :
    Ordered ok level (Prog.release m : Prog ι μ σ Unit) (m :: held) Q := ⟨held, rfl, h⟩

theorem again : Ordered ok level (Prog.again : Prog ι μ σ α) [] Q := rfl

/-- What follows a mutex that was taken holds it too. -/
theorem acquire_seq {m : μ} {k : Unit → Prog ι μ σ α} (hm : Above level m held)
    (h : Ordered ok level (k ()) (m :: held) Q) : Ordered ok level (Prog.acquire m >>= k) held Q :=
  .seq (.acquire hm h)

/-- What follows a mutex that was given back holds the others. -/
theorem release_seq {m : μ} {k : Unit → Prog ι μ σ α} (h : Ordered ok level (k ()) held Q) :
    Ordered ok level (Prog.release m >>= k) (m :: held) Q :=
  .seq (.release h)

theorem query_seq {c : ι} {k : Bool → Prog ι μ σ α} (h : ∀ b, Ordered ok level (k b) held Q) :
    Ordered ok level (Prog.query c >>= k) held Q :=
  .seq (.query h)

theorem read_seq {f : σ → β} {k : β → Prog ι μ σ α}
    (h : ∀ s, Ordered ok level (k (f s)) held Q) : Ordered ok level (Prog.read [] f >>= k) held Q :=
  .seq (.read h)

theorem modify_seq {f : σ → σ} {k : Unit → Prog ι μ σ α} (h : Ordered ok level (k ()) held Q) :
    Ordered ok level (Prog.modify [] f >>= k) held Q :=
  .seq (.modify h)

theorem check_seq {b : Bool} {k : Unit → Prog ι μ σ α} (h : Ordered ok level (k ()) held Q) :
    Ordered ok level (Prog.check b >>= k) held Q :=
  .seq (.check fun _ => h)

/-- A loop whose rounds give back what they take. -/
theorem loop {body : Prog ι μ σ (Option α)}
    (h : Ordered ok level body held fun o held' => match o with
      | none => held' = held
      | some a => Q a held') (n : Nat) : Ordered ok level (Prog.loop n body) held Q := by
  induction n with
  | zero =>
    rintro ⟨s, hs⟩
    cases hs
  | succ n ih =>
    apply h.bind
    intro o held' ho
    cases o with
    | none =>
      obtain rfl := ho
      exact ih
    | some a => exact ho

end Ordered

/-- An ordered program that gives back all that it takes. -/
def Balanced (ok : ι → Bool → Prop) (level : μ → L) (p : Prog ι μ σ α) (held : List μ) : Prop :=
  Ordered ok level p held fun _ held' => held' = held

namespace Balanced

variable {ok : ι → Bool → Prop} {level : μ → L} {held : List μ}

/-- After a balanced program the same mutexes are held. -/
theorem seq {p : Prog ι μ σ α} {k : α → Prog ι μ σ β} {Q : β → List μ → Prop}
    (hp : Balanced ok level p held) (hk : ∀ a, Ordered ok level (k a) held Q) :
    Ordered ok level (p >>= k) held Q := by
  apply Ordered.bind hp
  rintro a held' rfl
  exact hk a

end Balanced

namespace Pool

variable {κ τ : Type}

/-! ## Who waits for whom -/

/-- The next step of the thread needs the mutex. -/
inductive Awaits (P : Pool ι μ σ κ τ) (i : τ) (m : μ) : Prop where
  | lock {c : κ} {k : Prog ι μ σ Unit} (h : P.threads i = some (c, .lock m k))
  | act {c : κ} {ms : List μ} {f : σ → σ} {k : σ → Prog ι μ σ Unit}
      (h : P.threads i = some (c, .act ms f k)) (hm : m ∈ ms)

/-- The thread is not in a call, or at the end of one, or it starts one over, or it blocks
on a condition. -/
inductive Rests (P : Pool ι μ σ κ τ) (i : τ) : Prop where
  | idle (h : P.threads i = none)
  | ret {c : κ} {u : Unit} (h : P.threads i = some (c, .ret u))
  | again {c : κ} (h : P.threads i = some (c, .again))
  | wait {c : κ} {g : σ → Bool} {k : Prog ι μ σ Unit} (h : P.threads i = some (c, .wait g k))
      (hg : ∃ s, g s = true)

/-- A set of threads each of which waits for a mutex that one of them owns. -/
def Deadlocked (P : Pool ι μ σ κ τ) (S : Set τ) : Prop :=
  S.Nonempty ∧ ∀ i ∈ S, ∃ m, P.Awaits i m ∧ ∃ j ∈ S, P.owner m = some j

/-- The threads take mutexes in the order of their levels, give back their own, and own
none at rest. -/
structure Disciplined (level : μ → L) (P : Pool ι μ σ κ τ) : Prop where
  order : ∀ {i m m'}, P.Awaits i m → P.owner m' = some i → level m' < level m
  apart : ∀ {i m m'}, P.owner m = some i → P.owner m' = some i → m ≠ m' →
    level m < level m' ∨ level m' < level m
  unlock : ∀ {i c m k}, P.threads i = some (c, .unlock m k) → P.owner m = some i
  rest : ∀ {i}, P.Rests i → ∀ m, P.owner m ≠ some i

namespace Disciplined

variable {level : μ → L} {P : Pool ι μ σ κ τ}

/-- Of threads some of which own a mutex, one does not wait for any of the others. -/
theorem exists_unblocked [WellFoundedGT L] (h : P.Disciplined level) {S : Set τ} {i : τ} {m : μ}
    (hi : i ∈ S) (hm : P.owner m = some i) :
    ∃ j ∈ S, (∃ m, P.owner m = some j) ∧ ∀ m, P.Awaits j m → ∀ k ∈ S, P.owner m ≠ some k := by
  let owned : Set L := {l | ∃ m, level m = l ∧ ∃ j ∈ S, P.owner m = some j}
  obtain ⟨l, ⟨top, rfl, j, hj, htop⟩, hmax⟩ :=
    wellFounded_gt.has_min owned ⟨level m, m, rfl, i, hi, hm⟩
  refine ⟨j, hj, ⟨top, htop⟩, fun m hwaits k hk hown => ?_⟩
  -- a mutex that the owner of the topmost one waits for would be above it
  exact hmax (level m) ⟨m, rfl, k, hk, hown⟩ (h.order hwaits htop)

theorem not_deadlocked [WellFoundedGT L] (h : P.Disciplined level) (S : Set τ) :
    ¬ P.Deadlocked S := by
  rintro ⟨⟨i, hi⟩, hwaits⟩
  obtain ⟨m, -, j, hj, hown⟩ := hwaits i hi
  obtain ⟨k, hk, -, hfree⟩ := h.exists_unblocked hj hown
  obtain ⟨m', hm', j', hj', hown'⟩ := hwaits k hk
  exact hfree m' hm' j' hj' hown'

end Disciplined

/-! ## Ordered threads -/

/-- The rest of a thread's call is ordered, from the mutexes `held` on. -/
def OrderedAt (ok : ι → Bool → Prop) (level : μ → L) (held : List μ) :
    Option (κ × Prog ι μ σ Unit) → Prop
  | none => held = []
  | some (_, p) => Ordered ok level p held fun _ held' => held' = []

/-- Every thread owns the mutexes that it has taken one above the other. -/
structure Holds (ok : ι → Bool → Prop) (level : μ → L) (P : Pool ι μ σ κ τ)
    (held : τ → List μ) : Prop where
  owner : ∀ i m, P.owner m = some i ↔ m ∈ held i
  sorted : ∀ i, (held i).Pairwise fun m m' => level m' < level m
  threads : ∀ i, OrderedAt ok level (held i) (P.threads i)

variable {ok : ι → Bool → Prop} {level : μ → L} {P Q : Pool ι μ σ κ τ} {held : τ → List μ}

theorem holds_start (s : σ) : (start s : Pool ι μ σ κ τ).Holds ok level fun _ => [] where
  owner i m := by simp [start]
  sorted _ := List.Pairwise.nil
  threads _ := rfl

/-- What threads hold decides whether they keep the discipline. -/
theorem Holds.disciplined (h : P.Holds ok level held) : P.Disciplined level where
  order := by
    intro i m m' hwaits hown
    have hi := h.threads i
    rw [h.owner] at hown
    cases hwaits with
    | lock hth =>
      rw [hth] at hi
      exact hi.1 m' hown
    | act hth hm =>
      rw [hth] at hi
      exact hi.1 m hm m' hown
  apart := by
    intro i m m' hm hm' hne
    rw [h.owner] at hm hm'
    have hsorted := (h.sorted i).imp (S := fun m m' => level m < level m' ∨ level m' < level m)
      fun hlt => .inr hlt
    have : Std.Symm fun m m' => level m < level m' ∨ level m' < level m := ⟨fun _ _ => Or.symm⟩
    exact hsorted.forall hm hm' hne
  unlock := by
    intro i c m k hth
    have hi := h.threads i
    rw [hth] at hi
    obtain ⟨rest, heq, -⟩ := hi
    rw [h.owner, heq]
    exact List.mem_cons_self
  rest := by
    intro i hrest m
    have hi := h.threads i
    have hnil : held i = [] := by
      cases hrest with
      | idle hth =>
        rw [hth] at hi
        exact hi
      | ret hth =>
        rw [hth] at hi
        exact hi
      | again hth =>
        rw [hth] at hi
        exact hi
      | wait hth hg =>
        rw [hth] at hi
        exact (hi hg).1
    rw [Ne, h.owner, hnil]
    exact List.not_mem_nil

/-! ## Runs -/

section Runs

variable [DecidableEq τ] {code : κ → Prog ι μ σ Unit} {may : τ → κ → Prop} {i : τ}

/-- A step that takes and gives back nothing. -/
theorem Holds.local (h : P.Holds ok level held) {th : Option (κ × Prog ι μ σ Unit)}
    (howner : Q.owner = P.owner) (hth : Q.threads = Function.update P.threads i th)
    (hi : OrderedAt ok level (held i) th) : Q.Holds ok level held where
  owner j m := by
    rw [howner]
    exact h.owner j m
  sorted := h.sorted
  threads j := by
    rw [hth]
    by_cases hj : j = i
    · subst hj
      rw [Function.update_self]
      exact hi
    · rw [Function.update_of_ne hj]
      exact h.threads j

variable [DecidableEq μ] {m : μ} {c : κ} {k : Prog ι μ σ Unit}

/-- A thread takes a mutex above its own. -/
theorem Holds.lock (h : P.Holds ok level held) (hfree : P.owner m = none)
    (habove : Above level m (held i))
    (hi : Ordered ok level k (m :: held i) fun _ held' => held' = []) :
    (({ P with owner := Function.update P.owner m (some i) } : Pool ι μ σ κ τ).go i c k).Holds
      ok level (Function.update held i (m :: held i)) where
  owner j n := by
    change Function.update P.owner m (some i) n = some j ↔ _
    have hfree' : m ∉ held j := fun hm => by
      rw [← h.owner, hfree] at hm
      cases hm
    by_cases hn : n = m <;> by_cases hj : j = i
    · subst hn hj
      simp
    · subst hn
      rw [Function.update_self, Function.update_of_ne hj]
      exact iff_of_false (fun he => hj (Option.some.inj he).symm) hfree'
    · subst hj
      rw [Function.update_of_ne hn, Function.update_self, List.mem_cons, h.owner]
      exact (or_iff_right hn).symm
    · rw [Function.update_of_ne hn, Function.update_of_ne hj]
      exact h.owner j n
  sorted j := by
    by_cases hj : j = i
    · subst hj
      rw [Function.update_self]
      exact (h.sorted j).cons habove
    · rw [Function.update_of_ne hj]
      exact h.sorted j
  threads j := by
    change OrderedAt ok level _ (Function.update P.threads i _ j)
    by_cases hj : j = i
    · subst hj
      rw [Function.update_self, Function.update_self]
      exact hi
    · rw [Function.update_of_ne hj, Function.update_of_ne hj]
      exact h.threads j

/-- A thread gives back the mutex that it took last. -/
theorem Holds.unlock (h : P.Holds ok level held) {rest : List μ} (heq : held i = m :: rest)
    (hi : Ordered ok level k rest fun _ held' => held' = []) :
    (({ P with owner := Function.update P.owner m none } : Pool ι μ σ κ τ).go i c k).Holds
      ok level (Function.update held i rest) where
  owner j n := by
    change Function.update P.owner m none n = some j ↔ _
    have hown : P.owner m = some i := by
      rw [h.owner, heq]
      exact List.mem_cons_self
    have hsorted := h.sorted i
    rw [heq, List.pairwise_cons] at hsorted
    by_cases hn : n = m <;> by_cases hj : j = i
    · subst hn hj
      rw [Function.update_self, Function.update_self]
      exact iff_of_false nofun fun hm => lt_irrefl _ (hsorted.1 n hm)
    · subst hn
      rw [Function.update_self, Function.update_of_ne hj]
      refine iff_of_false nofun fun hm => ?_
      rw [← h.owner, hown] at hm
      exact hj (Option.some.inj hm).symm
    · subst hj
      rw [Function.update_of_ne hn, Function.update_self, h.owner, heq, List.mem_cons]
      exact or_iff_right hn
    · rw [Function.update_of_ne hn, Function.update_of_ne hj]
      exact h.owner j n
  sorted j := by
    by_cases hj : j = i
    · subst hj
      have hsorted := h.sorted j
      rw [heq] at hsorted
      rw [Function.update_self]
      exact hsorted.of_cons
    · rw [Function.update_of_ne hj]
      exact h.sorted j
  threads j := by
    change OrderedAt ok level _ (Function.update P.threads i _ j)
    by_cases hj : j = i
    · subst hj
      rw [Function.update_self, Function.update_self]
      exact hi
    · rw [Function.update_of_ne hj, Function.update_of_ne hj]
      exact h.threads j

/-- A step of a thread keeps all threads to what they hold. -/
theorem Holds.step (hcode : ∀ c, Balanced ok level (code c) [])
    (h : P.Holds ok level held) (hs : Step code may ok i P Q) :
    ∃ held', Q.Holds ok level held' := by
  have hi := h.threads i
  cases hs with
  | call hidle hmay =>
    rw [hidle] at hi
    exact ⟨held, h.local rfl rfl (hi ▸ hcode _)⟩
  | ret hth =>
    rw [hth] at hi
    exact ⟨held, h.local rfl rfl hi⟩
  | act hth hfree =>
    rw [hth] at hi
    exact ⟨held, h.local rfl rfl (hi.2 _)⟩
  | ask hth hb =>
    rw [hth] at hi
    exact ⟨held, h.local rfl rfl (hi _ hb)⟩
  | lock hth hfree =>
    rw [hth] at hi
    exact ⟨_, h.lock hfree hi.1 hi.2⟩
  | unlock hth hown =>
    rw [hth] at hi
    obtain ⟨rest, heq, hrest⟩ := hi
    exact ⟨_, h.unlock heq hrest⟩
  | wait hth hg =>
    rw [hth] at hi
    exact ⟨held, h.local rfl rfl (hi ⟨_, hg⟩).2⟩
  | again hth =>
    rw [hth] at hi
    exact ⟨held, h.local rfl rfl (hi ▸ hcode _)⟩

/-- The pools that a schedule of the threads may lead to. -/
inductive Reachable (code : κ → Prog ι μ σ Unit) (may : τ → κ → Prop) (ok : ι → Bool → Prop)
    (s : σ) : Pool ι μ σ κ τ → Prop where
  | start : Reachable code may ok s (start s)
  | step {P Q : Pool ι μ σ κ τ} {i : τ} (h : Reachable code may ok s P)
      (hs : Step code may ok i P Q) : Reachable code may ok s Q

/-- Threads whose calls are ordered keep the discipline. -/
theorem Reachable.disciplined (hcode : ∀ c, Balanced ok level (code c) []) {s : σ}
    (h : Reachable code may ok s P) : P.Disciplined level := by
  have hholds : ∃ held, P.Holds ok level held := by
    induction h with
    | start => exact ⟨_, holds_start s⟩
    | step h hs ih =>
      obtain ⟨held, hheld⟩ := ih
      exact hheld.step hcode hs
  obtain ⟨held, hheld⟩ := hholds
  exact hheld.disciplined

/-- A schedule leads to a reachable pool. -/
theorem Reachable.play [∀ i c, Decidable (may i c)] (hok : ∀ q, ok q true)
    {check : τ → σ → σ → Bool} (hcheck : ∀ i s, check i s s = true) {s : σ}
    {schedule : List (τ × Option κ)} (h : Pool.play code may check schedule (Pool.start s) = some P) :
    Reachable code may ok s P :=
  play_keeps hok hcheck (fun _ _ _ hP hs _ => hP.step hs) .start h

end Runs

end Pool

end Core
