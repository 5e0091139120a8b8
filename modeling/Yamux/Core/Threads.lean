import Yamux.Core.Triples

/-!
# Threads over a shared state

A pool of threads that make calls one after the other. A step of the pool is one
atomic action of one thread, and the mutexes that it names must be free. A thread is
verified against its own environment; where what each thread guarantees is what the
others rely on, every schedule keeps the promises.
-/

namespace Core

/-- Threads over a state, with the owners of the mutexes that are held between
actions. A thread is idle, or it is in a call with the rest of its program. -/
structure Pool (ι μ σ κ τ : Type) where
  state : σ
  owner : μ → Option τ
  threads : τ → Option (κ × Prog ι μ σ Unit)

namespace Pool

variable {ι μ σ κ τ : Type}

/-- All threads idle and all mutexes free. -/
def start (s : σ) : Pool ι μ σ κ τ where
  state := s
  owner _ := none
  threads _ := none

/-- No call is in progress. -/
def Quiescent (P : Pool ι μ σ κ τ) : Prop := ∀ i, P.threads i = none

/-! ## Rely and guarantee -/

variable {code : κ → Prog ι μ σ Unit} {may : τ → κ → Prop} {ok : ι → Bool → Prop}

/-- A proof of each thread on its own, where a call `c` runs `code c`, thread `i` makes
the calls `may i`, and the environment gives the answers `ok`. Between calls thread `i`
has `idle i`, which the others keep, and its calls restore it. The steps of the others
that meet `cond` are among those that a thread relies on. -/
structure Proof (code : κ → Prog ι μ σ Unit) (may : τ → κ → Prop) (ok : ι → Bool → Prop)
    (cond : τ → σ → σ → Prop) where
  env : τ → Env ι σ
  idle : τ → σ → Prop
  answers : ∀ i c b, ok c b → (env i).answers c b
  stable : ∀ i, (env i).Stable (idle i)
  compatible : ∀ {i j s t}, i ≠ j → (env i).guar s t → cond i s t → (env j).rely s t
  call : ∀ {i c}, may i c → (env i).Triple (idle i) (idle i) (code c) fun _ => idle i

namespace Proof

variable {cond : τ → σ → σ → Prop} (H : Proof code may ok cond)

/-- What the proof says of a thread in a state of the pool. -/
def Thread (i : τ) (s : σ) : Option (κ × Prog ι μ σ Unit) → Prop
  | none => H.idle i s
  | some (c, p) => may i c ∧ (H.env i).wp p (Env.ending (H.idle i) fun _ => H.idle i) s

/-- What the proof says of a pool. -/
def Holds (P : Pool ι μ σ κ τ) : Prop := ∀ i, H.Thread i P.state (P.threads i)

variable {H}

/-- What others do leaves a thread where it was. -/
theorem Thread.rely {i : τ} {s t : σ} {th : Option (κ × Prog ι μ σ Unit)} (h : H.Thread i s th)
    (hr : (H.env i).rely s t) : H.Thread i t th := by
  cases th with
  | none => exact H.stable i s t h hr
  | some th => exact ⟨h.1, (H.env i).wp_rely h.2 hr⟩

/-- The start of a run. -/
theorem holds_start {s : σ} (h : ∀ i, H.idle i s) : H.Holds (start s : Pool ι μ σ κ τ) := h

/-- Between calls every thread has what it has when idle. -/
theorem Holds.quiescent {P : Pool ι μ σ κ τ} (h : H.Holds P) (hq : P.Quiescent) (i : τ) :
    H.idle i P.state := by
  have hi := h i
  rwa [hq i] at hi

end Proof

/-! ## Steps -/

variable [DecidableEq τ]

/-- Thread `i` goes on with `p` in its call `c`. -/
def go (P : Pool ι μ σ κ τ) (i : τ) (c : κ) (p : Prog ι μ σ Unit) : Pool ι μ σ κ τ :=
  { P with threads := Function.update P.threads i (some (c, p)) }

/-- Thread `i` is done with its call. -/
def leave (P : Pool ι μ σ κ τ) (i : τ) : Pool ι μ σ κ τ :=
  { P with threads := Function.update P.threads i none }

/-- One step of thread `i`. -/
inductive Step [DecidableEq μ] (code : κ → Prog ι μ σ Unit) (may : τ → κ → Prop)
    (ok : ι → Bool → Prop) (i : τ) :
    Pool ι μ σ κ τ → Pool ι μ σ κ τ → Prop where
  | call {P : Pool ι μ σ κ τ} {c : κ} (h : P.threads i = none) (hmay : may i c) :
      Step code may ok i P (P.go i c (code c))
  | ret {P : Pool ι μ σ κ τ} {c : κ} {u : Unit} (h : P.threads i = some (c, .ret u)) :
      Step code may ok i P (P.leave i)
  | act {P : Pool ι μ σ κ τ} {c : κ} {ms : List μ} {f : σ → σ} {k : σ → Prog ι μ σ Unit}
      (h : P.threads i = some (c, .act ms f k)) (hfree : ∀ m ∈ ms, P.owner m = none) :
      Step code may ok i P (({ P with state := f P.state } : Pool ι μ σ κ τ).go i c (k P.state))
  | ask {P : Pool ι μ σ κ τ} {c : κ} {q : ι} {k : Bool → Prog ι μ σ Unit} {b : Bool}
      (h : P.threads i = some (c, .ask q k)) (hb : ok q b) : Step code may ok i P (P.go i c (k b))
  | lock {P : Pool ι μ σ κ τ} {c : κ} {m : μ} {k : Prog ι μ σ Unit}
      (h : P.threads i = some (c, .lock m k)) (hfree : P.owner m = none) :
      Step code may ok i P
        (({ P with owner := Function.update P.owner m (some i) } : Pool ι μ σ κ τ).go i c k)
  | unlock {P : Pool ι μ σ κ τ} {c : κ} {m : μ} {k : Prog ι μ σ Unit}
      (h : P.threads i = some (c, .unlock m k)) (hown : P.owner m = some i) :
      Step code may ok i P
        (({ P with owner := Function.update P.owner m none } : Pool ι μ σ κ τ).go i c k)
  | wait {P : Pool ι μ σ κ τ} {c : κ} {g : σ → Bool} {k : Prog ι μ σ Unit}
      (h : P.threads i = some (c, .wait g k)) (hg : g P.state = true) :
      Step code may ok i P (P.go i c k)
  | again {P : Pool ι μ σ κ τ} {c : κ} (h : P.threads i = some (c, .again)) :
      Step code may ok i P (P.go i c (code c))

/-- A step of one thread leaves the other threads where they were. -/
theorem Step.others [DecidableEq μ] {P Q : Pool ι μ σ κ τ} {i j : τ}
    (hs : Step code may ok i P Q) (hj : j ≠ i) : Q.threads j = P.threads j := by
  cases hs <;> exact Function.update_of_ne hj _ _

namespace Proof

variable {cond : τ → σ → σ → Prop} {H : Proof code may ok cond}

/-- A step of thread `i` which only that thread notices. -/
theorem Holds.local {P Q : Pool ι μ σ κ τ} {i : τ} {th : Option (κ × Prog ι μ σ Unit)}
    (h : H.Holds P) (hs : Q.state = P.state) (hth : Q.threads = Function.update P.threads i th)
    (hi : H.Thread i P.state th) : H.Holds Q := by
  intro j
  rw [hs, hth]
  by_cases hj : j = i
  · subst hj
    rw [Function.update_self]
    exact hi
  · rw [Function.update_of_ne hj]
    exact h j

/-- A step that changes the state is one that its thread guarantees. -/
theorem Holds.guar [DecidableEq μ] {P Q : Pool ι μ σ κ τ} {i : τ} (h : H.Holds P)
    (hs : Step code may ok i P Q) : Q.state = P.state ∨ (H.env i).guar P.state Q.state := by
  have hi := h i
  cases hs with
  | act hth hfree =>
    rw [hth] at hi
    exact .inr (hi.2 _ ((H.env i).rely_refl _)).1
  | call | ret | ask | lock | unlock | wait | again => exact .inl rfl

/-- A step keeps what the proof says, if it meets the condition. -/
theorem Holds.step [DecidableEq μ] {P Q : Pool ι μ σ κ τ} {i : τ} (h : H.Holds P)
    (hs : Step code may ok i P Q) (hc : cond i P.state Q.state) : H.Holds Q := by
  have hi := h i
  cases hs with
  | call hidle hmay =>
    rw [hidle] at hi
    exact h.local rfl rfl ⟨hmay, H.call hmay _ hi⟩
  | ret hth =>
    rw [hth] at hi
    exact h.local rfl rfl (hi.2 _ ((H.env i).rely_refl _))
  | ask hth hb =>
    rw [hth] at hi
    exact h.local rfl rfl ⟨hi.1, hi.2 _ (H.answers _ _ _ hb)⟩
  | lock hth hfree =>
    rw [hth] at hi
    exact h.local rfl rfl hi
  | unlock hth hown =>
    rw [hth] at hi
    exact h.local rfl rfl hi
  | wait hth hg =>
    rw [hth] at hi
    have hk := hi.2 _ ((H.env i).rely_refl _)
    rw [if_pos hg] at hk
    exact h.local rfl rfl ⟨hi.1, hk⟩
  | again hth =>
    rw [hth] at hi
    exact h.local rfl rfl ⟨hi.1, H.call hi.1 _ (hi.2 _ ((H.env i).rely_refl _))⟩
  | @act c ms f k hth hfree =>
    rw [hth] at hi
    obtain ⟨hguar, hk⟩ := hi.2 _ ((H.env i).rely_refl _)
    intro j
    by_cases hj : j = i
    · subst hj
      change H.Thread j (f P.state) (Function.update P.threads j _ j)
      rw [Function.update_self]
      exact ⟨hi.1, hk⟩
    · change H.Thread j (f P.state) (Function.update P.threads i _ j)
      rw [Function.update_of_ne hj]
      exact (h j).rely (H.compatible (Ne.symm hj) hguar hc)

end Proof

/-! ## Schedules -/

/-- The next step of thread `i`, every question being answered yes. -/
def advance [DecidableEq μ] (code : κ → Prog ι μ σ Unit) (P : Pool ι μ σ κ τ) (i : τ) :
    Option (Pool ι μ σ κ τ) :=
  match P.threads i with
  | none => none
  | some (c, p) =>
    match p with
    | .ret _ => some (P.leave i)
    | .act ms f k =>
      if ∀ m ∈ ms, P.owner m = none then
        some (({ P with state := f P.state } : Pool ι μ σ κ τ).go i c (k P.state))
      else none
    | .ask _ k => some (P.go i c (k true))
    | .lock m k =>
      if P.owner m = none then
        some (({ P with owner := Function.update P.owner m (some i) } : Pool ι μ σ κ τ).go i c k)
      else none
    | .unlock m k =>
      if P.owner m = some i then
        some (({ P with owner := Function.update P.owner m none } : Pool ι μ σ κ τ).go i c k)
      else none
    | .wait g k => if g P.state then some (P.go i c k) else none
    | .again => some (P.go i c (code c))
    | .abort => none

theorem advance_step [DecidableEq μ] (hok : ∀ q, ok q true) {P Q : Pool ι μ σ κ τ} {i : τ}
    (h : P.advance code i = some Q) : Step code may ok i P Q := by
  unfold advance at h
  cases hth : P.threads i with
  | none =>
    rw [hth] at h
    cases h
  | some cp =>
    obtain ⟨c, p⟩ := cp
    rw [hth] at h
    cases p with
    | ret u =>
      cases h
      exact .ret hth
    | act ms f k =>
      dsimp only at h
      split at h
      · cases h
        exact .act hth ‹_›
      · cases h
    | ask q k =>
      cases h
      exact .ask hth (hok q)
    | lock m k =>
      dsimp only at h
      split at h
      · cases h
        exact .lock hth ‹_›
      · cases h
    | unlock m k =>
      dsimp only at h
      split at h
      · cases h
        exact .unlock hth ‹_›
      · cases h
    | wait g k =>
      dsimp only at h
      split at h
      · cases h
        exact .wait hth ‹_›
      · cases h
    | again =>
      cases h
      exact .again hth
    | abort => cases h

/-- Play a schedule: a thread begins a call, or takes its next step. Every step has to
pass the check. -/
def play [DecidableEq μ] (code : κ → Prog ι μ σ Unit) (may : τ → κ → Prop)
    [∀ i c, Decidable (may i c)] (check : τ → σ → σ → Bool) :
    List (τ × Option κ) → Pool ι μ σ κ τ → Option (Pool ι μ σ κ τ)
  | [], P => some P
  | (i, some c) :: rest, P =>
    if (P.threads i).isNone ∧ may i c then play code may check rest (P.go i c (code c)) else none
  | (i, none) :: rest, P =>
    match P.advance code i with
    | none => none
    | some Q => if check i P.state Q.state then play code may check rest Q else none

/-- Thread `i` begins a call and takes its first `n` steps. -/
def begins (i : τ) (c : κ) (n : Nat) : List (τ × Option κ) :=
  (i, some c) :: List.replicate n (i, none)

/-- What every step keeps holds where a schedule leads to. -/
theorem play_keeps [DecidableEq μ] [∀ i c, Decidable (may i c)] {check : τ → σ → σ → Bool}
    {R : Pool ι μ σ κ τ → Prop} (hok : ∀ q, ok q true) (hcheck : ∀ i s, check i s s = true)
    (hR : ∀ P Q i, R P → Step code may ok i P Q → check i P.state Q.state = true → R Q)
    {schedule : List (τ × Option κ)} {P Q : Pool ι μ σ κ τ} (hP : R P)
    (h : play code may check schedule P = some Q) : R Q := by
  induction schedule generalizing P with
  | nil =>
    cases h
    exact hP
  | cons entry rest ih =>
    obtain ⟨i, _ | c⟩ := entry
    · rw [play] at h
      split at h
      · cases h
      · rename_i P' hP'
        split at h
        · exact ih (hR P P' i hP (advance_step hok hP') ‹_›) h
        · cases h
    · rw [play] at h
      split at h
      · rename_i hc
        exact ih (hR P _ i hP (.call (Option.isNone_iff_eq_none.mp hc.1) hc.2) (hcheck i _)) h
      · cases h

end Pool

end Core
