import Yamux.Core.Threads

/-!
# Threads whose sections are tracked

`Tracks ok T p g Q` says that `p`, in the local state `g`, moves on by `T` with every
section that it enters and every mutex that it takes or gives back, and returns in `Q`.
Unlike a relation between states alone, `T` sees which mutexes a section needs, so it can
tell apart sections that only read. In a pool every thread has a local state of its own,
which is the first one whenever a call begins.
-/

namespace Core

variable {ι μ σ γ α β : Type}

/-- What others may notice of a thread: a section, with the mutexes that it needs, and the
mutexes that are held between sections. -/
inductive Event (μ σ : Type) where
  | crit (ms : List μ) (s t : σ)
  | lock (m : μ)
  | unlock (m : μ)

/-- How a local state moves on, where a call may end or start over, and where an assertion
may fail. -/
structure Track (μ σ γ : Type) where
  moves : γ → Event μ σ → γ → Prop
  ends : γ → Prop
  fails : γ → Prop

/-- Every event of the program goes by `T`, from the local state `g` on. -/
def Tracks (ok : ι → Bool → Prop) (T : Track μ σ γ) :
    Prog ι μ σ α → γ → (α → γ → Prop) → Prop
  | .ret a, g, Q => Q a g
  | .act ms f k, g, Q => ∀ s, ∃ g', T.moves g (.crit ms s (f s)) g' ∧ Tracks ok T (k s) g' Q
  | .ask c k, g, Q => ∀ b, ok c b → Tracks ok T (k b) g Q
  | .lock m k, g, Q => ∃ g', T.moves g (.lock m) g' ∧ Tracks ok T k g' Q
  | .unlock m k, g, Q => ∃ g', T.moves g (.unlock m) g' ∧ Tracks ok T k g' Q
  | .wait _ k, g, Q => Tracks ok T k g Q
  | .again, g, _ => T.ends g
  | .abort, g, _ => T.fails g

namespace Tracks

variable {ok : ι → Bool → Prop} {T : Track μ σ γ} {g g' : γ} {Q : α → γ → Prop}

theorem mono {Q' : α → γ → Prop} {p : Prog ι μ σ α} (h : Tracks ok T p g Q)
    (hQ : ∀ a g, Q a g → Q' a g) : Tracks ok T p g Q' := by
  induction p generalizing g with
  | ret a => exact hQ a g h
  | act ms f k ih =>
    intro s
    obtain ⟨g', hmove, hrest⟩ := h s
    exact ⟨g', hmove, ih s hrest⟩
  | ask c k ih => exact fun b hb => ih b (h b hb)
  | lock m k ih | unlock m k ih =>
    obtain ⟨g', hmove, hrest⟩ := h
    exact ⟨g', hmove, ih hrest⟩
  | wait c k ih => exact ih h
  | again | abort => exact h

theorem bind {p : Prog ι μ σ α} {k : α → Prog ι μ σ β} {Q' : β → γ → Prop}
    (hp : Tracks ok T p g Q) (hk : ∀ a g', Q a g' → Tracks ok T (k a) g' Q') :
    Tracks ok T (p >>= k) g Q' := by
  rw [Prog.bind_eq]
  induction p generalizing g with
  | ret a => exact hk a g hp
  | act ms f k ih =>
    intro s
    obtain ⟨g', hmove, hrest⟩ := hp s
    exact ⟨g', hmove, ih s hrest⟩
  | ask c k ih => exact fun b hb => ih b (hp b hb)
  | lock m k ih | unlock m k ih =>
    obtain ⟨g', hmove, hrest⟩ := hp
    exact ⟨g', hmove, ih hrest⟩
  | wait c k ih => exact ih hp
  | again | abort => exact hp

/-- Sequential composition, backwards. -/
theorem seq {p : Prog ι μ σ α} {k : α → Prog ι μ σ β} {Q' : β → γ → Prop}
    (h : Tracks ok T p g fun a g' => Tracks ok T (k a) g' Q') : Tracks ok T (p >>= k) g Q' :=
  h.bind fun _ _ hk => hk

theorem pure {a : α} (h : Q a g) : Tracks ok T (Pure.pure a : Prog ι μ σ α) g Q := h

theorem crit {ms : List μ} {f : σ → α × σ}
    (h : ∀ s, ∃ g', T.moves g (.crit ms s (f s).2) g' ∧ Q (f s).1 g') :
    Tracks ok T (Prog.crit ms f : Prog ι μ σ α) g Q := h

theorem query {c : ι} {Q : Bool → γ → Prop} (h : ∀ b, ok c b → Q b g) :
    Tracks ok T (Prog.query c : Prog ι μ σ Bool) g Q := h

theorem await {c : σ → Bool} {Q : Unit → γ → Prop} (h : Q () g) :
    Tracks ok T (Prog.await c : Prog ι μ σ Unit) g Q := h

theorem check {b : Bool} {Q : Unit → γ → Prop} (hyes : b = true → Q () g)
    (hno : b = false → T.fails g) : Tracks ok T (Prog.check b : Prog ι μ σ Unit) g Q := by
  cases b with
  | true => exact hyes rfl
  | false => exact hno rfl

theorem acquire {m : μ} {Q : Unit → γ → Prop} (hm : T.moves g (.lock m) g') (h : Q () g') :
    Tracks ok T (Prog.acquire m : Prog ι μ σ Unit) g Q := ⟨g', hm, h⟩

theorem release {m : μ} {Q : Unit → γ → Prop} (hm : T.moves g (.unlock m) g') (h : Q () g') :
    Tracks ok T (Prog.release m : Prog ι μ σ Unit) g Q := ⟨g', hm, h⟩

theorem again (h : T.ends g) : Tracks ok T (Prog.again : Prog ι μ σ α) g Q := h

/-- A loop whose rounds keep `I`. -/
theorem loop {body : Prog ι μ σ (Option α)} {I : γ → Prop}
    (h : ∀ g, I g → Tracks ok T body g fun o g' => match o with
      | none => I g'
      | some a => Q a g')
    (hends : ∀ g, I g → T.ends g) (hg : I g) (n : Nat) :
    Tracks ok T (Prog.loop n body) g Q := by
  induction n generalizing g with
  | zero => exact hends g hg
  | succ n ih =>
    refine (h g hg).bind fun o g' ho => ?_
    cases o with
    | none => exact ih ho
    | some a => exact ho

/-- A track that is part of another one. -/
theorem map {γ' : Type} {T' : Track μ σ γ'} {φ : γ → γ'} {p : Prog ι μ σ α}
    (h : Tracks ok T p g Q) (hmoves : ∀ g e g', T.moves g e g' → T'.moves (φ g) e (φ g'))
    (hends : ∀ g, T.ends g → T'.ends (φ g)) (hfails : ∀ g, T.fails g → T'.fails (φ g)) :
    Tracks ok T' p (φ g) fun a g' => ∃ h, g' = φ h ∧ Q a h := by
  induction p generalizing g with
  | ret a => exact ⟨g, rfl, h⟩
  | act ms f k ih =>
    intro s
    obtain ⟨g', hmove, hrest⟩ := h s
    exact ⟨φ g', hmoves _ _ _ hmove, ih s hrest⟩
  | ask c k ih => exact fun b hb => ih b (h b hb)
  | lock m k ih | unlock m k ih =>
    obtain ⟨g', hmove, hrest⟩ := h
    exact ⟨φ g', hmoves _ _ _ hmove, ih hrest⟩
  | wait c k ih => exact ih h
  | again => exact hends g h
  | abort => exact hfails g h

/-- Events that stay in the local state. -/
theorem acts {S : σ → σ → Prop} {p : Prog ι μ σ α} (hp : Acts ok S p)
    (hcrit : ∀ ms s t, S s t → T.moves g (.crit ms s t) g)
    (hlock : ∀ m, T.moves g (.lock m) g) (hunlock : ∀ m, T.moves g (.unlock m) g)
    (hends : T.ends g) (hfails : T.fails g) (hQ : ∀ a, Q a g) : Tracks ok T p g Q := by
  induction p with
  | ret a => exact hQ a
  | act ms f k ih => exact fun s => ⟨g, hcrit ms _ _ (hp s).1, ih s (hp s).2⟩
  | ask c k ih => exact fun b hb => ih b (hp b hb)
  | lock m k ih => exact ⟨g, hlock m, ih hp⟩
  | unlock m k ih => exact ⟨g, hunlock m, ih hp⟩
  | wait c k ih => exact ih hp
  | again => exact hends
  | abort => exact hfails

/-- What all events of a track do, all actions do. -/
theorem toActs {S : σ → σ → Prop} {p : Prog ι μ σ α} (h : Tracks ok T p g Q)
    (hS : ∀ g ms s t g', T.moves g (.crit ms s t) g' → S s t) : Acts ok S p := by
  induction p generalizing g with
  | ret | again | abort => trivial
  | act ms f k ih =>
    intro s
    obtain ⟨g', hmove, hrest⟩ := h s
    exact ⟨hS _ _ _ _ _ hmove, ih s hrest⟩
  | ask c k ih => exact fun b hb => ih b (h b hb)
  | lock m k ih | unlock m k ih =>
    obtain ⟨g', -, hrest⟩ := h
    exact ih hrest
  | wait c k ih => exact ih h

end Tracks

namespace Pool

variable {κ τ : Type}

/-- The event of the next step of a thread, which leads to the pool `Q`, with its call. -/
def event (P : Pool ι μ σ κ τ) (i : τ) (Q : Pool ι μ σ κ τ) : Option (κ × Event μ σ) :=
  match P.threads i with
  | some (c, .act ms _ _) => some (c, .crit ms P.state Q.state)
  | some (c, .lock m _) => some (c, .lock m)
  | some (c, .unlock m _) => some (c, .unlock m)
  | _ => none

/-- The next step of the thread begins a call, ends one or starts it over. -/
def turns (P : Pool ι μ σ κ τ) (i : τ) : Bool :=
  match P.threads i with
  | none => true
  | some (_, .ret _) => true
  | some (_, .again) => true
  | _ => false

variable {code : κ → Prog ι μ σ Unit} {may : τ → κ → Prop} {ok : ι → Bool → Prop}
  {T : κ → Track μ σ γ} {g₀ : γ}

/-- Thread `i` goes by the track of its call, from its local state on. -/
def TrackedAt (may : τ → κ → Prop) (ok : ι → Bool → Prop) (T : κ → Track μ σ γ) (g₀ : γ)
    (i : τ) (g : γ) : Option (κ × Prog ι μ σ Unit) → Prop
  | none => g = g₀
  | some (c, p) => may i c ∧ Tracks ok (T c) p g fun _ => (T c).ends

/-- Every thread goes by the track of its call. -/
def Tracked (may : τ → κ → Prop) (ok : ι → Bool → Prop) (T : κ → Track μ σ γ) (g₀ : γ)
    (P : Pool ι μ σ κ τ) (g : τ → γ) : Prop :=
  ∀ i, TrackedAt may ok T g₀ i (g i) (P.threads i)

theorem tracked_start (s : σ) :
    Tracked may ok T g₀ (start s : Pool ι μ σ κ τ) fun _ => g₀ := fun _ => rfl

/-- An assertion fails where the track of the call allows it only. -/
theorem Tracked.abort {P : Pool ι μ σ κ τ} {g : τ → γ} (h : Tracked may ok T g₀ P g) {i : τ}
    {c : κ} (hi : P.threads i = some (c, .abort)) : (T c).fails (g i) := by
  have hg := h i
  rw [hi] at hg
  exact hg.2

variable [DecidableEq τ]

theorem Tracked.update {P Q : Pool ι μ σ κ τ} {g : τ → γ} (h : Tracked may ok T g₀ P g) {i : τ}
    {th : Option (κ × Prog ι μ σ Unit)} {g' : γ}
    (hth : Q.threads = Function.update P.threads i th) (hi : TrackedAt may ok T g₀ i g' th) :
    Tracked may ok T g₀ Q (Function.update g i g') := by
  intro j
  rw [hth]
  by_cases hj : j = i
  · subst hj
    rw [Function.update_self, Function.update_self]
    exact hi
  · rw [Function.update_of_ne hj, Function.update_of_ne hj]
    exact h j

/-- What a step of thread `i` does: it moves the local state of the thread by an event, or
it changes nothing but that a call begins, ends or starts over in the first local state. -/
inductive Tracking (may : τ → κ → Prop) (ok : ι → Bool → Prop) (T : κ → Track μ σ γ) (g₀ : γ)
    (i : τ) (g : τ → γ) (P Q : Pool ι μ σ κ τ) : Prop where
  | moves {c : κ} {e : Event μ σ} {g' : γ} (hevent : P.event i Q = some (c, e))
      (hturns : P.turns i = false) (hmay : may i c)
      (hlock : (∀ ms s t, e ≠ .crit ms s t) → Q.state = P.state)
      (hmoves : (T c).moves (g i) e g') (h : Tracked may ok T g₀ Q (Function.update g i g'))
  | turns (hevent : P.event i Q = none) (hturns : P.turns i = true) (hstate : Q.state = P.state)
      (hends : g i = g₀ ∨ ∃ c, may i c ∧ (T c).ends (g i))
      (h : Tracked may ok T g₀ Q (Function.update g i g₀))
  | rests (hevent : P.event i Q = none) (hturns : P.turns i = false) (hstate : Q.state = P.state)
      (h : Tracked may ok T g₀ Q g)

theorem Tracked.step [DecidableEq μ] {P Q : Pool ι μ σ κ τ} {g : τ → γ} {i : τ}
    (hcode : ∀ c, may i c → Tracks ok (T c) (code c) g₀ fun _ => (T c).ends)
    (h : Tracked may ok T g₀ P g) (hs : Step code may ok i P Q) :
    Tracking may ok T g₀ i g P Q := by
  have hi := h i
  cases hs with
  | @call c hidle hmay =>
    rw [hidle] at hi
    refine .turns ?_ ?_ rfl (.inl hi) (h.update rfl ⟨hmay, hcode c hmay⟩)
    · rw [event, hidle]
    · rw [turns, hidle]
  | @ret c u hth =>
    rw [hth] at hi
    refine .turns ?_ ?_ rfl (.inr ⟨c, hi⟩) (h.update rfl rfl)
    · rw [event, hth]
    · rw [turns, hth]
  | @again c hth =>
    rw [hth] at hi
    refine .turns ?_ ?_ rfl (.inr ⟨c, hi⟩) (h.update rfl ⟨hi.1, hcode c hi.1⟩)
    · rw [event, hth]
    · rw [turns, hth]
  | @act c ms f k hth hfree =>
    rw [hth] at hi
    obtain ⟨g', hmoves, hrest⟩ := hi.2 P.state
    refine .moves (c := c) (e := .crit ms P.state (f P.state)) ?_ ?_ hi.1 ?_ hmoves
      (h.update rfl ⟨hi.1, hrest⟩)
    · rw [event, hth]
      rfl
    · rw [turns, hth]
    · intro he
      exact absurd rfl (he _ _ _)
  | @lock c m k hth hfree =>
    rw [hth] at hi
    obtain ⟨g', hmoves, hrest⟩ := hi.2
    refine .moves (c := c) (e := .lock m) ?_ ?_ hi.1 (fun _ => rfl) hmoves
      (h.update rfl ⟨hi.1, hrest⟩)
    · rw [event, hth]
    · rw [turns, hth]
  | @unlock c m k hth hown =>
    rw [hth] at hi
    obtain ⟨g', hmoves, hrest⟩ := hi.2
    refine .moves (c := c) (e := .unlock m) ?_ ?_ hi.1 (fun _ => rfl) hmoves
      (h.update rfl ⟨hi.1, hrest⟩)
    · rw [event, hth]
    · rw [turns, hth]
  | @ask c q k b hth hb =>
    rw [hth] at hi
    refine .rests ?_ ?_ rfl ?_
    · rw [event, hth]
    · rw [turns, hth]
    · have hupdate := h.update (Q := P.go i c (k b)) rfl ⟨hi.1, hi.2 b hb⟩
      rwa [Function.update_eq_self] at hupdate
  | @wait c w k hth hg =>
    rw [hth] at hi
    refine .rests ?_ ?_ rfl ?_
    · rw [event, hth]
    · rw [turns, hth]
    · have hupdate := h.update (Q := P.go i c k) rfl ⟨hi.1, hi.2⟩
      rwa [Function.update_eq_self] at hupdate

end Pool

end Core
