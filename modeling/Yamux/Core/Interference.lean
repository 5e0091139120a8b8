import Yamux.Core.Prog

/-!
# Preconditions under interference

`Env.wp p Q s` says that `p`, started in `s`, keeps every promise of the
environment record and ends in `Q`, whatever the neighbours do between its
actions within the rely relation and however its calls are answered within the
allowed answers. With no neighbours it is the weakest precondition of `run`.
-/

namespace Core

/-- What surrounds a program: the answers its calls may get, what the others may
do to the state between two actions, and what each of its own actions promises. -/
structure Env (ι σ : Type) where
  answers : ι → Bool → Prop
  rely : σ → σ → Prop
  guar : σ → σ → Prop
  rely_refl : ∀ s, rely s s
  rely_trans : ∀ {a b c}, rely a b → rely b c → rely a c

namespace Env

variable {ι μ σ α β : Type}

/-- No neighbours and nothing promised. -/
def alone (answers : ι → Bool → Prop) : Env ι σ where
  answers := answers
  rely a b := a = b
  guar _ _ := True
  rely_refl _ := rfl
  rely_trans := Eq.trans

variable (E : Env ι σ)

/-- The weakest precondition of a program under interference. -/
def wp : Prog ι μ σ α → (Outcome α → σ → Prop) → σ → Prop
  | .ret a, Q, s => ∀ t, E.rely s t → Q (.ret a) t
  | .act _ f k, Q, s => ∀ t, E.rely s t → E.guar t (f t) ∧ wp (k t) Q (f t)
  | .ask c k, Q, s => ∀ b, E.answers c b → wp (k b) Q s
  | .lock _ k, Q, s => wp k Q s
  | .unlock _ k, Q, s => wp k Q s
  | .wait c k, Q, s => ∀ t, E.rely s t → if c t then wp k Q t else Q .hang t
  | .again, Q, s => ∀ t, E.rely s t → Q .hang t
  | .abort, Q, s => ∀ t, E.rely s t → Q .abort t

/-- A precondition survives whatever the neighbours do. -/
theorem wp_rely {p : Prog ι μ σ α} {Q : Outcome α → σ → Prop} {s t : σ}
    (h : E.wp p Q s) (hr : E.rely s t) : E.wp p Q t := by
  induction p generalizing s t with
  | ret | again | abort => exact fun u hu => h u (E.rely_trans hr hu)
  | act ms f k _ => exact fun u hu => h u (E.rely_trans hr hu)
  | ask c k ih => exact fun b hb => ih b (h b hb) hr
  | lock m k ih | unlock m k ih => exact ih h hr
  | wait c k _ => exact fun u hu => h u (E.rely_trans hr hu)

theorem wp_mono {p : Prog ι μ σ α} {Q R : Outcome α → σ → Prop} {s : σ}
    (h : E.wp p Q s) (hQ : ∀ o t, Q o t → R o t) : E.wp p R s := by
  induction p generalizing s with
  | ret | again | abort => exact fun t ht => hQ _ t (h t ht)
  | act ms f k ih => exact fun t ht => ⟨(h t ht).1, ih t (h t ht).2⟩
  | ask c k ih => exact fun b hb => ih b (h b hb)
  | lock m k ih | unlock m k ih => exact ih h
  | wait c k ih =>
    intro t ht
    have := h t ht
    split at this
    · rename_i hc
      rw [if_pos hc]
      exact ih this
    · rename_i hc
      rw [if_neg hc]
      exact hQ _ t this

/-- What a first program must end in for a second one to go on from there. -/
def post (g : α → Prog ι μ σ β) (Q : Outcome β → σ → Prop) : Outcome α → σ → Prop
  | .ret a, s => E.wp (g a) Q s
  | .abort, s => Q .abort s
  | .hang, s => Q .hang s

@[simp] theorem post_ret (g : α → Prog ι μ σ β) (Q : Outcome β → σ → Prop) (a : α) (s : σ) :
    E.post g Q (.ret a) s = E.wp (g a) Q s := rfl

@[simp] theorem post_abort (g : α → Prog ι μ σ β) (Q : Outcome β → σ → Prop) (s : σ) :
    E.post g Q .abort s = Q .abort s := rfl

@[simp] theorem post_hang (g : α → Prog ι μ σ β) (Q : Outcome β → σ → Prop) (s : σ) :
    E.post g Q .hang s = Q .hang s := rfl

/-- Sequential composition. -/
@[simp] theorem wp_bind {p : Prog ι μ σ α} {g : α → Prog ι μ σ β} {Q : Outcome β → σ → Prop}
    {s : σ} : E.wp (p >>= g) Q s ↔ E.wp p (E.post g Q) s := by
  rw [Prog.bind_eq]
  induction p generalizing s with
  | ret a => exact ⟨fun h t ht => E.wp_rely h ht, fun h => h s (E.rely_refl s)⟩
  | again | abort => rfl
  | act ms f k ih => simp only [Prog.bind, wp, ih]
  | ask c k ih => simp only [Prog.bind, wp, ih]
  | lock m k ih | unlock m k ih => simp only [Prog.bind, wp, ih]
  | wait c k ih => simp only [Prog.bind, wp, ih, post_hang]

/-! ## Rules without neighbours -/

section Alone

variable {ok : ι → Bool → Prop} {s : σ}

@[simp] theorem alone_pure {a : α} {Q : Outcome α → σ → Prop} :
    (alone ok).wp (pure a : Prog ι μ σ α) Q s ↔ Q (.ret a) s :=
  ⟨fun h => h s rfl, fun h _ he => he ▸ h⟩

@[simp] theorem alone_crit {ms : List μ} {g : σ → α × σ} {Q : Outcome α → σ → Prop} :
    (alone ok).wp (Prog.crit ms g) Q s ↔ Q (.ret (g s).1) (g s).2 :=
  ⟨fun h => (h s rfl).2 _ rfl, fun h _ he => he ▸ ⟨trivial, fun _ hu => hu ▸ h⟩⟩

@[simp] theorem alone_read {ms : List μ} {g : σ → α} {Q : Outcome α → σ → Prop} :
    (alone ok).wp (Prog.read ms g) Q s ↔ Q (.ret (g s)) s := alone_crit

@[simp] theorem alone_modify {ms : List μ} {f : σ → σ} {Q : Outcome Unit → σ → Prop} :
    (alone ok).wp (Prog.modify ms f) Q s ↔ Q (.ret ()) (f s) := alone_crit

@[simp] theorem alone_query {c : ι} {Q : Outcome Bool → σ → Prop} :
    (alone ok).wp (Prog.query c : Prog ι μ σ Bool) Q s ↔ ∀ b, ok c b → Q (.ret b) s :=
  forall₂_congr fun _ _ => alone_pure

@[simp] theorem alone_acquire {m : μ} {Q : Outcome Unit → σ → Prop} :
    (alone ok).wp (Prog.acquire m : Prog ι μ σ Unit) Q s ↔ Q (.ret ()) s :=
  ⟨fun h => h s rfl, fun h _ he => he ▸ h⟩

@[simp] theorem alone_release {m : μ} {Q : Outcome Unit → σ → Prop} :
    (alone ok).wp (Prog.release m : Prog ι μ σ Unit) Q s ↔ Q (.ret ()) s :=
  ⟨fun h => h s rfl, fun h _ he => he ▸ h⟩

@[simp] theorem alone_await {c : σ → Bool} {Q : Outcome Unit → σ → Prop} :
    (alone ok).wp (Prog.await c : Prog ι μ σ Unit) Q s ↔
      if c s then Q (.ret ()) s else Q .hang s := by
  simp only [Prog.await, wp, alone, forall_eq']

@[simp] theorem alone_check {b : Bool} {Q : Outcome Unit → σ → Prop} :
    (alone ok).wp (Prog.check b : Prog ι μ σ Unit) Q s ↔
      if b then Q (.ret ()) s else Q .abort s := by
  cases b <;> simp [Prog.check, wp, alone]

@[simp] theorem alone_again {Q : Outcome α → σ → Prop} :
    (alone ok).wp (Prog.again : Prog ι μ σ α) Q s ↔ Q .hang s :=
  ⟨fun h => h s rfl, fun h _ he => he ▸ h⟩

@[simp] theorem alone_abort {Q : Outcome α → σ → Prop} :
    (alone ok).wp (Prog.abort : Prog ι μ σ α) Q s ↔ Q .abort s :=
  ⟨fun h => h s rfl, fun h _ he => he ▸ h⟩

/-- One step at a time: a read in front of a program. -/
theorem alone_read_bind {ms : List μ} {g : σ → α} {k : α → Prog ι μ σ β}
    {Q : Outcome β → σ → Prop} :
    (alone ok).wp (Prog.read ms g >>= k) Q s ↔ (alone ok).wp (k (g s)) Q s := by
  rw [wp_bind, alone_read, post_ret]

/-- An update in front of a program. -/
theorem alone_modify_bind {ms : List μ} {f : σ → σ} {k : Unit → Prog ι μ σ β}
    {Q : Outcome β → σ → Prop} :
    (alone ok).wp (Prog.modify ms f >>= k) Q s ↔ (alone ok).wp (k ()) Q (f s) := by
  rw [wp_bind, alone_modify, post_ret]

/-- An assertion that holds in front of a program. -/
theorem alone_check_bind {b : Bool} (hb : b = true) {k : Unit → Prog ι μ σ β}
    {Q : Outcome β → σ → Prop} :
    (alone ok).wp (Prog.check b >>= k : Prog ι μ σ β) Q s ↔ (alone ok).wp (k ()) Q s := by
  rw [wp_bind, alone_check, if_pos hb, post_ret]

/-- A loop whose rounds keep `I` and shorten a measure ends in `Q`, given more
rounds than the measure. -/
theorem alone_loop {body : Prog ι μ σ (Option α)} {I : σ → Prop} {m : σ → Nat}
    {Q : Outcome α → σ → Prop}
    (hbody : ∀ t, I t → (alone ok).wp body (fun o u =>
      (∃ a, o = .ret (some a) ∧ Q (.ret a) u) ∨ (o = .ret none ∧ I u ∧ m u < m t)) t)
    {n : Nat} (hn : m s < n) (hs : I s) : (alone ok).wp (Prog.loop n body) Q s := by
  induction n generalizing s with
  | zero => omega
  | succ n ih =>
    refine (alone ok).wp_bind.mpr ((alone ok).wp_mono (hbody s hs) ?_)
    rintro o u (⟨a, rfl, hQ⟩ | ⟨rfl, hI, hlt⟩)
    · exact fun _ he => he ▸ hQ
    · exact ih (by omega) hI

/-- Without failures a program ends where its precondition says. -/
theorem wp_exec {p : Prog ι μ σ α} {Q : Outcome α → σ → Prop} (hok : ∀ c, ok c true)
    (h : (alone ok).wp p Q s) : Q (p.exec s).1 (p.exec s).2 := by
  induction p generalizing s with
  | ret | again | abort => exact h s rfl
  | act ms f k ih => exact ih s (h s rfl).2
  | ask c k ih => exact ih true (h true (hok c))
  | lock m k ih | unlock m k ih => exact ih h
  | wait c k ih =>
    have := h s rfl
    simp only [Prog.exec]
    split
    · exact ih (by simpa [*] using this)
    · simpa [*] using this

/-- The answers of a run are among the allowed ones. -/
def Allowed (ok : ι → Bool → Prop) (ans : Prog.Answers ι) : Prop :=
  ∀ c, ok c true ∧ ∀ b ∈ ans c, ok c b

/-- What holds of every allowed answer holds at the end of every run. -/
theorem wp_run [DecidableEq ι] {p : Prog ι μ σ α} {Q : Outcome α → σ → Prop}
    {ans : Prog.Answers ι} (h : (alone ok).wp p Q s) (ha : Allowed ok ans) :
    Q (p.run ans s).1 (p.run ans s).2.2 ∧ Allowed ok (p.run ans s).2.1 := by
  induction p generalizing s ans with
  | ret | again | abort => exact ⟨h s rfl, ha⟩
  | act ms f k ih => exact ih s (h s rfl).2 ha
  | ask c k ih =>
    have hb : ok c ((ans c).headD true) := by
      cases hc : ans c with
      | nil => exact (ha c).1
      | cons b bs => exact (ha c).2 b (by simp [hc])
    refine ih _ (h _ hb) fun d => ⟨(ha d).1, fun b hm => ?_⟩
    by_cases hd : d = c
    · subst hd
      rw [Prog.Answers.next, Function.update_self] at hm
      exact (ha d).2 b (List.mem_of_mem_tail hm)
    · rw [Prog.Answers.next, Function.update_of_ne hd] at hm
      exact (ha d).2 b hm
  | lock m k ih | unlock m k ih => exact ih h ha
  | wait c k ih =>
    have := h s rfl
    simp only [Prog.run]
    split
    · exact ih (by simpa [*] using this) ha
    · exact ⟨by simpa [*] using this, ha⟩

end Alone

end Env

end Core
