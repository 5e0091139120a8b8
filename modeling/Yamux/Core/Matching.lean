import Yamux.Core.Alike
import Yamux.Core.Threads
import Mathlib.Order.BooleanAlgebra.Set

/-!
# Programs that match step by step

A program is matched by another one if each of its actions is made up for at once: the other goes
on alone, through actions that leave the state as it is and one that does the same. Meanwhile the
state is left alone as far as the mutexes guard it that the first program holds. The other one
may hold fewer of them, so that a critical section can be matched by one atomic action, and an
atomic action by a whole critical section. If the calls of a pool are matched, so are its runs.
-/

namespace Core

/-- An action that fails an assertion where it has no result. -/
def Prog.attempt {ι μ σ α : Type} (ms : List μ) (f : σ → Option α × σ) : Prog ι μ σ α :=
  .act ms (fun s => (f s).2) fun s => match (f s).1 with
    | some a => .ret a
    | none => .abort

/-- What the mutexes are for. -/
structure Sharing (ι μ σ : Type) where
  /-- What the environment may answer. -/
  answers : ι → Bool → Prop
  /-- What the mutex guards is as it was. -/
  keeps : μ → σ → σ → Prop
  /-- What a thread may do while it owns these mutexes. -/
  allows : Set μ → σ → σ → Prop
  /-- The others go on after an assertion of a thread has failed. -/
  lasting : Prop
  keeps_refl : ∀ m s, keeps m s s
  keeps_trans : ∀ {m s t u}, keeps m s t → keeps m t u → keeps m s u
  allows_refl : ∀ H s, allows H s s

namespace Sharing

variable {ι μ σ α β γ : Type} (S : Sharing ι μ σ)

/-- What the others may do to a thread that owns these mutexes. -/
def rely (H : Set μ) (s t : σ) : Prop := ∀ m ∈ H, S.keeps m s t

theorem rely_refl (H : Set μ) (s : σ) : S.rely H s s := fun m _ => S.keeps_refl m s

variable {S}

theorem rely.trans {H : Set μ} {s t u : σ} (h : S.rely H s t) (h' : S.rely H t u) :
    S.rely H s u := fun m hm => S.keeps_trans (h m hm) (h' m hm)

/-! ## Going on alone -/

variable (S)

/-- A program goes on alone and may come to a place in `K`, with its mutexes, where the state is
`t`. It takes mutexes that are its own to take. Its actions leave the state as it is or make it
`t`. -/
inductive Arrives (mine : Set μ) (t : σ) (K : Prog ι μ σ α → Set μ → Prop) :
    Prog ι μ σ α → Set μ → σ → Prop where
  | stop {p : Prog ι μ σ α} {H : Set μ} (h : K p H) : Arrives mine t K p H t
  | act {ms : List μ} {f : σ → σ} {k : σ → Prog ι μ σ α} {H : Set μ} {s : σ}
      (hfree : ∀ m ∈ ms, m ∈ mine ∧ m ∉ H) (hf : f s = s ∨ f s = t)
      (h : Arrives mine t K (k s) H (f s)) : Arrives mine t K (.act ms f k) H s
  | ask {c : ι} {k : Bool → Prog ι μ σ α} {H : Set μ} {s : σ} {b : Bool} (hb : S.answers c b)
      (h : Arrives mine t K (k b) H s) : Arrives mine t K (.ask c k) H s
  | lock {m : μ} {k : Prog ι μ σ α} {H : Set μ} {s : σ} (hm : m ∈ mine) (hfree : m ∉ H)
      (h : Arrives mine t K k (insert m H) s) : Arrives mine t K (.lock m k) H s
  | unlock {m : μ} {k : Prog ι μ σ α} {H : Set μ} {s : σ} (hm : m ∈ H)
      (h : Arrives mine t K k (H \ {m}) s) : Arrives mine t K (.unlock m k) H s
  | wait {c : σ → Bool} {k : Prog ι μ σ α} {H : Set μ} {s : σ} (hc : c s = true)
      (h : Arrives mine t K k H s) : Arrives mine t K (.wait c k) H s

variable {S}

namespace Arrives

variable {mine mine' : Set μ} {t u : σ} {K : Prog ι μ σ α → Set μ → Prop}
  {K' : Prog ι μ σ β → Set μ → Prop} {p : Prog ι μ σ α} {H : Set μ} {s : σ}

/-- There is a place to come to. -/
theorem exists_place (h : S.Arrives mine t K p H s) : ∃ q G, K q G := by
  induction h with
  | stop h => exact ⟨_, _, h⟩
  | act _ _ _ ih | ask _ _ ih | lock _ _ _ ih | unlock _ _ ih | wait _ _ ih => exact ih

/-- From each of the places the journey goes on with what follows. -/
theorem bind {g : α → Prog ι μ σ β} (h : S.Arrives mine t K p H s)
    (hK : ∀ p H, K p H → S.Arrives mine t K' (p >>= g) H t) :
    S.Arrives mine t K' (p >>= g) H s := by
  induction h with
  | stop h => exact hK _ _ h
  | act hfree hf h ih => exact .act hfree hf ih
  | ask hb h ih => exact .ask hb ih
  | lock hm hfree h ih => exact .lock hm hfree ih
  | unlock hm h ih => exact .unlock hm ih
  | wait hc h ih => exact .wait hc ih

/-- One journey after another, the second one through the last state of the first. -/
theorem next {K' : Prog ι μ σ α → Set μ → Prop} (h : S.Arrives mine t K p H s)
    (hK : ∀ p H, K p H → S.Arrives mine t K' p H t) : S.Arrives mine t K' p H s := by
  induction h with
  | stop h => exact hK _ _ h
  | act hfree hf h ih => exact .act hfree hf ih
  | ask hb h ih => exact .ask hb ih
  | lock hm hfree h ih => exact .lock hm hfree ih
  | unlock hm h ih => exact .unlock hm ih
  | wait hc h ih => exact .wait hc ih

theorem mono {K' : Prog ι μ σ α → Set μ → Prop} (h : S.Arrives mine t K p H s)
    (hmine : mine ⊆ mine') (hK : ∀ p H, K p H → K' p H) : S.Arrives mine' t K' p H s := by
  induction h with
  | stop h => exact .stop (hK _ _ h)
  | act hfree hf h ih => exact .act (fun m hm => ⟨hmine (hfree m hm).1, (hfree m hm).2⟩) hf ih
  | ask hb h ih => exact .ask hb ih
  | lock hm hfree h ih => exact .lock (hmine hm) hfree ih
  | unlock hm h ih => exact .unlock hm ih
  | wait hc h ih => exact .wait hc ih

/-- A journey through one state only, and then another one. -/
theorem trans {K' : Prog ι μ σ α → Set μ → Prop} (h : S.Arrives mine s K p H s)
    (hmine : mine ⊆ mine') (hK : ∀ p H, K p H → S.Arrives mine' t K' p H s) :
    S.Arrives mine' t K' p H s := by
  have main {p : Prog ι μ σ α} {H : Set μ} {u : σ} (h : S.Arrives mine s K p H u) (hu : u = s) :
      S.Arrives mine' t K' p H u := by
    induction h with
    | stop h => exact hK _ _ h
    | @act ms f k H u hfree hf h ih =>
      have hfu : f u = s := by
        rcases hf with hf | hf
        · exact hf.trans hu
        · exact hf
      refine .act (fun m hm => ⟨hmine (hfree m hm).1, (hfree m hm).2⟩) (.inl (hfu.trans hu.symm)) ?_
      exact ih hfu
    | ask hb h ih => exact .ask hb (ih hu)
    | lock hm hfree h ih => exact .lock (hmine hm) hfree (ih hu)
    | unlock hm h ih => exact .unlock hm (ih hu)
    | wait hc h ih => exact .wait hc (ih hu)
  exact main h rfl

end Arrives

/-! ## Matching programs -/

variable (S)

/-- From the state `s` on, what `p` does with the mutexes `H` is matched by `q` with the mutexes
`H'` out of these, up to results in `Q`. -/
def Matches : Prog ι μ σ α → Prog ι μ σ β → Set μ → Set μ → σ →
    (α → β → Set μ → Set μ → σ → Prop) → Prop
  | .ret a, q, H, H', s, Q => H' ⊆ H ∧ ∀ t, S.rely H s t →
    S.Arrives H t (fun q' G => ∃ b, q' = .ret b ∧ G ⊆ H ∧ Q a b H G t) q H' t
  | .act ms f k, q, H, H', s, Q => H' ⊆ H ∧ ∀ t, S.rely H s t → (∀ m ∈ ms, m ∉ H) →
    S.allows (H ∪ {m | m ∈ ms}) t (f t) ∧ S.Arrives (H ∪ {m | m ∈ ms}) (f t)
      (fun q' G => Matches (k t) q' H G (f t) Q) q H' t
  | .ask c k, q, H, H', s, Q => H' ⊆ H ∧ ∀ b, S.answers c b → ∀ t, S.rely H s t →
    S.Arrives H t (fun q' G => Matches (k b) q' H G t Q) q H' t
  | .lock m k, q, H, H', s, Q => H' ⊆ H ∧ ∀ t, S.rely H s t → m ∉ H →
    S.Arrives (insert m H) t (fun q' G => Matches k q' (insert m H) G t Q) q H' t
  | .unlock m k, q, H, H', s, Q => H' ⊆ H ∧ ∀ t, S.rely H s t → m ∈ H →
    S.Arrives H t (fun q' G => Matches k q' (H \ {m}) G t Q) q H' t
  | .wait c k, q, H, H', s, Q => H' ⊆ H ∧ ∀ t, S.rely H s t → c t = true →
    S.Arrives H t (fun q' G => Matches k q' H G t Q) q H' t
  | .again, q, H, H', s, _ => H' ⊆ H ∧ ∀ t, S.rely H s t →
    S.Arrives H t (fun q' G => q' = .again ∧ G ⊆ H) q H' t
  | .abort, q, H, H', s, _ => ∀ t, S.rely H s t →
    S.Arrives H t (fun q' G => q' = .abort ∧ (S.lasting → G ⊆ H)) q H' t

variable {S}

namespace Matches

variable {H H' : Set μ} {s t : σ} {p : Prog ι μ σ α} {q : Prog ι μ σ β}
  {Q Q' : α → β → Set μ → Set μ → σ → Prop}

/-- Before an assertion has failed the matching program holds no other mutexes. -/
theorem subset (h : S.Matches p q H H' s Q) (hp : p ≠ .abort) : H' ⊆ H := by
  cases p with
  | abort => exact absurd rfl hp
  | ret | act | ask | lock | unlock | wait | again => exact h.1

/-- What the others do keeps programs matching. -/
theorem rely (h : S.Matches p q H H' s Q) (hr : S.rely H s t) : S.Matches p q H H' t Q := by
  cases p with
  | ret | act | lock | unlock | wait | again => exact ⟨h.1, fun u hu => h.2 u (hr.trans hu)⟩
  | ask c k => exact ⟨h.1, fun b hb u hu => h.2 b hb u (hr.trans hu)⟩
  | abort => exact fun u hu => h u (hr.trans hu)

/-- The matching program goes on first. -/
theorem after (hH : H' ⊆ H) (h : ∀ t, S.rely H s t →
    S.Arrives H t (fun q' G => S.Matches p q' H G t Q) q H' t) : S.Matches p q H H' s Q := by
  cases p with
  | ret a =>
    refine ⟨hH, fun t ht => ?_⟩
    exact (h t ht).trans subset_rfl fun q' G hG => hG.2 t (S.rely_refl H t)
  | act ms f k =>
    refine ⟨hH, fun t ht hms => ?_⟩
    obtain ⟨q', G, hG⟩ := (h t ht).exists_place
    refine ⟨(hG.2 t (S.rely_refl H t) hms).1, ?_⟩
    exact (h t ht).trans Set.subset_union_left fun q' G hG => (hG.2 t (S.rely_refl H t) hms).2
  | ask c k =>
    refine ⟨hH, fun b hb t ht => ?_⟩
    exact (h t ht).trans subset_rfl fun q' G hG => hG.2 b hb t (S.rely_refl H t)
  | lock m k =>
    refine ⟨hH, fun t ht hm => ?_⟩
    exact (h t ht).trans (Set.subset_insert m H) fun q' G hG => hG.2 t (S.rely_refl H t) hm
  | unlock m k =>
    refine ⟨hH, fun t ht hm => ?_⟩
    exact (h t ht).trans subset_rfl fun q' G hG => hG.2 t (S.rely_refl H t) hm
  | wait c k =>
    refine ⟨hH, fun t ht hc => ?_⟩
    exact (h t ht).trans subset_rfl fun q' G hG => hG.2 t (S.rely_refl H t) hc
  | again =>
    refine ⟨hH, fun t ht => ?_⟩
    exact (h t ht).trans subset_rfl fun q' G hG => hG.2 t (S.rely_refl H t)
  | abort => exact fun t ht => (h t ht).trans subset_rfl fun q' G hG => hG t (S.rely_refl H t)

theorem mono (h : S.Matches p q H H' s Q) (hQ : ∀ a b H H' t, Q a b H H' t → Q' a b H H' t) :
    S.Matches p q H H' s Q' := by
  induction p generalizing q H H' s with
  | ret a =>
    refine ⟨h.1, fun t ht => (h.2 t ht).mono subset_rfl ?_⟩
    rintro q' G ⟨b, rfl, hG, hq⟩
    exact ⟨b, rfl, hG, hQ _ _ _ _ _ hq⟩
  | act ms f k ih =>
    refine ⟨h.1, fun t ht hms => ?_⟩
    obtain ⟨hallows, harrives⟩ := h.2 t ht hms
    exact ⟨hallows, harrives.mono subset_rfl fun q' G => ih t⟩
  | ask c k ih =>
    exact ⟨h.1, fun b hb t ht => (h.2 b hb t ht).mono subset_rfl fun q' G => ih b⟩
  | lock m k ih | unlock m k ih =>
    exact ⟨h.1, fun t ht hm => (h.2 t ht hm).mono subset_rfl fun q' G => ih⟩
  | wait c k ih => exact ⟨h.1, fun t ht hc => (h.2 t ht hc).mono subset_rfl fun q' G => ih⟩
  | again | abort => exact h

/-- Sequential composition. -/
theorem bind {δ : Type} {g : α → Prog ι μ σ γ} {g' : β → Prog ι μ σ δ}
    {R : γ → δ → Set μ → Set μ → σ → Prop} (hp : S.Matches p q H H' s Q)
    (hg : ∀ a b H H' t, H' ⊆ H → Q a b H H' t → S.Matches (g a) (g' b) H H' t R) :
    S.Matches (p >>= g) (q >>= g') H H' s R := by
  induction p generalizing q H H' s with
  | ret a =>
    refine after hp.1 fun t ht => (hp.2 t ht).bind ?_
    rintro q' G ⟨b, rfl, hG, hq⟩
    exact .stop (hg a b H G t hG hq)
  | act ms f k ih =>
    refine ⟨hp.1, fun t ht hms => ?_⟩
    obtain ⟨hallows, harrives⟩ := hp.2 t ht hms
    exact ⟨hallows, harrives.bind fun q' G hG => .stop (ih t hG)⟩
  | ask c k ih =>
    exact ⟨hp.1, fun b hb t ht => (hp.2 b hb t ht).bind fun q' G hG => .stop (ih b hG)⟩
  | lock m k ih | unlock m k ih =>
    exact ⟨hp.1, fun t ht hm => (hp.2 t ht hm).bind fun q' G hG => .stop (ih hG)⟩
  | wait c k ih => exact ⟨hp.1, fun t ht hc => (hp.2 t ht hc).bind fun q' G hG => .stop (ih hG)⟩
  | again =>
    refine ⟨hp.1, fun t ht => (hp.2 t ht).bind ?_⟩
    rintro q' G ⟨rfl, hG⟩
    exact .stop ⟨rfl, hG⟩
  | abort =>
    refine fun t ht => (hp t ht).bind ?_
    rintro q' G ⟨rfl, hG⟩
    exact .stop ⟨rfl, hG⟩

/-- Where an assertion of the one has failed, that of the other one can fail as well. -/
theorem settle (h : S.Matches p q H H' s Q) :
    S.Arrives H s (fun q' G => S.Matches p q' H G s Q ∧
      (p = .abort → q' = .abort ∧ (S.lasting → G ⊆ H))) q H' s := by
  by_cases hp : p = .abort
  · subst hp
    refine (h s (S.rely_refl H s)).mono subset_rfl ?_
    rintro q' G ⟨rfl, hG⟩
    exact ⟨fun t _ => .stop ⟨rfl, hG⟩, fun _ => ⟨rfl, hG⟩⟩
  · exact .stop ⟨h, fun h => absurd h hp⟩

end Matches

/-! ## Programs with the same results -/

variable (S)

/-- With the mutexes `L` and any others, `p` is matched by `q`, and both return the same with the
mutexes that they had. -/
def Mirrors (L : Set μ) (p q : Prog ι μ σ α) : Prop := ∀ H H' s, H' ⊆ H → L ⊆ H →
  S.Matches p q H H' s fun a b G G' _ => a = b ∧ G = H ∧ G' = H'

/-- The same when a failed assertion ends everything. -/
def ending : Sharing ι μ σ := { S with lasting := False }

/-- Programs that match each other. The second one may keep mutexes when an assertion of its own
fails, which goes unnoticed if that ends everything. -/
def Twins (L : Set μ) (p q : Prog ι μ σ α) : Prop := S.Mirrors L p q ∧ S.ending.Mirrors L q p

/-- With the mutexes `L` and `m` and any others, `p` is matched by `q`, and both return the same
and give `m` back. -/
def Closes (L : Set μ) (m : μ) (p q : Prog ι μ σ α) : Prop := ∀ H H' s, H' ⊆ H → L ⊆ H → m ∉ H →
  S.Matches p q (insert m H) (insert m H') s fun a b G G' _ => a = b ∧ G = H ∧ G' = H'

/-- Programs that match each other and give `m` back. -/
def TwinsBack (L : Set μ) (m : μ) (p q : Prog ι μ σ α) : Prop :=
  S.Closes L m p q ∧ S.ending.Closes L m q p

variable {S} {L L' : Set μ} {m : μ} {p q : Prog ι μ σ α} {g g' : α → Prog ι μ σ β}

/-! ### One direction -/

namespace Mirrors

theorem mono (h : S.Mirrors L p q) (hL : L ⊆ L') : S.Mirrors L' p q :=
  fun H H' s hH hL' => h H H' s hH (hL.trans hL')

theorem bind (hp : S.Mirrors L p q) (hg : ∀ a, S.Mirrors L (g a) (g' a)) :
    S.Mirrors L (p >>= g) (q >>= g') := by
  intro H H' s hH hL
  refine (hp H H' s hH hL).bind ?_
  rintro a b G G' t hG ⟨rfl, rfl, rfl⟩
  exact hg a _ _ t hG hL

theorem pure (a : α) : S.Mirrors L (Pure.pure a : Prog ι μ σ α) (Pure.pure a) :=
  fun _ _ _ hH _ => ⟨hH, fun _ _ => .stop ⟨a, rfl, hH, rfl, rfl, rfl⟩⟩

theorem attempt {ms : List μ} {f : σ → Option α × σ}
    (hf : ∀ H s, L ⊆ H → (∀ m ∈ ms, m ∈ H) → S.allows H s (f s).2) :
    S.Mirrors L (Prog.attempt ms f : Prog ι μ σ α) (Prog.attempt ms f) := by
  intro H H' s hH hL
  refine ⟨hH, fun t ht hms => ⟨?_, ?_⟩⟩
  · exact hf _ t (hL.trans Set.subset_union_left) fun m hm => .inr hm
  · refine .act (fun m hm => ⟨.inr hm, fun hm' => hms m hm (hH hm')⟩) (.inr rfl) (.stop ?_)
    dsimp only
    cases hres : (f t).1 with
    | none => exact fun u _ => .stop ⟨rfl, fun _ => hH⟩
    | some a => exact pure (L := L) a H H' _ hH hL

theorem query (c : ι) : S.Mirrors L (Prog.query c : Prog ι μ σ Bool) (Prog.query c) :=
  fun H H' _ hH hL => ⟨hH, fun b hb t _ => .ask hb (.stop (pure (L := L) b H H' t hH hL))⟩

theorem await (c : σ → Bool) : S.Mirrors L (Prog.await c : Prog ι μ σ Unit) (Prog.await c) :=
  fun H H' _ hH hL => ⟨hH, fun t _ hc => .wait hc (.stop (pure (L := L) () H H' t hH hL))⟩

theorem again : S.Mirrors L (Prog.again : Prog ι μ σ α) Prog.again :=
  fun _ _ _ hH _ => ⟨hH, fun _ _ => .stop ⟨rfl, hH⟩⟩

theorem abort : S.Mirrors L (Prog.abort : Prog ι μ σ α) Prog.abort :=
  fun _ _ _ hH _ _ _ => .stop ⟨rfl, fun _ => hH⟩

end Mirrors

namespace Closes

theorem bind (hp : S.Mirrors (insert m L) p q) (hg : ∀ a, S.Closes L m (g a) (g' a)) :
    S.Closes L m (p >>= g) (q >>= g') := by
  intro H H' s hH hL hm
  refine (hp _ _ s (Set.insert_subset_insert hH) (Set.insert_subset_insert hL)).bind ?_
  rintro a b G G' t hG ⟨rfl, rfl, rfl⟩
  exact hg a H H' t hH hL hm

theorem release {k k' : Unit → Prog ι μ σ α} (h : S.Mirrors L (k ()) (k' ())) :
    S.Closes L m (Prog.release m >>= k) (Prog.release m >>= k') := by
  intro H H' s hH hL hm
  refine ⟨Set.insert_subset_insert hH, fun t ht _ => ?_⟩
  have hH' : (insert m H' : Set μ) \ {m} = H' :=
    Set.insert_sdiff_self_of_notMem fun hm' => hm (hH hm')
  rw [Set.insert_sdiff_self_of_notMem hm]
  refine .unlock (Set.mem_insert m H') (.stop ?_)
  rw [hH']
  exact h H H' t hH hL

end Closes

/-! ### Both directions -/

namespace Twins

theorem mono (h : S.Twins L p q) (hL : L ⊆ L') : S.Twins L' p q := ⟨h.1.mono hL, h.2.mono hL⟩

theorem bind (hp : S.Twins L p q) (hg : ∀ a, S.Twins L (g a) (g' a)) :
    S.Twins L (p >>= g) (q >>= g') :=
  ⟨hp.1.bind fun a => (hg a).1, hp.2.bind fun a => (hg a).2⟩

theorem pure (a : α) : S.Twins L (Pure.pure a : Prog ι μ σ α) (Pure.pure a) := ⟨.pure a, .pure a⟩

theorem attempt {ms : List μ} {f : σ → Option α × σ}
    (hf : ∀ H s, L ⊆ H → (∀ m ∈ ms, m ∈ H) → S.allows H s (f s).2) :
    S.Twins L (Prog.attempt ms f : Prog ι μ σ α) (Prog.attempt ms f) :=
  ⟨.attempt hf, .attempt hf⟩

theorem crit {ms : List μ} {f : σ → α × σ}
    (hf : ∀ H s, L ⊆ H → (∀ m ∈ ms, m ∈ H) → S.allows H s (f s).2) :
    S.Twins L (Prog.crit ms f : Prog ι μ σ α) (Prog.crit ms f) :=
  attempt (f := fun s => (some (f s).1, (f s).2)) hf

theorem read {ms : List μ} {f : σ → α} :
    S.Twins L (Prog.read ms f : Prog ι μ σ α) (Prog.read ms f) :=
  crit fun H s _ _ => S.allows_refl H s

theorem query (c : ι) : S.Twins L (Prog.query c : Prog ι μ σ Bool) (Prog.query c) :=
  ⟨.query c, .query c⟩

theorem await (c : σ → Bool) : S.Twins L (Prog.await c : Prog ι μ σ Unit) (Prog.await c) :=
  ⟨.await c, .await c⟩

theorem again : S.Twins L (Prog.again : Prog ι μ σ α) Prog.again := ⟨.again, .again⟩

theorem check (b : Bool) : S.Twins L (Prog.check b : Prog ι μ σ Unit) (Prog.check b) := by
  cases b with
  | true => exact pure ()
  | false => exact ⟨.abort, .abort⟩

theorem ite {c : Prop} [Decidable c] {p' q' : Prog ι μ σ α} (h : S.Twins L p q)
    (h' : S.Twins L p' q') : S.Twins L (if c then p else p') (if c then q else q') := by
  split
  · exact h
  · exact h'

theorem loop {body body' : Prog ι μ σ (Option α)} (h : S.Twins L body body') (n : ℕ) :
    S.Twins L (Prog.loop n body) (Prog.loop n body') := by
  induction n with
  | zero => exact (await fun _ => false).bind fun _ => again
  | succ n ih =>
    apply h.bind
    rintro (_ | a)
    · exact ih
    · exact pure a

end Twins

namespace TwinsBack

theorem bind (hp : S.Twins (insert m L) p q) (hg : ∀ a, S.TwinsBack L m (g a) (g' a)) :
    S.TwinsBack L m (p >>= g) (q >>= g') :=
  ⟨.bind hp.1 fun a => (hg a).1, .bind hp.2 fun a => (hg a).2⟩

/-- Whoever starts over keeps the mutex. -/
theorem again : S.TwinsBack L m (Prog.again : Prog ι μ σ α) Prog.again :=
  ⟨fun _ _ _ hH _ _ => ⟨Set.insert_subset_insert hH, fun _ _ =>
    .stop ⟨rfl, Set.insert_subset_insert hH⟩⟩,
  fun _ _ _ hH _ _ => ⟨Set.insert_subset_insert hH, fun _ _ =>
    .stop ⟨rfl, Set.insert_subset_insert hH⟩⟩⟩

theorem release {k k' : Unit → Prog ι μ σ α} (h : S.Twins L (k ()) (k' ())) :
    S.TwinsBack L m (Prog.release m >>= k) (Prog.release m >>= k') :=
  ⟨.release h.1, .release h.2⟩

theorem ite {c : Prop} [Decidable c] {p' q' : Prog ι μ σ α} (h : S.TwinsBack L m p q)
    (h' : S.TwinsBack L m p' q') :
    S.TwinsBack L m (if c then p else p') (if c then q else q') := by
  split
  · exact h
  · exact h'

end TwinsBack

/-! ### Critical sections -/

/-- A program that only asks. -/
def Asks : Prog ι μ σ α → Prop
  | .ret _ => True
  | .ask _ k => ∀ b, Asks (k b)
  | _ => False

variable (S) in
/-- A program that only asks may get this result. -/
def Says : Prog ι μ σ α → α → Prop
  | .ret a, b => a = b
  | .ask c k, b => ∃ x, S.answers c x ∧ Says (k x) b
  | _, _ => False

theorem Asks.bind (hp : Asks p) (hg : ∀ a, Asks (g a)) : Asks (p >>= g) := by
  rw [Prog.bind_eq]
  induction p with
  | ret a => exact hg a
  | ask c k ih => exact fun b => ih b (hp b)
  | act | lock | unlock | wait | again | abort => exact hp.elim

/-- Asking changes nothing. -/
theorem Asks.mirrors (hp : Asks p) : S.Mirrors L p p := by
  induction p with
  | ret a => exact .pure a
  | ask c k ih =>
    intro H H' s hH hL
    exact ⟨hH, fun b hb t ht => .ask hb (.stop (ih b (hp b) H H' t hH hL))⟩
  | act | lock | unlock | wait | again | abort => exact hp.elim

/-- What has been asked can be asked again. -/
theorem Arrives.answered {mine H : Set μ} {s t : σ} {K : Prog ι μ σ β → Set μ → Prop} {a : α}
    (hp : S.Says p a) (h : S.Arrives mine t K (g a) H s) : S.Arrives mine t K (p >>= g) H s := by
  rw [Prog.bind_eq]
  induction p with
  | ret b =>
    obtain rfl : b = a := hp
    exact h
  | ask c k ih =>
    obtain ⟨b, hb, hrest⟩ := hp
    exact .ask hb (ih b hrest)
  | act | lock | unlock | wait | again | abort => exact hp.elim

end Sharing

end Core
