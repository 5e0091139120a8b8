import Yamux.Core.Alike
import Yamux.Locking.Guarding

/-!
# Critical sections under interference

The code with explicit mutexes and the model with atomic sections match each other step by step,
while other threads change what its mutexes do not guard. Where a section makes system calls
after it has looked at the stream, what it saw stays true until it gives the mutex back.
-/

namespace Yamux.Locking

open Core Prog Sharing

/-- The programs match each other in threads that hold the mutexes `L`. -/
abbrev Alongside {α : Type} (ok : Call → Bool → Prop) (L : Set Mutex) (p q : Op α) : Prop :=
  (sharing ok).Twins L p q

variable {ok : Call → Bool → Prop} {L : Set Mutex} {id : UInt32}

/-! ## Accesses -/

section Accesses

variable {α β : Type} {ms : List Mutex} {g : Stream → α × Stream} {m : Mutex}

end Accesses

section Calls

variable {α β δ γ : Type} {m : Mutex} {H H' : Set Mutex} {s t : Session} {st : Stream}

/-- A part of the stream, as a thread has seen it. -/
def Sees (id : UInt32) (part : Stream → γ) (a : γ) (s : Session) : Prop :=
  ∃ st, s.streams id = some st ∧ part st = a

variable {part : Stream → γ} {a : γ}

/-- What was seen stays true under the mutex that guards it. -/
theorem Sees.rely (h : Sees id part a s) (hm : ∀ s t, m.Guards s t → s.KeepsPart id part t)
    (hr : (sharing ok).rely (insert m H) s t) : Sees id part a t := by
  obtain ⟨st, hst, ha⟩ := h
  obtain ⟨st', hst', ha'⟩ := hm s t (hr m (Set.mem_insert m H)) st hst
  exact ⟨st', hst', ha'.trans ha⟩

/-! ### Going through accesses -/

section Arrives

variable {S : Sharing Call Mutex Session} {mine G : Set Mutex} {K : Op α → Set Mutex → Prop}

end Arrives

/-! ### From the section to the action -/

variable {x : Op δ} {g : δ → Stream → Int × Stream} {y : δ} {r : Int}

end Calls

end Yamux.Locking
