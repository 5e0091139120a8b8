import Yamux.Locking.Sections

/-!
# Stream operations and their sections

Function by function, what the code does to a stream under its mutexes is what the model does
with atomic sections.
-/

namespace Yamux.Locking

open Core Prog Sharing

variable {ok : Call → Bool → Prop} {L : Set Mutex} {id : UInt32}

/-! ## The stream tree -/

section Readiness

variable {α δ γ : Type} {m : Mutex} {H H' : Set Mutex} {s t : Session} {st : Stream}
  {part : Stream → γ} {a : γ} {x : Op δ} {g : δ → Stream → Int × Stream} {f : Stream → Stream}

end Readiness

/-! ## Creation and removal -/

end Yamux.Locking
