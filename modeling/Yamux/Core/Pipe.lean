import Mathlib.Logic.Relation
import Mathlib.Tactic

/-!
# Credit-controlled pipes

A pipe takes items from a sender to a buffer at the receiver, which takes them
out in order. The sender pays for every item with credit, and the receiver hands
out new credit, in grants that travel back, for room that has become free. Items
are neither lost nor reordered, and the buffer never holds more than its
capacity.
-/

namespace Core

/-- The two ends of a pipe and what is on the way between them. -/
structure Pipe (α : Type) where
  /-- All items that the sender has sent. -/
  sent : List α
  /-- The items on the way. -/
  queue : List α
  buf : List α
  /-- All items that the receiver has taken out of its buffer. -/
  taken : List α
  credit : Nat
  /-- The receiver's account of what it may still have to buffer. -/
  window : Nat
  /-- The credit on the way back. -/
  grants : Nat

namespace Pipe

variable {α : Type} (capacity : Nat)

/-- An empty pipe with all its credit at the sender. -/
def empty : Pipe α := ⟨[], [], [], [], capacity, capacity, 0⟩

/-- The steps of the two ends. -/
inductive Step : Pipe α → Pipe α → Prop where
  | send (p : Pipe α) (items : List α) (h : items.length ≤ p.credit) :
      Step p { p with
        sent := p.sent ++ items
        queue := p.queue ++ items
        credit := p.credit - items.length }
  | deliver (p : Pipe α) (n : Nat) (h : n ≤ p.queue.length) :
      Step p { p with
        queue := p.queue.drop n
        buf := p.buf ++ p.queue.take n
        window := p.window - n }
  | take (p : Pipe α) (n : Nat) :
      Step p { p with buf := p.buf.drop n, taken := p.taken ++ p.buf.take n }
  | grant (p : Pipe α) (n : Nat) (h : p.buf.length + p.window + n ≤ capacity) :
      Step p { p with window := p.window + n, grants := p.grants + n }
  | refill (p : Pipe α) (n : Nat) (h : n ≤ p.grants) :
      Step p { p with credit := p.credit + n, grants := p.grants - n }

/-- Any number of steps. -/
abbrev Steps : Pipe α → Pipe α → Prop := Relation.ReflTransGen (Step capacity)

/-- What was sent has been taken, is buffered or is on the way; the window
accounts for all credit and for all items on the way; and there is room for it. -/
structure Sound (p : Pipe α) : Prop where
  order : p.sent = p.taken ++ p.buf ++ p.queue
  credit : p.window = p.credit + p.queue.length + p.grants
  room : p.buf.length + p.window ≤ capacity

variable {capacity} {p q : Pipe α}

theorem sound_empty : (empty capacity : Pipe α).Sound capacity :=
  ⟨rfl, rfl, by simp [empty]⟩

theorem Step.sound (h : Step capacity p q) (hp : p.Sound capacity) : q.Sound capacity := by
  obtain ⟨ho, hc, hr⟩ := hp
  cases h with
  | send items h =>
    constructor
    · simp only [ho, List.append_assoc]
    · simp only [List.length_append]
      omega
    · exact hr
  | deliver n h =>
    constructor
    · simp only [ho, List.append_assoc, List.take_append_drop]
    · simp only [List.length_drop]
      omega
    · simp only [List.length_append, List.length_take]
      omega
  | take n =>
    constructor
    · simp only [ho, List.append_assoc]
      rw [← List.append_assoc (p.buf.take n), List.take_append_drop]
    · exact hc
    · simp only [List.length_drop]
      omega
  | grant n h =>
    constructor
    · exact ho
    · simp only
      omega
    · simp only
      omega
  | refill n h =>
    constructor
    · exact ho
    · simp only
      omega
    · exact hr

/-- Every run of the two ends keeps a pipe sound. -/
theorem Steps.sound (h : Steps capacity p q) (hp : p.Sound capacity) : q.Sound capacity := by
  induction h with
  | refl => exact hp
  | tail _ hs ih => exact hs.sound ih

/-- What is on the way fits the window. -/
theorem Sound.queue_le (hp : p.Sound capacity) : p.queue.length ≤ p.window := by
  have := hp.credit
  omega

/-- The sender never has more credit than the capacity, whatever grants arrive. -/
theorem Sound.credit_le (hp : p.Sound capacity) : p.credit + p.grants ≤ capacity := by
  have := hp.credit
  have := hp.room
  omega

/-- A sender without credit, with nothing on the way in either direction, waits
for a receiver whose buffer holds all but the room not yet granted again. -/
theorem Sound.stalled (hp : p.Sound capacity) (hq : p.queue = []) (hg : p.grants = 0)
    (hc : p.credit = 0) : p.window = 0 := by
  rw [hp.credit, hq, hg, hc]
  rfl

end Pipe

end Core
