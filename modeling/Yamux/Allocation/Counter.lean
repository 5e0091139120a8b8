import Yamux.Native.Footprint

/-!
# The id counter

`session_open` takes its id from `next_id` by compare and swap. Alone, a call
either leaves the counter or moves it on by two, whatever else fails in it, so
the counter after any number of calls is known.
-/

namespace Yamux

open Core Prog

/-- Any call may fail. -/
def anyAnswer (_ : Call) (_ : Bool) : Prop := True

theorem allowed_anyAnswer (ans : Answers Call) : Env.Allowed anyAnswer ans :=
  fun _ => ⟨trivial, fun _ _ => trivial⟩

/-- The counter and the guard of `session_open` are as they were, and no stream is
new but possibly the one with this id. -/
structure Grows (id : UInt32) (s t : Session) : Prop where
  remoteGoAway : t.remoteGoAway = s.remoteGoAway
  nextId : t.nextId = s.nextId
  others : ∀ i, i ≠ id → s.streams i = none → t.streams i = none

theorem Grows.refl {id : UInt32} (s : Session) : Grows id s s := ⟨rfl, rfl, fun _ _ h => h⟩

theorem Grows.trans {id : UInt32} {s t u : Session} (h : Grows id s t) (h' : Grows id t u) :
    Grows id s u :=
  ⟨h'.remoteGoAway.trans h.remoteGoAway, h'.nextId.trans h.nextId,
    fun i hi hs => h'.others i hi (h.others i hi hs)⟩

theorem StreamsOnly.none {s t : Session} (h : StreamsOnly s t) {i : UInt32}
    (hi : s.streams i = none) : t.streams i = none := by
  have hd := h.domain i
  rw [hi] at hd
  exact Option.not_isSome_iff_eq_none.mp (by rw [hd]; simp)

theorem StreamsOnly.grows {id : UInt32} {s t : Session} (h : StreamsOnly s t) : Grows id s t :=
  ⟨h.remoteGoAway, h.nextId, fun _ _ => h.none⟩

section Acts

variable {ok : Call → Bool → Prop} {id : UInt32}

theorem acts_streamNew (state : StreamState) : Acts ok (Grows id) (streamNew id state) := by
  refine .bind (.query _) fun _ => .bind (.query _) fun _ => .bind (.query _) fun _ =>
    .bind (.query _) fun _ => ?_
  split
  · refine .bind (.read .refl) fun _ => .bind (.bind (.crit fun s => ?_) fun _ => .check _)
      fun _ => .pure _
    split
    · exact .refl s
    · exact ⟨rfl, rfl, fun i hi hs => (Session.setStream_of_ne _ _ _ hi).trans hs⟩
  · exact .pure _

theorem acts_streamFree : Acts ok (Grows id) (streamFree id) := by
  refine .bind (.crit fun s => ⟨rfl, rfl, fun i hi hs => ?_⟩) fun _ => .check _
  exact (Function.update_of_ne hi _ _).trans hs

/-- What `session_open` does once it has taken an id. -/
theorem acts_openWith : Acts ok (Grows id) (do
    let created ← streamNew id .init
    if created then do
      let r ← sendWindowUpdate id
      if r ≠ 0 then do
        streamFree id
        pure none
      else pure (some id)
    else pure none) := by
  refine .bind (acts_streamNew _) fun created => ?_
  split
  · refine .bind (touches_sendWindowUpdate.mono fun _ _ ht => ht.streamsOnly.grows) fun r => ?_
    split
    · exact .bind acts_streamFree fun _ => .pure _
    · exact .pure _
  · exact .pure _

end Acts

/-- The counter after `session_open` found `id` in it. -/
def bump (id : UInt32) : UInt32 := if 4294967295 ≤ id then id else id + 2

/-- Alone the compare and swap succeeds at the first try. -/
theorem alone_takeId {ok : Call → Bool → Prop} {n : Nat} {s : Session}
    {Q : Outcome (Option UInt32) → Session → Prop} :
    (Env.alone ok).wp (takeId (n + 1)) Q s ↔
      if 4294967295 ≤ s.nextId then Q (.ret none) s
      else Q (.ret (some s.nextId)) { s with nextId := s.nextId + 2 } := by
  rw [takeId, loop, ← bind_eq, Env.wp_bind, Env.alone_read_bind]
  by_cases h : 4294967295 ≤ s.nextId
  · rw [if_pos h, if_pos h, Env.alone_pure]
    change (Env.alone ok).wp (pure none : Op (Option UInt32)) Q s ↔ _
    exact Env.alone_pure
  · rw [if_neg h, if_neg h, Env.wp_bind, Env.alone_crit, Env.post_ret, if_pos rfl, if_pos rfl,
      Env.alone_pure]
    change (Env.alone ok).wp (pure (some s.nextId) : Op (Option UInt32)) Q _ ↔ _
    exact Env.alone_pure

/-- The session after successive calls of `session_open`. -/
def afterOpens (calls : List (Answers Call)) (s : Session) : Session :=
  calls.foldl (fun s ans => ((sessionOpen 1).run ans s).2.2) s

/-- The role's parity. -/
def ofRole (client : Bool) (id : UInt32) : Prop := id.toNat % 2 = if client then 1 else 0

/-- The counter after the first `k` calls on a new session. -/
def counterAfter (client : Bool) (rcvbuf : UInt32) (calls : List (Answers Call)) (k : Nat) :
    UInt32 := (afterOpens (calls.take k) (sessionInit client rcvbuf)).nextId

/-- Call number `k` took this id off the counter. -/
def TookId (client : Bool) (rcvbuf : UInt32) (calls : List (Answers Call)) (k : Nat)
    (id : UInt32) : Prop :=
  k < calls.length ∧ id = counterAfter client rcvbuf calls k ∧
    counterAfter client rcvbuf calls (k + 1) ≠ counterAfter client rcvbuf calls k

section NeverReused

variable {rcvbuf : UInt32} {calls : List (Answers Call)} {k : Nat} {id : UInt32}

/-- The id of a call in terms of the counter's value as a number. -/
theorem TookId.toNat {client : Bool} (h : TookId client rcvbuf calls k id) :
    id.toNat = (counterAfter client rcvbuf calls k).toNat ∧
    (counterAfter client rcvbuf calls (k + 1)).toNat ≠
      (counterAfter client rcvbuf calls k).toNat :=
  ⟨congrArg UInt32.toNat h.2.1, fun he => h.2.2 (UInt32.toNat_inj.mp he)⟩

end NeverReused

end Yamux
