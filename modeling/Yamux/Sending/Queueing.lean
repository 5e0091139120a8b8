import Yamux.Core.Typestate
import Yamux.Native.Beside
import Yamux.Native.Intake
import Yamux.Network.Frames

/-!
# What the calls queue

Every call but `stream_write` queues frames without payload, each with one action.
`stream_write` queues a header and its payload with two actions, so in between it has
bytes to send that it owes. That is the local state of a thread.
-/

namespace Yamux

open Core Prog

/-- Allocations succeed; socket calls may fail. -/
def allocOk (c : Call) (b : Bool) : Prop := c = .alloc → b = true

/-- The send buffer is as it was, or one frame without payload is queued. -/
def SendsControl (s t : Session) : Prop :=
  t.sendBuf = s.sendBuf ∨ ∃ type flags id len, type ≠ TYPE_DATA ∧
    t.sendBuf = s.sendBuf ++ hdrEncode type flags id len

/-! ## Calls that queue frames without payload -/

section SendsControl

variable {α : Type} {ok : Call → Bool → Prop} {id : UInt32} {N : Stream → Stream → Prop}

theorem SendsControl.refl (s : Session) : SendsControl s s := .inl rfl

theorem Touches.sendsControl {s t : Session} (h : Touches id N s t) : SendsControl s t := by
  cases h with
  | none | leave | stream => exact .inl rfl
  | send h flags i len => exact .inr ⟨_, flags, i, len, h, rfl⟩

theorem control_touches {p : Op α} (h : Acts ok (Touches id N) p) : Acts ok SendsControl p :=
  h.mono fun _ _ ht => ht.sendsControl

theorem Intake.sendsControl {g g' : Option UInt32} {s t : Session} (h : Intake s g t g') :
    SendsControl s t := by
  cases h with
  | handle h =>
    cases h with
    | pay h =>
      cases h with
      | touch h => exact h.sendsControl
      | input => exact .inl rfl
    | remote => exact .inl rfl
  | header | insert | queue | remove => exact .inl rfl

theorem control_sessionProcess : Acts ok SendsControl sessionProcess :=
  (@takesIn_sessionProcess ok none).toActs fun _ _ _ _ _ h => Intake.sendsControl h

theorem control_sessionOpen (tries : Nat) : Acts ok SendsControl (sessionOpen tries) :=
  changes_sessionOpen (fun _ => .inl rfl) (fun _ _ _ _ => .inl rfl) (fun _ _ => .inl rfl)
    (fun _ _ _ h => h.sendsControl) tries

theorem control_sessionAccept : Acts ok SendsControl sessionAccept :=
  changes_sessionAccept (fun _ => .inl rfl) fun _ _ _ h => h.sendsControl

end SendsControl

/-! ## `stream_write` -/

/-- What an action of the call `c` queues, with the payload that the thread owes before
and after it. -/
inductive SendStep (c : Api) : Option Bytes → Session → Session → Option Bytes → Prop where
  | quiet {owed : Option Bytes} {s t : Session} (h : t.sendBuf = s.sendBuf) :
      SendStep c owed s t owed
  | control {type : UInt8} {flags : UInt16} {id len : UInt32} {s t : Session}
      (htype : type ≠ TYPE_DATA) (h : t.sendBuf = s.sendBuf ++ hdrEncode type flags id len) :
      SendStep c none s t none
  /-- The header of a DATA frame, with the payload that is to follow. -/
  | header {flags : UInt16} {id max : UInt32} {data : Bytes} {s t : Session}
      (hc : c = .write id data) (hmax : max.toNat ≤ data.length)
      (h : t.sendBuf = s.sendBuf ++ hdrEncode TYPE_DATA flags id max) :
      SendStep c none s t (if max = 0 then none else some (data.take max.toNat))
  | payload {data : Bytes} {s t : Session} (h : t.sendBuf = s.sendBuf ++ data) :
      SendStep c (some data) s t none

section Follows

variable {α : Type} {c : Api} {owed : Option Bytes}

/-- The program of a call, by what it queues. -/
abbrev FollowsSend (c : Api) (p : Op α) (owed : Option Bytes) (Q : α → Option Bytes → Prop) :
    Prop :=
  Follows allocOk (SendStep c) none p owed Q

/-- Frames without payload leave nothing owed. -/
theorem follows_control {p : Op α} (hp : Acts allocOk SendsControl p) :
    FollowsSend c p none fun _ owed => owed = none := by
  refine .acts hp (fun s t h => ?_) fun _ => rfl
  rcases h with h | ⟨type, flags, id, len, htype, h⟩
  · exact .quiet h
  · exact .control htype h

/-- With memory `bio_write` writes all the bytes. -/
theorem follows_bioWrite (data : Bytes) :
    FollowsSend c (bioWrite data) owed fun r owed' =>
      owed' = owed ∧ r = (toInt32 data.length, data) := by
  have hnodes (fuel : Nat) : ∀ rest : Bytes, rest.length ≤ fuel →
      FollowsSend c (Bio.writeNodes fuel rest) owed fun r owed' =>
        owed' = owed ∧ r.1 = true ∧ r.2.flatten = rest := by
    induction fuel with
    | zero =>
      intro rest hlen
      exact ⟨rfl, rfl, (List.length_eq_zero_iff.mp (Nat.le_zero.mp hlen)).symm⟩
    | succ fuel ih =>
      intro rest hlen
      rw [Bio.writeNodes]
      split
      · rename_i h0
        exact ⟨rfl, rfl, h0.symm⟩
      · refine .query_bind fun mem hmem => ?_
        rw [hmem rfl, if_pos rfl]
        have hpos := List.length_pos_of_ne_nil ‹rest ≠ []›
        refine .bind (ih (rest.drop Bio.nodeSize) (by simp [Bio.nodeSize]; omega)) ?_
        rintro ⟨done, nodes⟩ _ ⟨rfl, rfl, hflat⟩
        refine ⟨rfl, rfl, ?_⟩
        rw [List.flatten_cons, hflat, List.take_append_drop]
  refine .bind (hnodes data.length data le_rfl) ?_
  rintro ⟨done, nodes⟩ _ ⟨rfl, rfl, hflat⟩
  exact ⟨rfl, by rw [if_pos rfl, hflat]⟩

/-- One call of `session_send_buf_write`. -/
theorem follows_sessionSendBufWrite {data : Bytes} {owed' : Option Bytes}
    (h : ∀ s t : Session, t.sendBuf = s.sendBuf ++ data → SendStep c owed s t owed') :
    FollowsSend c (sessionSendBufWrite data) owed fun r owed'' =>
      owed'' = owed' ∧ r = if toInt32 data.length = -1 then -1 else 0 := by
  refine .bind (follows_bioWrite data) ?_
  rintro ⟨r, written⟩ _ ⟨rfl, hr⟩
  obtain ⟨rfl, rfl⟩ := Prod.mk.inj hr
  exact .bind (Q := fun _ owed'' => owed'' = owed') (.modify (fun s => h s _ rfl) rfl)
    fun _ _ h => ⟨h, rfl⟩

/-- The header is followed by its payload. -/
theorem follows_streamWriteFrame (id : UInt32) (data : Bytes) (window : UInt32) :
    FollowsSend (.write id data) (streamWriteFrame id data window) none
      fun _ owed => owed = none := by
  refine .bind (follows_control (control_touches
    (touches_streamSendFlags (N := Stream.WrittenBy) fun _ => .flags))) ?_
  rintro flags _ rfl
  have hmax : (writeMax window data.length).toNat ≤ data.length := by
    unfold writeMax
    split
    · exact le_of_lt ‹_›
    · rw [UInt32.toNat_ofNat']
      exact Nat.mod_le _ _
  dsimp only
  generalize writeMax window data.length = max at hmax
  refine .bind (follows_sessionSendBufWrite fun s t h => .header rfl hmax h) ?_
  rintro r _ ⟨rfl, hr⟩
  have hzero : r = 0 := by
    rw [hr, length_hdrEncode, toInt32_eq (by decide)]
    rfl
  rw [hzero, if_neg (by decide)]
  refine .bind (@follows_sessionSendBufWrite _ _ _ none fun s t h => ?_) ?_
  · by_cases h0 : max = 0
    · subst h0
      rw [if_pos rfl]
      exact .quiet (h.trans (List.append_nil _))
    · rw [if_neg h0]
      exact .payload h
  · rintro r _ ⟨rfl, -⟩
    split
    · rfl
    · exact follows_control (control_touches (touches_streamWriteDebit _))

theorem follows_streamWrite (id : UInt32) (data : Bytes) :
    FollowsSend (.write id data) (streamWrite id data) none fun _ owed => owed = none := by
  have live : FollowsSend (.write id data) (do
      let window ← readStream [.send id] id Stream.sendWindow
      if window = 0 then do
        if ← readStream [] id Stream.nonblock then pure (-1)
        else do
          let selected ← query .sock
          if selected then do
            await fun s => (s.streams id).any Stream.writeable
            again
          else pure (-1)
      else streamWriteFrame id data window) none fun _ owed => owed = none := by
    refine .bind (follows_control (control_touches
      (touches_readStream (N := Stream.Notified) _ _))) ?_
    rintro window _ rfl
    split
    · exact follows_control (control_touches (touches_wait (N := Stream.Notified)))
    · exact follows_streamWriteFrame id data window
  refine .bind (follows_control (control_touches
    (touches_readStream (N := Stream.Notified) _ _))) ?_
  rintro state _ rfl
  cases state with
  | localClose | closed | reset => rfl
  | init | synSent | synReceived | established | remoteClose => exact live

end Follows

/-- The calls of the threads: all but the one that takes bytes out of the send buffer. -/
def Api.queues : Api → Prop
  | .sendBufConsume _ => False
  | _ => True

/-- Every call pays for the header that it queues. -/
theorem follows_code {c : Api} (hc : c.queues) :
    FollowsSend c c.code none fun _ owed => owed = none := by
  have control {α : Type} {p : Op α} (hp : Acts allocOk SendsControl p) :
      FollowsSend c (forget p) none fun _ owed => owed = none :=
    follows_control (.bind hp fun _ => .pure _)
  cases c with
  | sendBufConsume => exact hc.elim
  | recvBufWrite data =>
    exact control (.bind (acts_bioWrite _) fun _ => .bind (.modify fun _ => .inl rfl) fun _ =>
      .pure _)
  | process => exact control control_sessionProcess
  | sendBufPending => exact control (.read .refl)
  | sendBufPeek => exact control (.read .refl)
  | openStream tries => exact control (control_sessionOpen tries)
  | acceptStream => exact control control_sessionAccept
  | read id size => exact control (control_touches (touches_streamRead size))
  | goAway => exact control (control_touches (@touches_sessionGoAwayForReason _ 0 Stream.Notified _))
  | write id data =>
    refine .bind (follows_streamWrite id data) ?_
    rintro r _ rfl
    rfl

end Yamux
