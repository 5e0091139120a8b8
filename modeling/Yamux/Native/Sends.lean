import Yamux.Native.Changes

/-!
# The headers that are queued

Every program but `stream_write` queues headers only. `Sends P` says that all of them
meet `P`; it is a preorder, so it sums up over the actions of a program.
-/

namespace Yamux

open Core Prog

/-- Only headers that meet `P` were queued. -/
def Session.Sends (P : Bytes → Prop) (s t : Session) : Prop :=
  ∃ hs : List Bytes, (∀ h ∈ hs, P h) ∧ t.sendBuf = s.sendBuf ++ hs.flatten

namespace Session.Sends

variable {P : Bytes → Prop} {s t u : Session}

theorem of_eq (h : t.sendBuf = s.sendBuf) : Sends P s t :=
  ⟨[], fun _ hh => absurd hh List.not_mem_nil, by rw [h, List.flatten_nil, List.append_nil]⟩

theorem of_header {h : Bytes} (hP : P h) (ht : t.sendBuf = s.sendBuf ++ h) : Sends P s t := by
  refine ⟨[h], fun data hdata => ?_, by rw [ht, List.flatten_singleton]⟩
  obtain rfl := List.mem_singleton.mp hdata
  exact hP

theorem refl (s : Session) : Sends P s s := .of_eq rfl

theorem trans (h : Sends P s t) (h' : Sends P t u) : Sends P s u := by
  obtain ⟨hs, hP, he⟩ := h
  obtain ⟨hs', hP', he'⟩ := h'
  refine ⟨hs ++ hs', fun h hh => ?_, by rw [he', he, List.flatten_append, List.append_assoc]⟩
  rcases List.mem_append.mp hh with hh | hh
  · exact hP h hh
  · exact hP' h hh

theorem mono {P' : Bytes → Prop} (hP : ∀ h, P h → P' h) (h : Sends P s t) : Sends P' s t := by
  obtain ⟨hs, hh, he⟩ := h
  exact ⟨hs, fun h hmem => hP h (hh h hmem), he⟩

end Session.Sends

open Session (Sends)

/-! ## Parts of the handlers -/

section Acts

variable {α : Type} {ok : Call → Bool → Prop} {P : Bytes → Prop} {id : UInt32}

theorem sends_header {type : UInt8} {flags : UInt16} {i len : UInt32}
    (h : P (hdrEncode type flags i len)) :
    Acts ok (Sends P) (sessionSendBufWrite (hdrEncode type flags i len)) :=
  changes_sendHeader type flags i len .refl fun _ => .of_header h rfl

theorem sends_sessionGoAwayForReason {reason : UInt32}
    (h : P (hdrEncode TYPE_GO_AWAY 0 0 reason)) :
    Acts ok (Sends P) (sessionGoAwayForReason reason) :=
  .bind (.modify fun _ => .of_eq rfl) fun _ => .bind (sends_header h) fun _ => .pure _

theorem sends_goAway_then {reason : UInt32} (h : P (hdrEncode TYPE_GO_AWAY 0 0 reason)) {p : Op α}
    (hp : Acts ok (Sends P) p) :
    Acts ok (Sends P) (sessionGoAwayForReason reason >>= fun _ => p) :=
  .bind (sends_sessionGoAwayForReason h) fun _ => hp

theorem sends_onStream {ms : List Mutex} {g : Stream → α × Stream} :
    Acts ok (Sends P) (onStream ms id g) := by
  intro s
  dsimp only
  cases s.streams id with
  | none => exact ⟨.refl s, trivial⟩
  | some st => exact ⟨.of_eq rfl, trivial⟩

theorem sends_streamReadableNotify : Acts ok (Sends P) (streamReadableNotify id) :=
  .bind (.query _) fun _ => sends_onStream

theorem sends_streamReadableWaiting : Acts ok (Sends P) (streamReadableWaiting id) :=
  .bind (.query _) fun _ => sends_onStream

theorem sends_streamWriteableNotify : Acts ok (Sends P) (streamWriteableNotify id) :=
  .bind (.query _) fun _ => .bind (.query _) fun _ => sends_onStream

theorem sends_streamWriteableWaiting : Acts ok (Sends P) (streamWriteableWaiting id) :=
  .bind (.query _) fun _ => .bind (.query _) fun _ => sends_onStream

section Internal

variable (hint : P (hdrEncode TYPE_GO_AWAY 0 0 GO_AWAY_INTERNAL_ERR))
include hint

theorem sends_deliverSlice (size : Nat) : Acts ok (Sends P) (deliverSlice id size) := by
  refine .bind (.read .refl) fun slice => .bind (.check _) fun _ => .bind (.acquire _) fun _ =>
    .bind (acts_bioWrite _) fun ⟨r, written⟩ => .bind sends_onStream fun _ => ?_
  split
  · exact sends_goAway_then hint (.bind (.release _) fun _ => .pure _)
  · refine .bind (.release _) fun _ => .bind sends_streamReadableNotify fun woken => ?_
    split
    · exact sends_goAway_then hint (.pure _)
    · exact .pure _

theorem sends_handlePayload (live : Bool) : Acts ok (Sends P) (handlePayload id live) := by
  refine .bind (.read .refl) fun remain => .bind (.loop ?_ _) fun r => ?_
  · refine .bind (.read .refl) fun remain => .bind (.read .refl) fun pending => ?_
    split
    · exact .pure _
    · refine .bind ?_ fun moved => ?_
      · split
        · exact sends_deliverSlice hint _
        · exact .pure _
      · cases moved with
        | none => exact .pure _
        | some r => exact .bind (.modify fun _ => .of_eq rfl) fun _ => .pure _
  · split
    · exact .pure _
    · exact .bind (.modify fun _ => .of_eq rfl) fun _ => .pure _

theorem sends_startPayload (live : Bool) (len : UInt32) :
    Acts ok (Sends P) (startPayload id live len) :=
  .bind (.modify fun _ => .of_eq rfl) fun _ => sends_handlePayload hint _

theorem sends_sessionHandlePing (hpong : ∀ len, P (hdrEncode TYPE_PING FLAG_ACK 0 len)) :
    Acts ok (Sends P) sessionHandlePing := by
  refine .bind (.read .refl) fun _ => .bind (.check _) fun _ => .bind (.read .refl) fun hdr => ?_
  split
  · refine .bind (sends_header (hpong _)) fun r => ?_
    split
    · exact sends_goAway_then hint (.pure _)
    · exact .pure _
  · exact .pure _

end Internal

theorem sends_sessionHandleGoAway : Acts ok (Sends P) sessionHandleGoAway := by
  refine .bind (.read .refl) fun _ => .bind (.check _) fun _ => .bind (.read .refl) fun code => ?_
  split
  · exact .bind (.modify fun _ => .of_eq rfl) fun _ => .pure _
  · exact .pure _

end Acts

end Yamux
