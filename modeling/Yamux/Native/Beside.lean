import Yamux.Native.Api
import Yamux.Native.Changes

/-!
# Work beside the streams

Many operations leave the streams and the frame in progress alone: they queue frames,
feed and drain the buffers, or take an id. What holds of the streams is kept by them.
-/

namespace Yamux

open Core Prog

/-- The streams and the frame in progress are as they were, and a session that is
leaving goes on doing so. -/
structure Beside (s t : Session) : Prop where
  streams : t.streams = s.streams
  newFrame : t.newFrame = s.newFrame
  frameRemain : t.frameRemain = s.frameRemain
  hdr : t.hdr = s.hdr
  rcvbuf : t.rcvbuf = s.rcvbuf
  leaving : s.localGoAway = true → t.localGoAway = true

namespace Beside

theorem refl (s : Session) : Beside s s := ⟨rfl, rfl, rfl, rfl, rfl, id⟩

theorem trans {s t u : Session} (h : Beside s t) (h' : Beside t u) : Beside s u :=
  ⟨h'.streams.trans h.streams, h'.newFrame.trans h.newFrame, h'.frameRemain.trans h.frameRemain,
    h'.hdr.trans h.hdr, h'.rcvbuf.trans h.rcvbuf, fun hl => h'.leaving (h.leaving hl)⟩

end Beside

/-- The frame in progress is as it was. -/
structure SameFrame (s t : Session) : Prop where
  newFrame : t.newFrame = s.newFrame
  frameRemain : t.frameRemain = s.frameRemain
  hdr : t.hdr = s.hdr

theorem SameFrame.refl (s : Session) : SameFrame s s := ⟨rfl, rfl, rfl⟩

theorem SameFrame.trans {s t u : Session} (h : SameFrame s t) (h' : SameFrame t u) :
    SameFrame s u :=
  ⟨h'.newFrame.trans h.newFrame, h'.frameRemain.trans h.frameRemain, h'.hdr.trans h.hdr⟩

theorem Touches.sameFrame {id : UInt32} {N : Stream → Stream → Prop} {s t : Session}
    (h : Touches id N s t) : SameFrame s t := by
  cases h <;> exact ⟨rfl, rfl, rfl⟩

section Acts

variable {α : Type} {ok : Call → Bool → Prop}

theorem beside_sessionSendBufWrite (data : Bytes) : Acts ok Beside (sessionSendBufWrite data) :=
  .bind (acts_bioWrite data) fun _ =>
    .bind (.modify fun _ => ⟨rfl, rfl, rfl, rfl, rfl, id⟩) fun _ => .pure _

theorem beside_sessionGoAwayForReason (reason : UInt32) :
    Acts ok Beside (sessionGoAwayForReason reason) :=
  .bind (.modify fun _ => ⟨rfl, rfl, rfl, rfl, rfl, fun _ => rfl⟩) fun _ =>
    .bind (beside_sessionSendBufWrite _) fun _ => .pure _

theorem beside_goAway_then (reason : UInt32) (a : α) : Acts ok Beside (do
    let _ ← sessionGoAwayForReason reason
    pure a : Op α) :=
  .bind (beside_sessionGoAwayForReason reason) fun _ => .pure _

theorem beside_sessionHandlePing : Acts ok Beside sessionHandlePing := by
  refine .bind (.read .refl) fun _ => .bind (.check _) fun _ => .bind (.read .refl) fun hdr => ?_
  split
  · refine .bind (beside_sessionSendBufWrite _) fun r => ?_
    split
    · exact beside_goAway_then _ _
    · exact .pure _
  · exact .pure _

theorem beside_sessionHandleGoAway : Acts ok Beside sessionHandleGoAway := by
  refine .bind (.read .refl) fun _ => .bind (.check _) fun _ => .bind (.read .refl) fun code => ?_
  split
  · exact .bind (.modify fun _ => ⟨rfl, rfl, rfl, rfl, rfl, id⟩) fun _ => .pure _
  · exact .pure _

theorem beside_takeId (tries : Nat) : Acts ok Beside (takeId tries) :=
  changes_takeId .refl (fun _ => ⟨rfl, rfl, rfl, rfl, rfl, id⟩) tries

/-- The calls that leave the streams alone. -/
def Api.IsBeside : Api → Prop
  | .recvBufWrite _ | .sendBufPending | .sendBufPeek _ | .sendBufConsume _ | .goAway => True
  | _ => False

theorem beside_code {c : Api} (hc : c.IsBeside) : Acts ok Beside c.code := by
  cases c with
  | recvBufWrite data =>
    exact .bind (.bind (acts_bioWrite _) fun _ =>
      .bind (.modify fun _ => ⟨rfl, rfl, rfl, rfl, rfl, id⟩) fun _ => .pure _) fun _ => .pure _
  | sendBufPending | sendBufPeek => exact .bind (.read .refl) fun _ => .pure _
  | sendBufConsume => exact .bind (.crit fun _ => ⟨rfl, rfl, rfl, rfl, rfl, id⟩) fun _ => .pure _
  | goAway => exact .bind (beside_sessionGoAwayForReason _) fun _ => .pure _
  | process | openStream | acceptStream | read | write => exact hc.elim

end Acts

end Yamux
