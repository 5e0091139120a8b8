import Yamux.Native.Changes

/-!
# What the stream operations leave alone

The operations on a stream change the contents of streams, the send buffer and
the mark that the session is going away. They leave the input side, the id
counter, the accept queue and the set of streams as they are, whatever fails and
whoever interferes.
-/

namespace Yamux

open Core Prog

/-- At most the contents of streams, the send buffer and the go-away mark differ. -/
structure StreamsOnly (s t : Session) : Prop where
  remoteGoAway : t.remoteGoAway = s.remoteGoAway
  nextId : t.nextId = s.nextId
  newFrame : t.newFrame = s.newFrame
  frameRemain : t.frameRemain = s.frameRemain
  recvBuf : t.recvBuf = s.recvBuf
  hdr : t.hdr = s.hdr
  accepts : t.accepts = s.accepts
  domain : ∀ i, (t.streams i).isSome = (s.streams i).isSome

theorem StreamsOnly.refl (s : Session) : StreamsOnly s s :=
  ⟨rfl, rfl, rfl, rfl, rfl, rfl, rfl, fun _ => rfl⟩

theorem StreamsOnly.trans {s t u : Session} (h : StreamsOnly s t) (h' : StreamsOnly t u) :
    StreamsOnly s u :=
  ⟨h'.remoteGoAway.trans h.remoteGoAway, h'.nextId.trans h.nextId, h'.newFrame.trans h.newFrame,
    h'.frameRemain.trans h.frameRemain, h'.recvBuf.trans h.recvBuf, h'.hdr.trans h.hdr,
    h'.accepts.trans h.accepts, fun i => (h'.domain i).trans (h.domain i)⟩

/-- One action on behalf of a stream. -/
theorem Touches.streamsOnly {id : UInt32} {N : Stream → Stream → Prop} {s t : Session}
    (h : Touches id N s t) : StreamsOnly s t := by
  cases h with
  | none => exact .refl s
  | send => exact ⟨rfl, rfl, rfl, rfl, rfl, rfl, rfl, fun _ => rfl⟩
  | leave => exact ⟨rfl, rfl, rfl, rfl, rfl, rfl, rfl, fun _ => rfl⟩
  | stream hst h =>
    refine ⟨rfl, rfl, rfl, rfl, rfl, rfl, rfl, fun i => ?_⟩
    rw [Session.setStream_streams]
    split
    · subst i
      rw [hst]
      rfl
    · rfl

section Acts

variable {ok : Call → Bool → Prop}

theorem acts_sessionSendBufWrite (data : Bytes) :
    Acts ok StreamsOnly (sessionSendBufWrite data) :=
  .bind (acts_bioWrite data) fun _ =>
    .bind (.modify fun _ => ⟨rfl, rfl, rfl, rfl, rfl, rfl, rfl, fun _ => rfl⟩) fun _ => .pure _

theorem acts_sessionGoAwayForReason (reason : UInt32) :
    Acts ok StreamsOnly (sessionGoAwayForReason reason) :=
  .bind (.modify fun _ => ⟨rfl, rfl, rfl, rfl, rfl, rfl, rfl, fun _ => rfl⟩) fun _ =>
    .bind (acts_sessionSendBufWrite _) fun _ => .pure _

end Acts

end Yamux
