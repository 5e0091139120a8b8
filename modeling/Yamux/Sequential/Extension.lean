import Yamux.Sequential.Rounds

/-!
# Rounds and input that is still to come

What a round of the receive loop does before the payload does not depend on the
input behind the header. A payload that lies complete in the input is moved the
same way whatever follows it, and one that does not is moved as far as it goes.
-/

namespace Yamux

open Core Prog

namespace Session

section More

variable (s : Session) (data : Bytes)

@[simp] theorem more_remoteGoAway : (s.more data).remoteGoAway = s.remoteGoAway := rfl
@[simp] theorem more_nextId : (s.more data).nextId = s.nextId := rfl
@[simp] theorem more_recvBuf : (s.more data).recvBuf = s.recvBuf ++ data := rfl
@[simp] theorem more_accepts : (s.more data).accepts = s.accepts := rfl
@[simp] theorem more_rcvbuf : (s.more data).rcvbuf = s.rcvbuf := rfl

end More

/-- More input behind what a handler has dealt with. -/
def Entry.more (data : Bytes) : Entry → Entry
  | .done r t => .done r (t.more data)
  | .payload t => .payload (t.more data)

section Front

variable {s : Session} (data : Bytes)

theorem hdrSize_le_of_not_starved (h : ¬ s.Starved) (hn : s.newFrame = true) :
    hdrSize ≤ s.recvBuf.length :=
  Nat.le_of_not_lt fun hl => h (.inr ⟨hn, hl⟩)

theorem dataHeader_payload {t : Session} (h : s.dataHeader = .payload t) :
    t.newFrame = false ∧ t.hdr = s.hdr ∧ t.recvBuf = s.recvBuf := by
  unfold dataHeader at h
  split at h
  · cases h
    exact ⟨rfl, rfl, rfl⟩
  · split at h
    · cases h
    · unfold admitData at h
      dsimp only at h
      split at h
      · cases h
      · split at h
        · cases h
        · cases h
          exact ⟨rfl, rfl, rfl⟩

theorem handleUpdate_ne_payload (t : Session) : s.handleUpdate ≠ .payload t := by
  unfold handleUpdate updateHeader
  split
  · nofun
  · split
    · nofun
    · split <;> nofun

/-- Only a DATA header leads to a payload. -/
theorem handle_payload {t : Session} (h : s.handle = .payload t) :
    t.newFrame = false ∧ hdrType s.hdr = TYPE_DATA ∧ t.hdr = s.hdr ∧ t.recvBuf = s.recvBuf := by
  unfold handle at h
  split at h
  · rename_i hd
    unfold handleData at h
    split at h
    · split at h
      · cases h
      · obtain ⟨hn, hh, hb⟩ := dataHeader_payload h
        exact ⟨hn, hd, hh.trans s.syn_hdr, hb.trans s.syn_recvBuf⟩
    · cases h
      exact ⟨Bool.eq_false_iff.mpr ‹_›, hd, rfl, rfl⟩
  · split at h
    · exact absurd h (handleUpdate_ne_payload t)
    · split at h
      · cases h
      · split at h
        · unfold handleGoAway at h
          split at h <;> cases h
        · cases h

/-- A round that goes on to a payload is in the middle of a DATA frame. -/
theorem front_payload {t : Session} (h : s.front = some (.payload t)) :
    t.newFrame = false ∧ hdrType t.hdr = TYPE_DATA ∧
      t.recvBuf.length ≤ s.recvBuf.length := by
  unfold front at h
  split at h
  · cases h
  · split at h
    · split at h
      · obtain ⟨hn, hd, hh, hb⟩ := handle_payload (Option.some.inj h)
        refine ⟨hn, hh ▸ hd, hb ▸ ?_⟩
        rw [header, List.length_drop]
        exact Nat.sub_le _ _
      · cases h
    · obtain ⟨hn, hd, hh, hb⟩ := handle_payload (Option.some.inj h)
      exact ⟨hn, hh ▸ hd, hb ▸ le_rfl⟩

end Front

/-! ## Payloads -/

section Payload

variable {t : Session} {st : Stream} (data : Bytes)

theorem payload_live (h : t.streams (hdrStreamId t.hdr) = some st) :
    t.payload = (t.deliver (hdrStreamId t.hdr) st
      (min t.frameRemain.toNat t.recvBuf.length)).closeFrame := by
  rw [payload, h]

theorem payload_skip (h : t.streams (hdrStreamId t.hdr) = none) :
    t.payload = (t.skip (skipped t.frameRemain.toNat t.recvBuf.length)).closeFrame := by
  rw [payload, h]

theorem skipped_le (remain len : Nat) : skipped remain len ≤ remain := min_le_left _ _

theorem min_le_skipped (remain len : Nat) : min remain len ≤ skipped remain len := by
  simp only [skipped, sliceSize]
  omega

theorem skipped_of_le {remain len : Nat} (h : remain ≤ len) : skipped remain len = remain :=
  le_antisymm (skipped_le _ _) (by have := min_le_skipped remain len; omega)

theorem skipped_zero (remain : Nat) : skipped remain 0 = 0 := by
  simp [skipped, sliceSize]

/-- Whole slices are skipped one after the other. -/
theorem skipped_add {remain len : Nat} (h : len ≤ remain) (hd : len % sliceSize = 0) (k : Nat) :
    skipped remain (len + k) = len + skipped (remain - len) k := by
  simp only [skipped, sliceSize] at hd ⊢
  omega

/-- Not all of a payload is there. -/
def Short (t : Session) : Prop := t.recvBuf.length < t.frameRemain.toNat

end Payload

end Session

end Yamux
