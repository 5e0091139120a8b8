import Yamux.Network.Frames
import Yamux.Sequential.Extension

/-!
# Complete frames

What a frame does to a session that is between frames when all of it lies in the
receive buffer. It is stated without the header buffer, the count of bytes left
and the slices: frame by frame, and one stream at a time. The receive loop
refines it.
-/

namespace Yamux

open Core Prog

/-- A frame that belongs to a stream. -/
def Frame.OfStream (f : Frame) : Prop := f.type = TYPE_DATA ∨ f.type = TYPE_WINDOW_UPDATE

instance (f : Frame) : Decidable f.OfStream := inferInstanceAs (Decidable (_ ∨ _))

namespace Stream

/-- A stream that takes a payload. -/
def fill (st : Stream) (data : Bytes) : Stream :=
  { st with
    recvBuf := st.recvBuf ++ data
    recvWindow := st.recvWindow - UInt32.ofNat data.length
    readable := if data.length = 0 then st.readable else true }

/-- A stream that takes credit. -/
def refill (st : Stream) (len : UInt32) : Stream :=
  if len = 0 then st else { st with sendWindow := st.sendWindow + len, writeable := true }

/-- What a complete frame of its own does to a stream, `none` where it breaks the
protocol. -/
def absorb (st : Stream) (f : Frame) : Option Stream :=
  (st.processFlags f.flags).bind fun st =>
    if f.type = TYPE_DATA then
      if st.recvWindow < f.length then none else some (st.fill f.payload)
    else some (st.refill f.length)

end Stream

/-- Flags leave the windows and the buffer of a stream alone. -/
theorem Stream.processFlags_keeps {st st' : Stream} {flags : UInt16}
    (h : st.processFlags flags = some st') : st'.recvBuf = st.recvBuf ∧
      st'.recvWindow = st.recvWindow ∧ st'.sendWindow = st.sendWindow := by
  have hack : (st.processAck flags).recvBuf = st.recvBuf ∧
      (st.processAck flags).recvWindow = st.recvWindow ∧
      (st.processAck flags).sendWindow = st.sendWindow := by
    unfold processAck
    split
    · exact ⟨rfl, rfl, rfl⟩
    · exact ⟨rfl, rfl, rfl⟩
  obtain ⟨st₁, hfin, rfl⟩ := Option.map_eq_some_iff.mp h
  have hst₁ : st₁.recvBuf = (st.processAck flags).recvBuf ∧
      st₁.recvWindow = (st.processAck flags).recvWindow ∧
      st₁.sendWindow = (st.processAck flags).sendWindow := by
    unfold processFin at hfin
    split at hfin
    · split at hfin <;> cases hfin <;> exact ⟨rfl, rfl, rfl⟩
    · cases hfin
      exact ⟨rfl, rfl, rfl⟩
  rw [hack.1, hack.2.1, hack.2.2] at hst₁
  unfold processRst
  split
  · exact hst₁
  · exact hst₁

namespace Session

/-- The SYN flag of a frame. -/
def declare (s : Session) (f : Frame) : Option Session :=
  if hasFlag f.flags FLAG_SYN then
    if s.localGoAway then some (s.refuse f.id)
    else if (s.streams f.id).isSome then none
    else some (s.enroll f.id)
  else some s

/-- A frame after its SYN flag: it goes to its stream if there is one. -/
def engage (s : Session) (f : Frame) : Option Session :=
  match s.streams f.id with
  | none => some s
  | some st => (st.absorb f).map (s.setStream f.id)

/-- A complete frame, `none` where `session_process` fails. -/
def absorb (s : Session) (f : Frame) : Option Session :=
  if hdrVersion f.hdr ≠ VERSION then none
  else if f.OfStream then (s.declare f).bind fun t => t.engage f
  else if f.type = TYPE_PING then
    some (if hasFlag f.flags FLAG_SYN then s.queue (hdrEncode TYPE_PING FLAG_ACK 0 f.length) else s)
  else if f.type = TYPE_GO_AWAY ∧ f.length = GO_AWAY_NORMAL then
    some { s with remoteGoAway := true }
  else none

/-- The same session between frames, at another place of the input. -/
def between (s : Session) (hdr : Bytes) (remain : UInt32) (rest : Bytes) : Session :=
  { s with hdr := hdr, frameRemain := remain, recvBuf := rest, newFrame := true }

section Between

variable (s : Session) (f : Frame) (hdr rest : Bytes) (remain : UInt32)

@[simp] theorem between_streams : (s.between hdr remain rest).streams = s.streams := rfl
@[simp] theorem between_localGoAway :
    (s.between hdr remain rest).localGoAway = s.localGoAway := rfl
@[simp] theorem between_rcvbuf : (s.between hdr remain rest).rcvbuf = s.rcvbuf := rfl
@[simp] theorem between_newFrame : (s.between hdr remain rest).newFrame = true := rfl
@[simp] theorem between_recvBuf : (s.between hdr remain rest).recvBuf = rest := rfl

@[simp] theorem between_between (hdr' rest' : Bytes) (remain' : UInt32) :
    (s.between hdr' remain' rest').between hdr remain rest = s.between hdr remain rest := rfl

theorem declare_between : (s.between hdr remain rest).declare f =
    (s.declare f).map fun t => t.between hdr remain rest := by
  unfold declare
  rw [between_localGoAway, between_streams]
  split
  · split
    · rfl
    · split <;> rfl
  · rfl

theorem engage_between : (s.between hdr remain rest).engage f =
    (s.engage f).map fun t => t.between hdr remain rest := by
  unfold engage
  rw [between_streams]
  cases s.streams f.id with
  | none => rfl
  | some st =>
    dsimp only
    cases st.absorb f <;> rfl

/-- A frame does the same wherever the session stands in its input. -/
theorem absorb_between : (s.between hdr remain rest).absorb f =
    (s.absorb f).map fun t => t.between hdr remain rest := by
  unfold absorb
  split
  · rfl
  · split
    · rw [declare_between, Option.bind_map, Option.map_bind]
      congr 1
      funext t
      exact t.engage_between f hdr rest remain
    · split
      · split <;> rfl
      · split <;> rfl

theorem absorbs_between (fs : List Frame) : fs.foldlM absorb (s.between hdr remain rest) =
    (fs.foldlM absorb s).map fun t => t.between hdr remain rest := by
  induction fs generalizing s with
  | nil => rfl
  | cons f fs ih =>
    rw [List.foldlM_cons, List.foldlM_cons, absorb_between]
    cases s.absorb f with
    | none => rfl
    | some t => exact ih t

end Between

/-! ## The handlers -/

/-- A handler ends like the frame `o`, with `rest` as the remaining input. -/
def Entry.Ends (e : Entry) (rest : Bytes) : Option Session → Prop
  | none => e.finish.1 ≠ 0
  | some u => ∃ hdr remain, e.finish = (0, u.between hdr remain rest)

section Handlers

variable {s : Session} {f : Frame} {rest : Bytes}

theorem declare_syn (hhdr : s.hdr = f.hdr) :
    s.declare f = if s.syn.1 ≠ 0 then none else some s.syn.2 := by
  have hid : hdrStreamId s.hdr = f.id := by rw [hhdr, Frame.id]
  have hflags : hdrFlags s.hdr = f.flags := by rw [hhdr, Frame.flags]
  unfold declare syn
  rw [hid, hflags]
  dsimp only
  split
  · split
    · rfl
    · split <;> rfl
  · rfl

theorem between_self (hn : s.newFrame = true) (hb : s.recvBuf = rest) :
    s.between s.hdr s.frameRemain rest = s := by
  rw [between, ← hn, ← hb]

theorem ends_done (hn : s.newFrame = true) (hb : s.recvBuf = rest) :
    (Entry.done 0 s).Ends rest (some s) :=
  ⟨s.hdr, s.frameRemain, by rw [Entry.finish, between_self hn hb]⟩

theorem ends_failed (s : Session) (rest : Bytes) : (Entry.done (-1) s).Ends rest none :=
  (by decide : (-1 : Int) ≠ 0)

/-- A payload that lies complete in the input goes to its stream. -/
theorem payload_fill {st : Stream} (hhdr : s.hdr = f.hdr) (hst : s.streams f.id = some st)
    (hremain : s.frameRemain.toNat = f.payload.length) (hb : s.recvBuf = f.payload ++ rest) :
    ∃ remain, s.payload = (s.setStream f.id (st.fill f.payload)).between f.hdr remain rest := by
  have hid : hdrStreamId s.hdr = f.id := by rw [hhdr, Frame.id]
  have hmin : min s.frameRemain.toNat s.recvBuf.length = f.payload.length := by
    rw [hremain, hb, List.length_append]
    omega
  have hzero : s.frameRemain - UInt32.ofNat f.payload.length = 0 := by
    rw [← hremain, UInt32.ofNat_toNat, UInt32.sub_self]
  rw [payload_live (hid ▸ hst), hmin, hid]
  refine ⟨0, ?_⟩
  unfold closeFrame deliver received
  simp only [hzero, if_true, hb, List.take_left, List.drop_left, setStream_hdr, hhdr]
  rfl

/-- A payload of no stream is passed over. -/
theorem payload_pass (hhdr : s.hdr = f.hdr) (hst : s.streams f.id = none)
    (hremain : s.frameRemain.toNat = f.payload.length) (hb : s.recvBuf = f.payload ++ rest) :
    ∃ remain, s.payload = s.between f.hdr remain rest := by
  have hid : hdrStreamId s.hdr = f.id := by rw [hhdr, Frame.id]
  have hskip : skipped s.frameRemain.toNat s.recvBuf.length = f.payload.length := by
    rw [skipped_of_le ?_, hremain]
    rw [hremain, hb, List.length_append]
    omega
  have hzero : s.frameRemain - UInt32.ofNat f.payload.length = 0 := by
    rw [← hremain, UInt32.ofNat_toNat, UInt32.sub_self]
  rw [payload_skip (hid ▸ hst), hskip]
  refine ⟨0, ?_⟩
  unfold closeFrame skip
  simp only [hzero, if_true, hb, List.drop_left, hhdr]
  rfl

/-- A DATA frame after its SYN flag. -/
theorem dataHeader_ends (hn : s.newFrame = true) (hhdr : s.hdr = f.hdr)
    (hb : s.recvBuf = f.payload ++ rest) (htype : f.type = TYPE_DATA) :
    s.dataHeader.Ends rest (s.engage f) := by
  have hid : hdrStreamId s.hdr = f.id := by rw [hhdr, Frame.id]
  have hflags : hdrFlags s.hdr = f.flags := by rw [hhdr, Frame.flags]
  have hlen : hdrLength s.hdr = f.length := by rw [hhdr, Frame.length]
  have hremain : f.length.toNat = f.payload.length := (Frame.length_payload htype).symm
  unfold dataHeader engage
  rw [hid, hflags, hlen]
  cases hst : s.streams f.id with
  | none =>
    obtain ⟨remain, hpay⟩ := payload_pass (s := s.beginFrame f.length) hhdr hst hremain hb
    refine ⟨f.hdr, remain, ?_⟩
    rw [Entry.finish, hpay]
    rfl
  | some st =>
    dsimp only
    unfold Stream.absorb
    cases hflagged : st.processFlags f.flags with
    | none => exact ends_failed _ _
    | some st' =>
      dsimp only [Option.bind_some]
      rw [if_pos htype, admitData, hid]
      by_cases hz : f.length = 0
      · have hnil : f.payload = [] := by
          rw [← List.length_eq_zero_iff, ← hremain, hz]
          rfl
        have hroom : ¬ st'.recvWindow < f.length := by
          rw [hz]
          exact UInt32.not_lt_zero
        have hfill : st'.fill [] = st' := by simp [Stream.fill]
        rw [if_pos hz, if_neg hroom, hnil, hfill]
        rw [hnil, List.nil_append] at hb
        exact ends_done (s := s.setStream f.id st') hn hb
      · rw [if_neg hz]
        by_cases hroom : st'.recvWindow < f.length
        · rw [if_pos hroom, if_pos hroom]
          exact ends_failed _ _
        · rw [if_neg hroom, if_neg hroom]
          obtain ⟨remain, hpay⟩ := @payload_fill ((s.setStream f.id st').beginFrame f.length) f rest
            st' hhdr (setStream_same _ _ _) hremain hb
          refine ⟨f.hdr, remain, ?_⟩
          have hidem : ((s.setStream f.id st').beginFrame f.length).setStream f.id
              (st'.fill f.payload) =
              (s.setStream f.id (st'.fill f.payload)).beginFrame f.length := by
            rw [← s.setStream_setStream f.id st' (st'.fill f.payload)]
            rfl
          rw [Entry.finish, hpay, hidem]
          rfl

/-- A WINDOW_UPDATE frame after its SYN flag. -/
theorem updateHeader_ends (hn : s.newFrame = true) (hhdr : s.hdr = f.hdr) (hb : s.recvBuf = rest)
    (htype : f.type ≠ TYPE_DATA) : s.updateHeader.Ends rest (s.engage f) := by
  have hid : hdrStreamId s.hdr = f.id := by rw [hhdr, Frame.id]
  have hflags : hdrFlags s.hdr = f.flags := by rw [hhdr, Frame.flags]
  have hlen : hdrLength s.hdr = f.length := by rw [hhdr, Frame.length]
  unfold updateHeader engage
  rw [hid, hflags, hlen]
  cases hst : s.streams f.id with
  | none => exact ends_done hn hb
  | some st =>
    dsimp only
    unfold Stream.absorb
    cases hflagged : st.processFlags f.flags with
    | none => exact ends_failed _ _
    | some st' =>
      dsimp only [Option.bind_some]
      rw [if_neg htype]
      exact ends_done (s := s.setStream f.id (st'.refill f.length)) hn hb

/-- The handler of a frame that lies complete in the input. -/
theorem handle_ends (hn : s.newFrame = true) (hhdr : s.hdr = f.hdr)
    (hb : s.recvBuf = f.payload ++ rest) (hver : hdrVersion f.hdr = VERSION) :
    s.handle.Ends rest (s.absorb f) := by
  have htype : hdrType s.hdr = f.type := by rw [hhdr, Frame.type]
  have hlen : hdrLength s.hdr = f.length := by rw [hhdr, Frame.length]
  have hflags : hdrFlags s.hdr = f.flags := by rw [hhdr, Frame.flags]
  rw [absorb, if_neg (not_not_intro hver), handle, htype]
  by_cases hdata : f.type = TYPE_DATA
  · rw [if_pos hdata, if_pos (.inl hdata), handleData, if_pos hn, declare_syn hhdr]
    by_cases hr : s.syn.1 ≠ 0
    · rw [if_pos hr, if_pos hr]
      exact ends_failed _ _
    · rw [if_neg hr, if_neg hr]
      exact dataHeader_ends (by rw [syn_newFrame, hn]) (by rw [syn_hdr, hhdr])
        (by rw [syn_recvBuf, hb]) hdata
  · have hnil : f.payload = [] := Frame.payload_eq_nil hdata
    rw [hnil, List.nil_append] at hb
    rw [if_neg hdata]
    by_cases hupdate : f.type = TYPE_WINDOW_UPDATE
    · rw [if_pos hupdate, if_pos (.inr hupdate), handleUpdate, declare_syn hhdr]
      by_cases hr : s.syn.1 ≠ 0
      · rw [if_pos hr, if_pos hr]
        exact ends_failed _ _
      · rw [if_neg hr, if_neg hr]
        exact updateHeader_ends (by rw [syn_newFrame, hn]) (by rw [syn_hdr, hhdr])
          (by rw [syn_recvBuf, hb]) hdata
    · have hother : ¬ f.OfStream := not_or.mpr ⟨hdata, hupdate⟩
      rw [if_neg hupdate, if_neg hother]
      by_cases hping : f.type = TYPE_PING
      · rw [if_pos hping, if_pos hping, handlePing, hflags, hlen]
        split
        · exact ends_done (s := s.queue _) hn hb
        · exact ends_done hn hb
      · rw [if_neg hping, if_neg hping]
        by_cases hgo : f.type = TYPE_GO_AWAY
        · rw [if_pos hgo, handleGoAway, hlen]
          by_cases hnormal : f.length = GO_AWAY_NORMAL
          · rw [if_pos hnormal, if_pos ⟨hgo, hnormal⟩]
            exact ends_done (s := { s with remoteGoAway := true }) hn hb
          · rw [if_neg hnormal, if_neg fun h => hnormal h.2]
            exact ends_failed _ _
        · rw [if_neg hgo, if_neg fun h => hgo h.1]
          exact ends_failed _ _

end Handlers

end Session

open Session

/-! ## Rounds and calls -/

variable {s : Session} {f : Frame} {rest : Bytes}

/-- A round that starts in front of a complete frame. -/
theorem round_frame (hn : s.newFrame = true) (hb : s.recvBuf = f.hdr ++ (f.payload ++ rest)) :
    (s.absorb f = none ∧ ∃ t, s.round = (some (-1), t)) ∨
    ∃ u hdr remain, s.absorb f = some u ∧ s.round = (none, u.between hdr remain rest) := by
  have htake : s.recvBuf.take hdrSize = f.hdr := by
    rw [hb, List.take_left' f.hdr_length]
  have hdrop : s.recvBuf.drop hdrSize = f.payload ++ rest := by
    rw [hb, List.drop_left' f.hdr_length]
  have hlen : hdrSize ≤ s.recvBuf.length := by
    rw [hb, List.length_append, f.hdr_length]
    omega
  have hfed : ¬ s.Starved := by
    rintro (hnil | ⟨-, hlt⟩)
    · rw [hnil] at hlen
      exact absurd hlen (by decide)
    · omega
  have hheader : s.header = s.between f.hdr s.frameRemain (f.payload ++ rest) := by
    rw [header, between, htake, hdrop, ← hn]
  have hfront := front_new hfed hn
  by_cases hver : hdrVersion f.hdr = VERSION
  · have hends := @handle_ends s.header f rest hn (by rw [hheader]; rfl)
      (by rw [hheader]; rfl) hver
    rw [if_pos (by rw [hheader]; exact hver)] at hfront
    rw [hheader, absorb_between, ← hheader] at hends
    cases ha : s.absorb f with
    | none =>
      rw [ha] at hends
      refine .inl ⟨rfl, s.header.handle.finish.2, ?_⟩
      have hne : s.header.handle.finish.1 ≠ 0 := hends
      rw [round_some hfront, if_pos hne]
    | some u =>
      rw [ha] at hends
      obtain ⟨hdr, remain, hfin⟩ := hends
      refine .inr ⟨u, hdr, remain, rfl, ?_⟩
      rw [round_some hfront, hfin]
      rfl
  · rw [if_neg (by rw [hheader]; exact hver)] at hfront
    refine .inl ⟨by rw [absorb, if_pos hver], s.header, ?_⟩
    rw [round_some hfront]
    rfl

/-- A call on frames that lie complete in the input takes them one by one. -/
theorem processes_frames {fs : List Frame} (hn : s.newFrame = true)
    (hb : s.recvBuf = Frame.encode fs) :
    (fs.foldlM absorb s = none ∧ ∃ t, Processes s (-1) t) ∨
    ∃ u hdr remain, fs.foldlM absorb s = some u ∧ Processes s 0 (u.between hdr remain []) := by
  induction fs generalizing s with
  | nil =>
    refine .inr ⟨s, s.hdr, s.frameRemain, rfl, ?_⟩
    have hnil : s.recvBuf = [] := hb
    rw [between_self hn hnil]
    exact .exit (round_starved (.inl hnil))
  | cons f fs ih =>
    rw [Frame.encode_cons] at hb
    obtain ⟨ha, t, hr⟩ | ⟨u, hdr, remain, ha, hr⟩ := round_frame hn hb
    · refine .inl ⟨?_, t, .exit hr⟩
      rw [List.foldlM_cons, ha]
      rfl
    · have hfold : (f :: fs).foldlM absorb s = fs.foldlM absorb u := by
        rw [List.foldlM_cons, ha]
        rfl
      obtain ⟨hno, t, hp⟩ | ⟨v, hdr', remain', hyes, hp⟩ :=
        ih (s := u.between hdr remain (Frame.encode fs)) rfl rfl
      · rw [absorbs_between, Option.map_eq_none_iff] at hno
        exact .inl ⟨hfold.trans hno, t, .next hr hp⟩
      · rw [absorbs_between, Option.map_eq_some_iff] at hyes
        obtain ⟨w, hw, rfl⟩ := hyes
        exact .inr ⟨w, hdr', remain', hfold.trans hw, .next hr hp⟩

/-- `session_process` on frames that lie complete in the input succeeds exactly if
none of them breaks the protocol, and then does what they do one by one. -/
theorem exec_process_frames {fs : List Frame} (hn : s.newFrame = true)
    (hb : s.recvBuf = Frame.encode fs) (hlen : s.recvBuf.length < 2 ^ 31) :
    (fs.foldlM absorb s = none ∧ ∃ t, sessionProcess.exec s = (.ret (-1), t)) ∨
    ∃ u hdr remain, fs.foldlM absorb s = some u ∧
      sessionProcess.exec s = (.ret 0, u.between hdr remain []) := by
  have hok : s.RxOk := fun hf => absurd hf (by simp [hn])
  obtain ⟨r, t, he, hp⟩ := exec_sessionProcess hok hlen
  obtain ⟨hno, t', hp'⟩ | ⟨u, hdr, remain, hyes, hp'⟩ := processes_frames hn hb
  · obtain ⟨rfl, rfl⟩ := hp.unique hp'
    exact .inl ⟨hno, t, he⟩
  · obtain ⟨rfl, rfl⟩ := hp.unique hp'
    exact .inr ⟨u, hdr, remain, hyes, he⟩

/-- One frame that arrives complete at a session with nothing else to process. -/
theorem exec_process_frame (hn : s.newFrame = true) (hb : s.recvBuf = [])
    (hlen : f.bytes.length < 2 ^ 31) :
    (s.absorb f = none ∧ ∃ t, sessionProcess.exec (s.more f.bytes) = (.ret (-1), t)) ∨
    ∃ u hdr remain, s.absorb f = some u ∧
      sessionProcess.exec (s.more f.bytes) = (.ret 0, u.between hdr remain []) := by
  have hmore : s.more f.bytes = s.between s.hdr s.frameRemain f.bytes := by
    rw [more, between, hb, List.nil_append, ← hn]
  have hbuf : (s.more f.bytes).recvBuf = Frame.encode [f] := by
    rw [more_recvBuf, hb, List.nil_append, Frame.encode_cons, Frame.encode_nil, List.append_nil,
      Frame.bytes]
  have hfold : [f].foldlM absorb (s.more f.bytes) =
      (s.absorb f).map fun t => t.between s.hdr s.frameRemain f.bytes := by
    rw [hmore, absorbs_between, List.foldlM_cons]
    cases s.absorb f <;> rfl
  have hsmall : (s.more f.bytes).recvBuf.length < 2 ^ 31 := by
    rwa [more_recvBuf, hb, List.nil_append]
  obtain ⟨hno, t, he⟩ | ⟨u, hdr, remain, hyes, he⟩ :=
    exec_process_frames (s := s.more f.bytes) hn hbuf hsmall
  · rw [hfold, Option.map_eq_none_iff] at hno
    exact .inl ⟨hno, t, he⟩
  · rw [hfold, Option.map_eq_some_iff] at hyes
    obtain ⟨v, hv, rfl⟩ := hyes
    exact .inr ⟨v, hdr, remain, hv, he⟩

end Yamux
