import Yamux.Receive.Absorption
import Yamux.Receive.Chunking

/-!
# Replies to frames

`session_process` answers a PING with SYN by a PING with ACK, refuses the streams that
are declared while the session is leaving, and reports a broken protocol with its last
frame. Nothing else is queued, and the answers come in the order of the frames.
-/

namespace Yamux

open Core Prog Session

/-! ## The headers of an input -/

/-- At most `fuel` headers from the front of a byte string. The payload of the last one
need not be complete. -/
def headersUpTo : Nat → Bytes → List Bytes
  | 0, _ => []
  | fuel + 1, b =>
    if b.length < hdrSize then []
    else b.take hdrSize ::
      headersUpTo fuel (b.drop (hdrSize + Frame.payloadSize (b.take hdrSize)))

/-- The headers of a byte string that starts with a frame. -/
def headers (b : Bytes) : List Bytes := headersUpTo b.length b

theorem headersUpTo_fuel {n m : Nat} {b : Bytes} (hn : b.length ≤ n) (hm : b.length ≤ m) :
    headersUpTo n b = headersUpTo m b := by
  induction n generalizing m b with
  | zero =>
    obtain rfl := List.length_eq_zero_iff.mp (Nat.le_zero.mp hn)
    cases m with
    | zero => rfl
    | succ m => exact (if_pos (by decide)).symm
  | succ n ih =>
    cases m with
    | zero =>
      obtain rfl := List.length_eq_zero_iff.mp (Nat.le_zero.mp hm)
      exact if_pos (by decide)
    | succ m =>
      simp only [headersUpTo]
      split
      · rfl
      · have hpos : 0 < hdrSize := by decide
        rw [ih (m := m) (by rw [List.length_drop]; omega) (by rw [List.length_drop]; omega)]

theorem headers_short {b : Bytes} (h : b.length < hdrSize) : headers b = [] := by
  unfold headers
  cases b.length with
  | zero => rfl
  | succ n => exact if_pos h

theorem headers_cons {b : Bytes} (h : hdrSize ≤ b.length) :
    headers b = b.take hdrSize ::
      headers (b.drop (hdrSize + Frame.payloadSize (b.take hdrSize))) := by
  have hpos : 0 < hdrSize := by decide
  obtain ⟨n, hn⟩ : ∃ n, b.length = n + 1 := ⟨b.length - 1, by omega⟩
  unfold headers
  rw [hn, headersUpTo, if_neg (by omega), headersUpTo_fuel _ le_rfl]
  rw [List.length_drop]
  omega

namespace Session

/-- The input from the next header on, with bytes that are still to come. -/
def incoming (s : Session) (more : Bytes) : Bytes :=
  (s.recvBuf ++ more).drop (if s.newFrame then 0 else s.frameRemain.toNat)

variable {s t u : Session}

theorem incoming_new (h : s.newFrame = true) (more : Bytes) :
    s.incoming more = s.recvBuf ++ more := by
  rw [incoming, h, if_pos rfl, List.drop_zero]

theorem incoming_mid (h : s.newFrame = false) (more : Bytes) :
    s.incoming more = (s.recvBuf ++ more).drop s.frameRemain.toNat := by
  rw [incoming, h, if_neg Bool.false_ne_true]

theorem incoming_more (s : Session) (data more : Bytes) :
    (s.more data).incoming more = s.incoming (data ++ more) := by
  unfold incoming Session.more
  rw [List.append_assoc]

/-- Nothing of the input that is there is a header. -/
theorem incoming_starved (h : s.Starved) : headers (s.incoming []) = [] := by
  rcases h with hnil | ⟨hn, hlt⟩
  · rw [incoming, hnil, List.append_nil, List.drop_nil]
    rfl
  · rw [incoming_new hn, List.append_nil, headers_short hlt]

/-- The payload of the frame in progress is for a live stream, or all of it is there. -/
def Held (s : Session) : Prop :=
  (s.streams (hdrStreamId s.hdr)).isSome ∨ s.frameRemain.toNat ≤ s.recvBuf.length

/-- Moving a payload does not lose count of the input. -/
theorem incoming_payload (hmid : s.newFrame = false) (hheld : s.Held) (more : Bytes) :
    s.payload.incoming more = s.incoming more := by
  have hmove {n : Nat} {t : Session} (ht : t.newFrame = false) (hb : t.recvBuf = s.recvBuf.drop n)
      (hr : t.frameRemain = s.frameRemain - UInt32.ofNat n) (hn : n ≤ s.frameRemain.toNat)
      (hlen : n ≤ s.recvBuf.length) : t.closeFrame.incoming more = s.incoming more := by
    have hremain : t.frameRemain.toNat = s.frameRemain.toNat - n := hr ▸ toNat_sub_ofNat hn
    have hcount : t.closeFrame.incoming more = (t.recvBuf ++ more).drop t.frameRemain.toNat := by
      unfold incoming closeFrame
      by_cases hz : t.frameRemain = 0
      · simp only [hz, if_true]
        rfl
      · simp only [hz, if_false, ht, Bool.false_eq_true]
    rw [hcount, incoming_mid hmid, hb, hremain, ← List.drop_append_of_le_length hlen,
      List.drop_drop]
    congr 1
    omega
  cases hst : s.streams (hdrStreamId s.hdr) with
  | some st =>
    rw [payload_live hst]
    exact hmove hmid rfl rfl (min_le_left _ _) (min_le_right _ _)
  | none =>
    have hall : s.frameRemain.toNat ≤ s.recvBuf.length := by
      rcases hheld with hlive | hall
      · rw [hst] at hlive
        cases hlive
      · exact hall
    rw [payload_skip hst, skipped_of_le hall]
    exact hmove hmid rfl rfl le_rfl hall

theorem payload_sends (s : Session) :
    s.payload.sendBuf = s.sendBuf ∧ s.payload.localGoAway = s.localGoAway := by
  unfold payload
  split
  · exact ⟨rfl, rfl⟩
  · exact ⟨rfl, rfl⟩

end Session

/-! ## The answer to a header -/

/-- The frames that answer a header, for a session that is leaving or not. -/
def reply (leaving : Bool) (hdr : Bytes) : List Frame :=
  if hdrVersion hdr ≠ VERSION ∨ hasFlag (hdrFlags hdr) FLAG_SYN = false then []
  else if hdrType hdr = TYPE_PING then
    [Frame.control TYPE_PING FLAG_ACK 0 (hdrLength hdr) (by decide)]
  else if leaving ∧ (hdrType hdr = TYPE_DATA ∨ hdrType hdr = TYPE_WINDOW_UPDATE) then
    [Frame.windowUpdate FLAG_RST (hdrStreamId hdr) 0]
  else []

/-- The frame that reports a broken protocol. -/
def complaint : Frame := Frame.control TYPE_GO_AWAY 0 0 GO_AWAY_PROTO_ERR (by decide)

namespace Session

/-- The stream that takes a frame: it exists, or the SYN of the frame creates it. -/
def taker (s : Session) (hdr : Bytes) : Option Stream :=
  match s.streams (hdrStreamId hdr) with
  | some st => some st
  | none =>
    if hasFlag (hdrFlags hdr) FLAG_SYN ∧ s.localGoAway = false then
      some (Stream.fresh .synReceived s.rcvbuf)
    else none

/-- A SYN of a stream that exists. -/
def Duplicate (s : Session) (hdr : Bytes) : Prop :=
  hasFlag (hdrFlags hdr) FLAG_SYN = true ∧ s.localGoAway = false ∧
    (s.streams (hdrStreamId hdr)).isSome

/-- A frame that breaks the protocol: a SYN of a stream that exists, a FIN in the wrong
state, or a payload for which there is no window. -/
def Violates (s : Session) (hdr : Bytes) : Prop :=
  hdrVersion hdr = VERSION ∧ (hdrType hdr = TYPE_DATA ∨ hdrType hdr = TYPE_WINDOW_UPDATE) ∧
    (s.Duplicate hdr ∨ ∃ st, s.taker hdr = some st ∧
      (st.processFlags (hdrFlags hdr) = none ∨
        (hdrType hdr = TYPE_DATA ∧ st.recvWindow < hdrLength hdr)))

/-- The last frames of a call that fails at this header. -/
def lastReply (s : Session) (hdr : Bytes) (fs : List Frame) : Prop :=
  (s.Violates hdr ∧ fs = reply s.localGoAway hdr ++ [complaint]) ∨
  (¬ s.Violates hdr ∧ fs = reply s.localGoAway hdr)

/-- What a handler has queued for the header of a new frame, and where it stands. -/
def Answered (s : Session) : Entry → Prop
  | .done r t =>
    (r = 0 ∧ t.newFrame = true ∧ t.recvBuf = s.recvBuf ∧ Frame.payloadSize s.hdr = 0 ∧
      t.localGoAway = s.localGoAway ∧
      t.sendBuf = s.sendBuf ++ Frame.encode (reply s.localGoAway s.hdr)) ∨
    (r = -1 ∧ ∃ fs, s.lastReply s.hdr fs ∧ t.sendBuf = s.sendBuf ++ Frame.encode fs)
  | .payload u =>
    u.newFrame = false ∧ u.recvBuf = s.recvBuf ∧ u.hdr = s.hdr ∧
      u.frameRemain = hdrLength s.hdr ∧ hdrType s.hdr = TYPE_DATA ∧
      u.localGoAway = s.localGoAway ∧
      u.sendBuf = s.sendBuf ++ Frame.encode (reply s.localGoAway s.hdr) ∧
      ((s.taker s.hdr).isSome → (u.streams (hdrStreamId s.hdr)).isSome)

/-- A frame that no handler reports. -/
theorem answers_failed {s t : Session} (h : ¬ s.Violates s.hdr)
    (hsend : t.sendBuf = s.sendBuf ++ Frame.encode (reply s.localGoAway s.hdr)) :
    s.Answered (.done (-1) t) :=
  .inr ⟨rfl, _, .inr ⟨h, rfl⟩, hsend⟩

/-- The end of a handler that reports a broken protocol. -/
theorem answers_complained {s t : Session} (h : s.Violates s.hdr)
    (hsend : t.sendBuf = s.sendBuf ++ Frame.encode (reply s.localGoAway s.hdr)) :
    s.Answered (.done (-1) (t.leave GO_AWAY_PROTO_ERR)) := by
  refine .inr ⟨rfl, _, .inl ⟨h, rfl⟩, ?_⟩
  rw [Frame.encode_append, ← List.append_assoc, ← hsend]
  rfl

/-- The SYN flag of a DATA or WINDOW_UPDATE frame: it breaks the protocol, or is
answered, and the frame goes to its taker. -/
theorem syn_answers {s : Session} (hver : hdrVersion s.hdr = VERSION)
    (htype : hdrType s.hdr = TYPE_DATA ∨ hdrType s.hdr = TYPE_WINDOW_UPDATE) :
    (s.Duplicate s.hdr ∧ s.syn = (-1, s.leave GO_AWAY_PROTO_ERR) ∧
      reply s.localGoAway s.hdr = []) ∨
    (¬ s.Duplicate s.hdr ∧ s.syn.1 = 0 ∧ s.syn.2.localGoAway = s.localGoAway ∧
      s.syn.2.sendBuf = s.sendBuf ++ Frame.encode (reply s.localGoAway s.hdr) ∧
      s.syn.2.streams (hdrStreamId s.hdr) = s.taker s.hdr) := by
  have hping : ¬ hdrType s.hdr = TYPE_PING := by
    rcases htype with h | h <;> rw [h] <;> decide
  have hreply : reply s.localGoAway s.hdr =
      if hasFlag (hdrFlags s.hdr) FLAG_SYN = true ∧ s.localGoAway = true then
        [Frame.windowUpdate FLAG_RST (hdrStreamId s.hdr) 0] else [] := by
    unfold reply
    by_cases hsyn : hasFlag (hdrFlags s.hdr) FLAG_SYN = true
    · simp [hver, hsyn, hping, htype]
    · simp [hsyn]
  rw [hreply]
  by_cases hsyn : hasFlag (hdrFlags s.hdr) FLAG_SYN = true
  · have hexec : s.syn = if s.localGoAway then (0, s.refuse (hdrStreamId s.hdr))
        else if (s.streams (hdrStreamId s.hdr)).isSome then (-1, s.leave GO_AWAY_PROTO_ERR)
        else (0, s.enroll (hdrStreamId s.hdr)) := if_pos hsyn
    by_cases hl : s.localGoAway = true
    · rw [hexec, if_pos hl, if_pos ⟨hsyn, hl⟩]
      refine .inr ⟨fun hd => ?_, rfl, rfl, rfl, ?_⟩
      · rw [hd.2.1] at hl
        cases hl
      · unfold taker
        rw [if_neg (fun hc => by rw [hc.2] at hl; cases hl)]
        change s.streams _ = _
        cases s.streams (hdrStreamId s.hdr) <;> rfl
    · have hno : ¬ (hasFlag (hdrFlags s.hdr) FLAG_SYN = true ∧ s.localGoAway = true) :=
        fun hc => hl hc.2
      rw [hexec, if_neg hl, if_neg hno]
      rw [Bool.not_eq_true] at hl
      cases hst : s.streams (hdrStreamId s.hdr) with
      | some st => exact .inl ⟨⟨hsyn, hl, by rw [hst]; rfl⟩, rfl, rfl⟩
      | none =>
        rw [if_neg (show ¬ (none : Option Stream).isSome = true by decide)]
        refine .inr ⟨fun hd => ?_, rfl, rfl, (List.append_nil _).symm, ?_⟩
        · have hlive := hd.2.2
          rw [hst] at hlive
          cases hlive
        · unfold taker
          rw [hst, if_pos ⟨hsyn, hl⟩]
          exact s.setStream_same _ _
  · have hexec : s.syn = (0, s) := if_neg hsyn
    rw [hexec, if_neg fun hc => hsyn hc.1]
    refine .inr ⟨fun hd => hsyn hd.1, rfl, rfl, (List.append_nil _).symm, ?_⟩
    unfold taker
    rw [if_neg fun hc => hsyn hc.1]
    cases s.streams (hdrStreamId s.hdr) <;> rfl

section Handlers

variable {s t : Session}

/-- A DATA header after its SYN flag. -/
theorem answered_dataHeader (hver : hdrVersion s.hdr = VERSION) (htype : hdrType s.hdr = TYPE_DATA)
    (hhdr : t.hdr = s.hdr) (hb : t.recvBuf = s.recvBuf) (hn : t.newFrame = true)
    (hl : t.localGoAway = s.localGoAway)
    (hsend : t.sendBuf = s.sendBuf ++ Frame.encode (reply s.localGoAway s.hdr))
    (htaker : t.streams (hdrStreamId s.hdr) = s.taker s.hdr) : s.Answered t.dataHeader := by
  unfold dataHeader
  rw [hhdr, htaker]
  cases hst : s.taker s.hdr with
  | none => exact ⟨rfl, hb, hhdr, rfl, htype, hl, hsend, by rw [hst]; exact fun h => nomatch h⟩
  | some st =>
    dsimp only
    cases hflags : st.processFlags (hdrFlags s.hdr) with
    | none => exact answers_complained ⟨hver, .inl htype, .inr ⟨st, hst, .inl hflags⟩⟩ hsend
    | some st' =>
      dsimp only [admitData]
      rw [hhdr]
      have hwindow := (Stream.processFlags_keeps hflags).2.1
      split
      · rename_i hz
        refine .inl ⟨rfl, hn, hb, ?_, hl, hsend⟩
        rw [Frame.payloadSize, if_pos htype, hz]
        rfl
      · split
        · rename_i hover
          rw [hwindow] at hover
          exact answers_complained (t := t.setStream _ st')
            ⟨hver, .inl htype, .inr ⟨st, hst, .inr ⟨htype, hover⟩⟩⟩ hsend
        · exact ⟨rfl, hb, hhdr, rfl, htype, hl, hsend, fun _ => by
            change ((t.setStream (hdrStreamId s.hdr) st').streams (hdrStreamId s.hdr)).isSome
            rw [setStream_same]
            rfl⟩

/-- A WINDOW_UPDATE header after its SYN flag. -/
theorem answered_updateHeader (hver : hdrVersion s.hdr = VERSION)
    (htype : hdrType s.hdr = TYPE_WINDOW_UPDATE) (hhdr : t.hdr = s.hdr)
    (hb : t.recvBuf = s.recvBuf) (hn : t.newFrame = true) (hl : t.localGoAway = s.localGoAway)
    (hsend : t.sendBuf = s.sendBuf ++ Frame.encode (reply s.localGoAway s.hdr))
    (htaker : t.streams (hdrStreamId s.hdr) = s.taker s.hdr) : s.Answered t.updateHeader := by
  have hsize : Frame.payloadSize s.hdr = 0 := by
    rw [Frame.payloadSize, htype]
    exact if_neg (by decide)
  unfold updateHeader
  rw [hhdr, htaker]
  cases hst : s.taker s.hdr with
  | none => exact .inl ⟨rfl, hn, hb, hsize, hl, hsend⟩
  | some st =>
    dsimp only
    cases hflags : st.processFlags (hdrFlags s.hdr) with
    | none => exact answers_complained ⟨hver, .inr htype, .inr ⟨st, hst, .inl hflags⟩⟩ hsend
    | some st' => exact .inl ⟨rfl, hn, hb, hsize, hl, hsend⟩

/-- The handler of a new frame. -/
theorem answered_handle (hver : hdrVersion s.hdr = VERSION) (hn : s.newFrame = true) :
    s.Answered s.handle := by
  have hreply (hno : ¬ (hdrType s.hdr = TYPE_DATA ∨ hdrType s.hdr = TYPE_WINDOW_UPDATE))
      (hping : hdrType s.hdr ≠ TYPE_PING) : reply s.localGoAway s.hdr = [] := by
    unfold reply
    split
    · rfl
    · exact if_neg fun hc => hno hc.2
  have hsize (hno : hdrType s.hdr ≠ TYPE_DATA) : Frame.payloadSize s.hdr = 0 := if_neg hno
  unfold handle
  by_cases hdata : hdrType s.hdr = TYPE_DATA
  · rw [if_pos hdata, handleData, if_pos hn]
    obtain ⟨hdup, hs, hr⟩ | ⟨-, hs, hl, hsend, htaker⟩ := syn_answers hver (.inl hdata)
    · rw [hs, if_pos (show (-1 : Int) ≠ 0 by decide)]
      exact answers_complained ⟨hver, .inl hdata, .inl hdup⟩
        (by rw [hr, Frame.encode_nil, List.append_nil])
    · rw [hs, if_neg (by decide)]
      exact answered_dataHeader hver hdata (syn_hdr s) (syn_recvBuf s)
        ((syn_newFrame s).trans hn) hl hsend htaker
  · rw [if_neg hdata]
    by_cases hupdate : hdrType s.hdr = TYPE_WINDOW_UPDATE
    · rw [if_pos hupdate, handleUpdate]
      obtain ⟨hdup, hs, hr⟩ | ⟨-, hs, hl, hsend, htaker⟩ := syn_answers hver (.inr hupdate)
      · rw [hs, if_pos (show (-1 : Int) ≠ 0 by decide)]
        exact answers_complained ⟨hver, .inr hupdate, .inl hdup⟩
          (by rw [hr, Frame.encode_nil, List.append_nil])
      · rw [hs, if_neg (by decide)]
        exact answered_updateHeader hver hupdate (syn_hdr s) (syn_recvBuf s)
          ((syn_newFrame s).trans hn) hl hsend htaker
    · have hno : ¬ (hdrType s.hdr = TYPE_DATA ∨ hdrType s.hdr = TYPE_WINDOW_UPDATE) :=
        not_or.mpr ⟨hdata, hupdate⟩
      have hlegal : ¬ s.Violates s.hdr := fun hv => hno hv.2.1
      rw [if_neg hupdate]
      by_cases hping : hdrType s.hdr = TYPE_PING
      · rw [if_pos hping, handlePing]
        by_cases hsyn : hasFlag (hdrFlags s.hdr) FLAG_SYN = true
        · rw [if_pos hsyn]
          refine .inl ⟨rfl, hn, rfl, hsize hdata, rfl, ?_⟩
          have hr : reply s.localGoAway s.hdr =
              [Frame.control TYPE_PING FLAG_ACK 0 (hdrLength s.hdr) (by decide)] := by
            unfold reply
            rw [if_neg (by simp [hver, hsyn]), if_pos hping]
          rw [hr]
          rfl
        · rw [if_neg hsyn]
          have hr : reply s.localGoAway s.hdr = [] := if_pos (.inr (Bool.eq_false_iff.mpr hsyn))
          exact .inl ⟨rfl, hn, rfl, hsize hdata, rfl,
            by rw [hr, Frame.encode_nil, List.append_nil]⟩
      · have hsend : s.sendBuf = s.sendBuf ++ Frame.encode (reply s.localGoAway s.hdr) := by
          rw [hreply hno hping, Frame.encode_nil, List.append_nil]
        rw [if_neg hping]
        split
        · unfold handleGoAway
          split
          · exact .inl ⟨rfl, hn, rfl, hsize hdata, rfl, hsend⟩
          · exact answers_failed hlegal hsend
        · exact answers_failed hlegal hsend

end Handlers

/-! ## Rounds -/

/-- A DATA frame whose header is read next is for a live stream or lies complete in the
input; so does the payload of the frame in progress. -/
def Whole (s : Session) : Prop :=
  if s.newFrame then
    hdrSize ≤ s.recvBuf.length → hdrType (s.recvBuf.take hdrSize) = TYPE_DATA →
      (s.taker (s.recvBuf.take hdrSize)).isSome ∨
        hdrSize + (hdrLength (s.recvBuf.take hdrSize)).toNat ≤ s.recvBuf.length
  else s.Held

/-- A step of the loop from `s` to `t` that has read the headers `hs` and answered them. -/
structure Advances (s : Session) (hs : List Bytes) (t : Session) : Prop where
  leaving : t.localGoAway = s.localGoAway
  input (more : Bytes) : headers (s.incoming more) = hs ++ headers (t.incoming more)
  sent : t.sendBuf = s.sendBuf ++ Frame.encode (hs.flatMap (reply s.localGoAway))

/-- The round that starts in `s` fails at a header, with its last answers. -/
def FailsAt (s : Session) (hdr : Bytes) (t : Session) : Prop :=
  s.newFrame = true ∧ hdrSize ≤ s.recvBuf.length ∧ s.recvBuf.take hdrSize = hdr ∧
    ∃ fs, s.lastReply hdr fs ∧ t.sendBuf = s.sendBuf ++ Frame.encode fs

section Rounds

variable {s t u : Session} {hs hs' : List Bytes}

theorem Advances.refl (s : Session) : s.Advances [] s :=
  ⟨rfl, fun _ => rfl, by rw [List.flatMap_nil, Frame.encode_nil, List.append_nil]⟩

theorem Advances.trans (h : s.Advances hs t) (h' : t.Advances hs' u) :
    s.Advances (hs ++ hs') u := by
  refine ⟨h'.leaving.trans h.leaving, fun more => ?_, ?_⟩
  · rw [h.input, h'.input, List.append_assoc]
  · rw [h'.sent, h.sent, h.leaving, List.flatMap_append, Frame.encode_append, List.append_assoc]

/-- The first round of a frame, once its header has been read. -/
theorem advances_header (hn : s.newFrame = true) (hlen : hdrSize ≤ s.recvBuf.length)
    (hl : t.localGoAway = s.localGoAway)
    (hinput : ∀ more, t.incoming more = ((s.recvBuf.drop hdrSize) ++ more).drop
      (Frame.payloadSize (s.recvBuf.take hdrSize)))
    (hsend : t.sendBuf = s.sendBuf ++
      Frame.encode (reply s.localGoAway (s.recvBuf.take hdrSize))) :
    s.Advances [s.recvBuf.take hdrSize] t := by
  refine ⟨hl, fun more => ?_, by rw [hsend, List.flatMap_singleton]⟩
  have hle : hdrSize ≤ (s.recvBuf ++ more).length := by
    rw [List.length_append]
    omega
  rw [incoming_new hn, headers_cons hle, List.take_append_of_le_length hlen, hinput,
    ← List.drop_append_of_le_length hlen, List.drop_drop]
  rfl

/-- A round waits for input, fails at a header, or answers what it has read. -/
theorem round_answers (hok : s.RxOk) (hw : s.Whole) :
    (s.round = (some 0, s) ∧ s.Starved) ∨
    (∃ t, s.round = (some (-1), t) ∧ s.FailsAt (s.recvBuf.take hdrSize) t) ∨
    ∃ t hs, s.round = (none, t) ∧ s.Advances hs t := by
  by_cases hstarved : s.Starved
  · exact .inl ⟨round_starved hstarved, hstarved⟩
  · refine .inr ?_
    cases hn : s.newFrame with
    | false =>
      have hhandle : s.handle = .payload s := by
        rw [handle, if_pos (hok hn).1, handleData, if_neg (by rw [hn]; decide)]
      have hheld : s.Held := by
        unfold Whole at hw
        rwa [hn, if_neg Bool.false_ne_true] at hw
      refine .inr ⟨s.payload, [], ?_, s.payload_sends.2, fun more => ?_, ?_⟩
      · rw [round_some (front_mid hstarved hn), hhandle]
        rfl
      · rw [incoming_payload hn hheld, List.nil_append]
      · rw [s.payload_sends.1, List.flatMap_nil, Frame.encode_nil, List.append_nil]
    | true =>
      have hlen : hdrSize ≤ s.recvBuf.length := hdrSize_le_of_not_starved hstarved hn
      have hfront := front_new hstarved hn
      by_cases hver : hdrVersion (s.recvBuf.take hdrSize) = VERSION
      · have hans := answered_handle (s := s.header) hver hn
        have hround := round_some (hfront.trans (if_pos hver))
        cases hhandle : s.header.handle with
        | done r t =>
          rw [hhandle] at hans hround
          obtain ⟨rfl, hn', hb, hsize, hl, hsend⟩ | ⟨rfl, fs, hlast, hsend⟩ := hans
          · refine .inr ⟨t, _, hround, advances_header hn hlen hl (fun more => ?_) hsend⟩
            rw [incoming_new hn', hb]
            change _ = List.drop (Frame.payloadSize s.header.hdr) _
            rw [hsize, List.drop_zero]
            rfl
          · exact .inl ⟨t, hround, hn, hlen, rfl, fs, hlast, hsend⟩
        | payload u =>
          rw [hhandle] at hans hround
          obtain ⟨hmid, hb, hhdr, hremain, hdata, hl, hsend, hlive⟩ := hans
          have hsize : Frame.payloadSize (s.recvBuf.take hdrSize) = u.frameRemain.toNat := by
            rw [hremain]
            exact if_pos hdata
          have hheld : u.Held := by
            unfold Whole at hw
            rw [hn, if_pos rfl] at hw
            rcases hw hlen hdata with htaker | hall
            · exact .inl (hhdr ▸ hlive htaker)
            · refine .inr ?_
              rw [hremain, hb, header]
              change (hdrLength (s.recvBuf.take hdrSize)).toNat ≤ (s.recvBuf.drop hdrSize).length
              rw [List.length_drop]
              omega
          refine .inr ⟨u.payload, _, hround, advances_header hn hlen ?_ (fun more => ?_) ?_⟩
          · exact u.payload_sends.2.trans hl
          · rw [incoming_payload hmid hheld, incoming_mid hmid, hb, hsize]
            rfl
          · exact u.payload_sends.1.trans hsend
      · have hround := round_some (hfront.trans (if_neg hver))
        have hreply : reply s.localGoAway (s.recvBuf.take hdrSize) = [] := if_pos (.inl hver)
        refine .inl ⟨s.header, hround, hn, hlen, rfl, [],
          .inr ⟨fun hv => hver hv.1, hreply.symm⟩, ?_⟩
        rw [Frame.encode_nil, List.append_nil]
        rfl

end Rounds

end Session

/-! ## Calls and chunks -/

section Calls

variable {s t x : Session} {r : Int}

/-- The starts of the rounds in which chunks are processed, one call for each. -/
def FedAt : List Bytes → Session → Session → Prop
  | [], _, _ => False
  | data :: rest, s, x => (s.more data).Passes x ∨
    ∃ t, Processes (s.more data) 0 t ∧ FedAt rest t x

/-- The headers that a call has read and answered, and the one at which it fails. -/
theorem processes_answers (h : Processes s r t) (hok : s.RxOk)
    (hlen : s.recvBuf.length < 2 ^ 31) (hw : ∀ x, s.Passes x → x.Whole) :
    (r = 0 ∧ t.Starved ∧ ∃ hs, s.Advances hs t) ∨
    (r = -1 ∧ ∃ x front hdr, s.Passes x ∧ processRound.exec x = (.ret (some (-1)), t) ∧
      s.Advances front x ∧ x.FailsAt hdr t) := by
  induction h with
  | @exit s t r hround =>
    obtain ⟨hr, hstarved⟩ | ⟨t', hr, hfails⟩ | ⟨t', hs, hr, -⟩ :=
      round_answers hok (hw s .start)
    · rw [hr] at hround
      cases hround
      exact .inl ⟨rfl, hstarved, [], .refl s⟩
    · rw [hr] at hround
      cases hround
      exact .inr ⟨rfl, s, [], _, .start, by rw [exec_processRound hok hlen, hr], .refl s, hfails⟩
    · rw [hr] at hround
      cases hround
  | @next s t u r hround h ih =>
    obtain ⟨hr, -⟩ | ⟨t', hr, -⟩ | ⟨t', hs, hr, hadv⟩ := round_answers hok (hw s .start)
    · rw [hr] at hround
      cases hround
    · rw [hr] at hround
      cases hround
    · rw [hr] at hround
      cases hround
      obtain ⟨hrx, hle, -⟩ := round_end hok hlen
      rw [hr] at hrx hle
      obtain ⟨rfl, hstarved, hs', hadv'⟩ | ⟨rfl, x, front, hdr, hx, hxr, hadv', hfails⟩ :=
        ih hrx (hle.trans_lt hlen) fun x hx => hw x (hx.cons hr)
      · exact .inl ⟨rfl, hstarved, hs ++ hs', hadv.trans hadv'⟩
      · exact .inr ⟨rfl, x, hs ++ front, hdr, hx.cons hr, hxr, hadv.trans hadv', hfails⟩

/-- What a session has queued at the end of feeding: the answers to all headers that
have been read, and after a failure those to the last one. -/
def FedReplies (s : Session) (input : Bytes) (cs : List Bytes) (r : Int) (t : Session) : Prop :=
  (r = 0 ∧ t.sendBuf = s.sendBuf ++
    Frame.encode ((headers (s.incoming input)).flatMap (reply s.localGoAway))) ∨
  (r = -1 ∧ ∃ x front hdr back fs, FedAt cs s x ∧ processRound.exec x = (.ret (some (-1)), t) ∧
    x.newFrame = true ∧ x.recvBuf.take hdrSize = hdr ∧ x.localGoAway = s.localGoAway ∧
    headers (s.incoming input) = front ++ hdr :: back ∧ x.lastReply hdr fs ∧
    t.sendBuf = s.sendBuf ++ Frame.encode (front.flatMap (reply s.localGoAway) ++ fs))

/-- The control frames that `session_process` emits. -/
theorem feed_replies {cs : List Bytes} (hok : s.RxOk) (hstarved : s.Starved)
    (hfed : ∀ x, FedAt cs s x → x.Whole ∧ x.recvBuf.length < 2 ^ 31) :
    ∃ r t rest, feed cs s = (.ret r, t, rest) ∧ FedReplies s cs.flatten cs r t := by
  induction cs generalizing s with
  | nil =>
    refine ⟨0, s, [], rfl, .inl ⟨rfl, ?_⟩⟩
    rw [List.flatten_nil, incoming_starved hstarved, List.flatMap_nil, Frame.encode_nil,
      List.append_nil]
  | cons data cs ih =>
    have hlen : (s.more data).recvBuf.length < 2 ^ 31 := (hfed _ (.inl .start)).2
    obtain ⟨r, t, -, hp⟩ := exec_sessionProcess (s := s.more data) hok hlen
    have hmore : s.incoming (data :: cs).flatten = (s.more data).incoming cs.flatten := by
      rw [List.flatten_cons, incoming_more]
    rw [feed_cons hok hlen hp]
    obtain ⟨rfl, ht, hs, hadv⟩ | ⟨rfl, x, front, hdr, hx, hround, hadv, hfails⟩ :=
      processes_answers hp hok hlen fun x hx => (hfed x (.inl hx)).1
    · rw [if_pos rfl]
      obtain ⟨hrx, -⟩ := hp.rxOk hok hlen
      obtain ⟨r, u, rest, he, hu⟩ := ih hrx ht fun x hx => hfed x (.inr ⟨t, hp, hx⟩)
      refine ⟨r, u, rest, he, ?_⟩
      rw [FedReplies, hmore, hadv.input]
      obtain ⟨rfl, hsent⟩ | ⟨rfl, x, front, hdr, back, fs, hx, hexec, hn, hhdr, hl, hheaders,
        hlast, hsent⟩ := hu
      · refine .inl ⟨rfl, ?_⟩
        rw [hsent, hadv.sent, hadv.leaving, List.flatMap_append, Frame.encode_append,
          List.append_assoc]
        rfl
      · refine .inr ⟨rfl, x, hs ++ front, hdr, back, fs, .inr ⟨t, hp, hx⟩, hexec, hn, hhdr,
          hl.trans hadv.leaving, ?_, hlast, ?_⟩
        · rw [hheaders, List.append_assoc]
        · rw [hsent, hadv.sent, hadv.leaving, List.flatMap_append, Frame.encode_append,
            Frame.encode_append, Frame.encode_append, List.append_assoc, List.append_assoc]
          rfl
    · obtain ⟨hn, hle, hhdr, fs, hlast, hsent⟩ := hfails
      have hcons : headers (x.incoming cs.flatten) = hdr ::
          headers ((x.recvBuf ++ cs.flatten).drop (hdrSize + Frame.payloadSize hdr)) := by
        have hlong : hdrSize ≤ (x.recvBuf ++ cs.flatten).length := by
          rw [List.length_append]
          omega
        rw [incoming_new hn, headers_cons hlong, List.take_append_of_le_length hle, hhdr]
      have hheads := hadv.input cs.flatten
      rw [hcons, ← hmore] at hheads
      rw [if_neg (by decide)]
      refine ⟨-1, t, _, rfl, .inr ⟨rfl, x, front, hdr, _, fs, .inl hx, hround, hn, hhdr,
        hadv.leaving, hheads, hlast, ?_⟩⟩
      rw [hsent, hadv.sent, Frame.encode_append, List.append_assoc]
      rfl

/-- A PING that is a reply is not answered. -/
theorem reply_pong (leaving leaving' : Bool) (hdr : Bytes) {f : Frame} (hf : f ∈ reply leaving hdr)
    (htype : f.type = TYPE_PING) : reply leaving' f.hdr = [] := by
  unfold reply at hf
  split at hf
  · cases hf
  · split at hf
    · obtain rfl := List.mem_singleton.mp hf
      refine if_pos (.inr ?_)
      rw [Frame.control, hdrFlags_hdrEncode]
      decide
    · split at hf
      · obtain rfl := List.mem_singleton.mp hf
        exact absurd htype (by change ¬ TYPE_WINDOW_UPDATE = TYPE_PING; decide)
      · cases hf

/-- The control frames that `session_process` emits are determined one for one by the
frames that it receives, whatever the chunks, and PINGs are not answered for ever. -/
theorem process_replies {cs : List Bytes} (hok : s.RxOk) (hstarved : s.Starved)
    (hfed : ∀ x, FedAt cs s x → x.Whole ∧ x.recvBuf.length < 2 ^ 31) :
    (∃ r t rest, feed cs s = (.ret r, t, rest) ∧ FedReplies s cs.flatten cs r t) ∧
    ∀ leaving leaving' hdr f, f ∈ reply leaving hdr → f.type = TYPE_PING →
      reply leaving' f.hdr = [] :=
  ⟨feed_replies hok hstarved hfed, fun leaving leaving' hdr _ hf htype =>
    reply_pong leaving leaving' hdr hf htype⟩

/-- The rounds of a call from the second one on. -/
theorem passes_cases (h : s.Passes x) : x = s ∨ ∃ t, s.round = (none, t) ∧ t.Passes x := by
  induction h with
  | start => exact .inl rfl
  | next h hr ih =>
    obtain rfl | ⟨t, ht, hpass⟩ := ih
    · exact .inr ⟨_, hr, .start⟩
    · exact .inr ⟨t, ht, hpass.next hr⟩

/-- A PING in two chunks. -/
def pingChunks : List Bytes :=
  [(hdrEncode TYPE_PING FLAG_SYN 0 7).take 5, (hdrEncode TYPE_PING FLAG_SYN 0 7).drop 5]

/-- It is answered. -/
theorem process_replies_ping : ∃ r t rest, feed pingChunks (sessionInit true 4096) =
    (.ret r, t, rest) ∧ FedReplies (sessionInit true 4096) pingChunks.flatten pingChunks r t := by
  have hstop {s x : Session} (hs : s.Starved) (hp : s.Passes x) : x = s := by
    obtain rfl | ⟨t, ht, -⟩ := passes_cases hp
    · rfl
    · rw [round_starved hs] at ht
      cases ht
  generalize hone : (sessionInit true 4096).more ((hdrEncode TYPE_PING FLAG_SYN 0 7).take 5) = one
  generalize htwo : one.more ((hdrEncode TYPE_PING FLAG_SYN 0 7).drop 5) = two
  have hstarved : one.Starved := by
    subst hone
    decide +kernel
  have hend : two.round.2.Starved ∧ two.round.2.Whole ∧ two.round.2.recvBuf.length < 2 ^ 31 := by
    subst htwo hone
    unfold Whole Held
    decide +kernel
  have hwhole : (one.Whole ∧ one.recvBuf.length < 2 ^ 31) ∧ two.Whole ∧
      two.recvBuf.length < 2 ^ 31 := by
    subst htwo hone
    unfold Whole Held
    decide +kernel
  have hrx : (sessionInit true 4096).RxOk := rxOk_sessionInit true 4096
  have hreplies := @process_replies (sessionInit true 4096) pingChunks hrx (.inl rfl)
  refine (hreplies fun x hx => ?_).1
  simp only [pingChunks, FedAt, hone] at hx
  obtain hx | ⟨t, hp, hx | ⟨t', -, hx⟩⟩ := hx
  · rw [hstop hstarved hx]
    exact hwhole.1
  · obtain ⟨-, rfl⟩ := hp.unique (processes_starved hstarved)
    rw [htwo] at hx
    obtain rfl | ⟨t, ht, hx⟩ := passes_cases hx
    · exact hwhole.2
    · have hsnd : x = two.round.2 := by
        rw [ht]
        rw [ht] at hend
        exact hstop hend.1 hx
      rw [hsnd]
      exact hend.2
  · exact hx.elim

end Calls

end Yamux
