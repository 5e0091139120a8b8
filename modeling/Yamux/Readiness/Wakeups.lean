import Yamux.Readiness.Roles

/-!
# Wakeups between threads

Each side of a stream moves the data in one critical section and the mark in a later
one. As long as no section flips a mark for a state that has changed in between, the
marks are right whenever no call is in progress: each thread repairs its own half before
it returns. A section of another thread between the two may lose a wakeup.
-/

namespace Yamux

open Core Prog

/-! ## The threads one by one -/

section Threads

variable {id : UInt32} {i : Role}

/-- A thread that gives up leaves nothing to get right. -/
theorem works_sessionGoAwayForReason {P : Assertion} (hP : P.Stable i) (reason : UInt32) :
    i.Works id P (sessionGoAwayForReason reason) fun _ b _ => b = true := by
  refine .bind (Q := fun _ b _ => b = true) ?_ fun _ => ?_
  · refine Env.Triple.modify hP.has (Assertion.Stable.leaving i).has fun s hs => ?_
    obtain ⟨st, hst, -⟩ := hs
    exact ⟨fun st' hst' => ⟨st', hst', .leave i (fun _ => rfl) st'⟩, st, hst, rfl⟩
  · refine .bind (.acts (moves_beside (beside_sessionSendBufWrite _)) (.leaving i)
      fun _ st hb => .leaving i st hb) fun r => ?_
    exact .pure (.leaving i) fun _ _ hb => hb

/-- A reader gets its half of the readable mark right. -/
theorem works_streamReadableWaiting {P : Assertion} (hP : P.Stable .reader) :
    Role.reader.Works id P (streamReadableWaiting id) fun _ => ReadWaiting := by
  refine .query_bind fun io hio => .onStream hP (fun _ => .idle .reader) fun b st _ => ?_
  rw [hio rfl]
  cases hread : st.readable with
  | true =>
    rw [if_pos rfl, if_neg (by decide)]
    exact ⟨⟨fun hb => hb, fun hd => hd, rfl, rfl⟩, .inr fun hset => nomatch hset⟩
  | false =>
    rw [if_neg (by decide)]
    refine ⟨.leave .reader (fun hb => hb) st, .inr fun hset => ?_⟩
    rw [hread] at hset
    exact nomatch hset

/-- `stream_read` leaves its half of the readable mark right. -/
theorem works_streamRead (size : Nat) :
    Role.reader.Works id ReadWaiting (streamRead id size) fun _ => ReadWaiting := by
  have hidle : ReadWaiting.Stable .reader := .idle .reader
  have quiet {α : Type} {p : Op α} (hp : Acts socketsOk (Touches id Stream.WindowUpdated) p) :
      Role.reader.Works id ReadWaiting p fun _ => ReadWaiting :=
    .acts (moves_touches hp fun _ b _ _ h => h.alike.quiet .reader b) hidle fun _ _ h => h
  refine .bind (quiet touches_streamReadClosed) fun early => ?_
  cases early with
  | some r => exact .pure hidle fun _ _ h => h
  | none =>
    refine .bind (quiet (touches_readStream _ _)) fun r => ?_
    split
    · exact quiet touches_wait
    · -- what is taken may be all there is, until the mark is cleared
      refine .bind (Q := fun r b st => r.2.2 ≠ 0 → ReadWaiting b st)
        (.onStream hidle (fun r => hidle.imp _) fun b st hp => ?_) fun ⟨r, bytes, pending⟩ => ?_
      · refine ⟨⟨fun hb => hb, fun hd he => hd ?_, rfl, rfl⟩, fun hpending => .inr fun _ he => ?_⟩
        · change st.recvBuf.drop size = []
          rw [he, List.drop_nil]
        · refine hpending ?_
          dsimp only [Stream.take] at he ⊢
          rw [he, bioPending_nil]
      · refine .bind (Q := fun _ b st => pending ≠ 0 → ReadWaiting b st) ?_ fun _ => ?_
        · exact Env.Triple.mono (Env.Triple.check (hidle.imp _).has) (fun _ hs => hs)
            fun _ _ hs => hs.2
        · refine .bind (Q := fun _ => ReadWaiting) ?_ fun waiting => ?_
          · split
            · exact works_streamReadableWaiting (hidle.imp _)
            · rename_i hpending
              exact .pure (hidle.imp _) fun _ _ h => h hpending
          · split
            · exact .pure hidle fun _ _ h => h
            · exact .bind (quiet touches_sendWindowUpdate) fun _ => .pure hidle fun _ _ h => h

/-- A writer gets its half of the writeable mark right, or reports a failure. -/
theorem works_streamWriteableWaiting {P : Assertion} (hP : P.Stable .writer) :
    Role.writer.Works id P (streamWriteableWaiting id)
      fun r b st => r = 0 → WriteWaiting b st := by
  have hidle : WriteWaiting.Stable .writer := .idle .writer
  refine .query_bind fun mem _ => .query_bind fun io hio =>
    .onStream hP (fun _ => hidle.imp _) fun b st _ => ?_
  rw [hio rfl]
  have hsame : Role.writer.Guar b st b st := .leave .writer (fun hb => hb) st
  cases hwrite : st.writeable with
  | true =>
    rw [if_pos rfl]
    split
    · exact ⟨hsame, fun hr => nomatch hr⟩
    · rw [if_neg (by decide)]
      exact ⟨⟨fun hb => hb, fun hd => hd, rfl, rfl⟩, fun _ => .inr fun hset => nomatch hset⟩
  | false =>
    rw [if_neg (by decide)]
    refine ⟨hsame, fun _ => .inr fun hset => ?_⟩
    rw [hwrite] at hset
    exact nomatch hset

/-- The writer alone lowers the window, so it finds at least what it has seen. -/
def Seen (window : UInt32) : Assertion :=
  fun b st => WriteWaiting b st ∧ window.toNat ≤ st.sendWindow.toNat

theorem Seen.stable (window : UInt32) : (Seen window).Stable .writer :=
  fun _ _ _ _ h hr => ⟨hr.2.1 h.1, h.2.trans hr.2.2⟩

theorem works_streamWriteDebit {max window : UInt32} (hmax : max.toNat ≤ window.toNat) :
    Role.writer.Works id (Seen window) (streamWriteDebit id max) fun _ => WriteWaiting := by
  have hidle : WriteWaiting.Stable .writer := .idle .writer
  refine .bind (Q := fun w b st => w ≠ 0 → WriteWaiting b st)
    (.onStream (Seen.stable window) (fun w => hidle.imp _) fun b st hp => ?_) fun w => ?_
  · have hzero (h : st.sendWindow = 0) : st.sendWindow - max = 0 := by
      have hle := hmax.trans hp.2
      rw [h] at hle
      have hmax : max = 0 := UInt32.toNat_inj.mp (Nat.le_zero.mp hle)
      rw [h, hmax, UInt32.sub_self]
    dsimp only
    generalize st.sendWindow - max = w at hzero
    exact ⟨⟨fun hb => hb, fun hw h => hw (hzero h), rfl, rfl⟩, fun hw => .inr fun _ => hw⟩
  · refine .bind (Q := fun r b st => r = 0 → WriteWaiting b st) ?_ fun waiting => ?_
    · split
      · exact works_streamWriteableWaiting (hidle.imp _)
      · rename_i hw
        exact .pure (hidle.imp _) fun _ _ h _ => h hw
    · split
      · refine .bind ((works_sessionGoAwayForReason (hidle.imp _) _).post fun _ _ st hb =>
          Role.Idle.leaving .writer st hb) fun _ => .pure hidle fun _ _ h => h
      · rename_i hr
        exact .pure (hidle.imp _) fun _ _ h => h (not_not.mp hr)

theorem toNat_writeMax (window : UInt32) (n : Nat) :
    (writeMax window n).toNat ≤ window.toNat := by
  unfold writeMax
  split
  · exact Nat.le_refl _
  · rename_i h
    rw [UInt32.toNat_ofNat']
    exact (Nat.mod_le _ _).trans (not_lt.mp h)

/-- `stream_write` leaves its half of the writeable mark right. -/
theorem works_streamWrite (data : Bytes) :
    Role.writer.Works id WriteWaiting (streamWrite id data) fun _ => WriteWaiting := by
  have hidle : WriteWaiting.Stable .writer := .idle .writer
  have quiet {α : Type} {P : Assertion} {p : Op α} (hP : P.Stable .writer)
      (hI : ∀ b st, P b st → WriteWaiting b st)
      (hp : Acts socketsOk (Touches id Stream.WindowUpdated) p) :
      Role.writer.Works id P p fun _ => P :=
    .acts (moves_touches hp fun _ b _ _ h => h.alike.quiet .writer b) hP hI
  have frame (window : UInt32) : Role.writer.Works id (Seen window)
      (streamWriteFrame id data window) fun _ => WriteWaiting := by
    have send (data : Bytes) : Role.writer.Works id (Seen window) (sessionSendBufWrite data)
        fun _ => Seen window :=
      .acts (moves_beside (beside_sessionSendBufWrite data)) (Seen.stable window) fun _ _ h => h.1
    refine .bind (quiet (Seen.stable window) (fun _ _ h => h.1)
      (touches_streamSendFlags fun _ => .flags)) fun flags => .bind (send _) fun r => ?_
    split
    · exact .pure (Seen.stable window) fun _ _ h => h.1
    · refine .bind (send _) fun r => ?_
      split
      · exact .pure (Seen.stable window) fun _ _ h => h.1
      · exact works_streamWriteDebit (toNat_writeMax window data.length)
  have live : Role.writer.Works id WriteWaiting (do
      let window ← readStream [.send id] id Stream.sendWindow
      if window = 0 then do
        if ← readStream [] id Stream.nonblock then pure (-1)
        else do
          let selected ← query .sock
          if selected then do
            await fun s => (s.streams id).any Stream.writeable
            again
          else pure (-1)
      else streamWriteFrame id data window) fun _ => WriteWaiting := by
    refine .bind (Q := Seen) (.readStream hidle Seen.stable
      fun b st h => ⟨h, Nat.le_refl _⟩) fun window => ?_
    split
    · exact (quiet hidle (fun _ _ h => h) touches_wait).pre fun _ _ h => h.1
    · exact frame window
  refine .bind (quiet hidle (fun _ _ h => h) (touches_readStream _ _)) fun state => ?_
  cases state with
  | localClose | closed | reset => exact .pure hidle fun _ _ h => h
  | init | synSent | synReceived | established | remoteClose => exact live

/-! ### The receive thread -/

/-- The flags of a frame raise the marks of a stream and leave its data alone. -/
theorem Stream.Notified.quiet {st st' : Stream} (h : st.Notified st') (b : Bool) :
    Role.receiver.Quiet b st b st' := by
  cases h with
  | state | readable | writeable =>
    refine ⟨⟨fun hb => hb, fun hd => hd⟩, fun hb => hb, ?_, ?_⟩ <;>
      first
        | exact fun h => h
        | exact fun _ => .inr fun _ => rfl

theorem moves_notified {α : Type} {j : UInt32} {p : Op α}
    (hp : Acts socketsOk (Touches j Stream.Notified) p) :
    Acts socketsOk (Moves id Role.receiver.Quiet) p :=
  moves_touches hp fun _ b _ _ h => h.quiet b

/-- A stream is put into the tree beside those that are there. -/
theorem moves_streamNew (j : UInt32) (state : StreamState) :
    Acts socketsOk (Moves id i.Quiet) (streamNew j state) := by
  refine .bind (.query _) fun _ => .bind (.query _) fun _ => .bind (.query _) fun _ =>
    .bind (.query _) fun _ => ?_
  split
  · refine .bind (.read fun s => .of_streams rfl fun hb => hb) fun padding =>
      .bind (.bind (.crit fun s st hst => ?_) fun _ => .check _) fun _ => .pure _
    split
    · exact ⟨st, hst, .leave i (fun hb => hb) st⟩
    · rename_i hnone
      have hne : id ≠ j := by
        rintro rfl
        rw [hst] at hnone
        exact hnone rfl
      exact ⟨st, (s.setStream_of_ne j _ hne).trans hst, .leave i (fun hb => hb) st⟩
  · exact .pure _

theorem moves_incomingStream : Acts socketsOk (Moves id i.Quiet) incomingStream := by
  have same (s : Session) : Moves id i.Quiet s s := .of_streams rfl fun hb => hb
  have leave (reason : UInt32) : Acts socketsOk (Moves id i.Quiet) (do
      let _ ← sessionGoAwayForReason reason
      pure (-1) : Op Int) :=
    moves_beside (beside_goAway_then reason _)
  refine .bind (.read same) fun _ => .bind (.check _) fun _ => .bind (.read same) fun j =>
    .bind (.read same) fun leaving => ?_
  split
  · exact .bind (moves_beside (beside_sessionSendBufWrite _)) fun _ => .pure _
  · refine .bind (.read same) fun known => ?_
    split
    · exact leave _
    · refine .bind (moves_streamNew j _) fun created => ?_
      split
      · -- the socket pair takes the id, so the stream is not freed again
        intro io hio
        rw [hio rfl]
        exact fun s => ⟨.of_streams rfl fun hb => hb, trivial⟩
      · exact leave _

/-- What keeps the marks quiet keeps them right. -/
theorem works_quiet {α : Type} {p : Op α} (hp : Acts socketsOk (Moves id i.Quiet) p) :
    i.Works id i.Idle p fun _ => i.Idle :=
  .acts hp (.idle i) fun _ _ h => h

/-- The end of a call that gives up. -/
theorem works_goAway_then {α : Type} {P : Assertion} (hP : P.Stable i) (reason : UInt32) (a : α) :
    i.Works id P (do
      let _ ← sessionGoAwayForReason reason
      pure a) fun _ => i.Idle :=
  .bind (works_sessionGoAwayForReason hP reason) fun _ =>
    .pure (.leaving i) fun _ st hb => .leaving i st hb

theorem ReadNotified.stable : ReadNotified.Stable .receiver := fun _ _ _ _ h hr => hr.2.1 h

theorem WriteNotified.stable : WriteNotified.Stable .receiver := fun _ _ _ _ h hr => hr.2.2 h

/-- The receive thread notifies readers, or reports a failure. -/
theorem works_streamReadableNotify {P : Assertion} (hP : P.Stable .receiver)
    (hset : ∀ b st, P b st → P b { st with readable := true }) :
    Role.receiver.Works id P (streamReadableNotify id)
      fun _ b st => P b st ∧ ReadNotified b st := by
  refine .query_bind fun io hio => .onStream hP (fun _ => hP.and ReadNotified.stable)
    fun b st hp => ?_
  rw [hio rfl]
  cases hread : st.readable with
  | true =>
    rw [if_pos rfl]
    exact ⟨.leave .receiver (fun hb => hb) st, hp, .inr fun _ => hread⟩
  | false =>
    rw [if_neg (by decide), if_neg (by decide)]
    exact ⟨⟨fun hb => hb, fun hd => hd⟩, hset b st hp, .inr fun _ => rfl⟩

/-- The receive thread notifies writers, or reports a failure. -/
theorem works_streamWriteableNotify :
    Role.receiver.Works id ReadNotified (streamWriteableNotify id)
      fun r b st => ReadNotified b st ∧ (r = 0 → WriteNotified b st) := by
  refine .query_bind fun mem _ => .query_bind fun io hio => .onStream ReadNotified.stable
    (fun _ => ReadNotified.stable.and (WriteNotified.stable.imp _)) fun b st hp => ?_
  rw [hio rfl]
  cases hwrite : st.writeable with
  | true =>
    rw [if_pos rfl]
    exact ⟨.leave .receiver (fun hb => hb) st, hp, fun _ => .inr fun _ => hwrite⟩
  | false =>
    rw [if_neg (by decide)]
    split
    · exact ⟨.leave .receiver (fun hb => hb) st, hp, fun hr => nomatch hr⟩
    · rw [if_neg (by decide)]
      exact ⟨⟨fun hb => hb, fun hd => hd⟩, hp, fun _ => .inr fun _ => rfl⟩

/-- A slice is followed by a notification, or by a go away. -/
theorem works_deliverSlice (size : Nat) :
    Role.receiver.Works id Role.receiver.Idle (deliverSlice id size)
      fun _ => Role.receiver.Idle := by
  have same (s : Session) : Moves id Role.receiver.Quiet s s := .of_streams rfl fun hb => hb
  refine .bind (works_quiet (.read same)) fun slice => .bind (works_quiet (.check _)) fun _ =>
    .bind (works_quiet (.acquire _)) fun _ => .bind (works_quiet (acts_bioWrite _))
      fun ⟨r, written⟩ => .bind (Q := fun _ => WriteNotified) ?_ fun _ => ?_
  · refine .onStream (.idle .receiver) (fun _ => WriteNotified.stable) fun b st hp =>
      ⟨⟨fun hb => hb, fun hd he => hd ?_⟩, hp.2⟩
    exact (List.append_eq_nil_iff.mp he).1
  · split
    · refine .bind (works_sessionGoAwayForReason WriteNotified.stable _) fun _ =>
        .bind (Q := fun _ b _ => b = true) ?_ fun _ => ?_
      · exact Env.Triple.release (Assertion.Stable.leaving _).has
      · exact .pure (.leaving _) fun _ st hb => .leaving _ st hb
    · refine .bind (Q := fun _ => WriteNotified) (Env.Triple.release WriteNotified.stable.has)
        fun _ => .bind (works_streamReadableNotify WriteNotified.stable fun _ _ h => h)
          fun woken => ?_
      split
      · exact works_goAway_then (WriteNotified.stable.and ReadNotified.stable) _ _
      · exact .pure (WriteNotified.stable.and ReadNotified.stable) fun _ _ h => ⟨h.2, h.1⟩

/-- A payload of this stream, or of another one. -/
theorem works_handlePayload (j : UInt32) (live : Bool) :
    Role.receiver.Works id Role.receiver.Idle (handlePayload j live)
      fun _ => Role.receiver.Idle := by
  by_cases hj : j = id
  · subst hj
    have same (s : Session) : Moves j Role.receiver.Quiet s s := .of_streams rfl fun hb => hb
    have hidle : Role.receiver.Idle.Stable .receiver := .idle .receiver
    have hround : Role.receiver.Works j Role.receiver.Idle (payloadRound j live)
        fun _ => Role.receiver.Idle := by
      refine .bind (works_quiet (.read same)) fun remain =>
        .bind (works_quiet (.read same)) fun pending => ?_
      split
      · exact .pure hidle fun _ _ h => h
      · refine .bind (Q := fun _ => Role.receiver.Idle) ?_ fun moved => ?_
        · split
          · exact works_deliverSlice _
          · exact .pure hidle fun _ _ h => h
        · cases moved with
          | none => exact .pure hidle fun _ _ h => h
          | some r =>
            exact .bind (works_quiet (.modify fun s => .of_streams rfl fun hb => hb)) fun _ =>
              .pure hidle fun _ _ h => h
    refine .bind (works_quiet (.read same)) fun remain =>
      .bind (Q := fun _ => Role.receiver.Idle) ?_ fun r => ?_
    · exact Env.Triple.loop hidle.has (fun _ hs => hs) (fun _ => hidle.has)
        (Env.Triple.mono hround (fun _ hs => hs) fun o _ hs => by cases o <;> exact hs) _
    · split
      · exact .pure hidle fun _ _ h => h
      · exact .bind (works_quiet (.modify fun s => .of_streams rfl fun hb => hb)) fun _ =>
          .pure hidle fun _ _ h => h
  · refine works_quiet ((pays_handlePayload live).mono fun _ _ h => h.moves fun he => ?_)
    exact absurd he hj

theorem works_startPayload (j : UInt32) (live : Bool) (len : UInt32) :
    Role.receiver.Works id Role.receiver.Idle (startPayload j live len)
      fun _ => Role.receiver.Idle :=
  .bind (works_quiet (.modify fun _ => .of_streams rfl fun hb => hb)) fun _ =>
    works_handlePayload j live

theorem works_handleDataHeader :
    Role.receiver.Works id Role.receiver.Idle handleDataHeader fun _ => Role.receiver.Idle := by
  have same (s : Session) : Moves id Role.receiver.Quiet s s := .of_streams rfl fun hb => hb
  have hidle : Role.receiver.Idle.Stable .receiver := .idle .receiver
  refine .bind (works_quiet (.read same)) fun hdr => .bind (works_quiet (.read same)) fun live => ?_
  split
  · refine .bind (works_quiet (moves_notified (touches_streamProcessFlags _))) fun r => ?_
    split
    · exact works_goAway_then hidle _ _
    · split
      · exact .pure hidle fun _ _ h => h
      · refine .bind (works_quiet (.acquire _)) fun _ =>
          .bind (works_quiet (moves_notified (touches_readStream _ _))) fun window => ?_
        split
        · exact .bind (works_quiet (moves_beside (beside_sessionGoAwayForReason _))) fun _ =>
            .bind (works_quiet (.release _)) fun _ => .pure hidle fun _ _ h => h
        · exact .bind (works_quiet (.release _)) fun _ => works_startPayload _ _ _
  · exact works_startPayload _ _ _

/-- The SYN flag of a frame. -/
theorem moves_synFlag (hdr : Bytes) : Acts socketsOk (Moves id i.Quiet)
    (if hasFlag (hdrFlags hdr) FLAG_SYN then incomingStream else pure 0) := by
  split
  · exact moves_incomingStream
  · exact .pure _

theorem works_sessionHandleData :
    Role.receiver.Works id Role.receiver.Idle sessionHandleData fun _ => Role.receiver.Idle := by
  have same (s : Session) : Moves id Role.receiver.Quiet s s := .of_streams rfl fun hb => hb
  refine .bind (works_quiet (.read same)) fun newFrame =>
    .bind (works_quiet (.read same)) fun hdr => ?_
  split
  · refine .bind (works_quiet (moves_synFlag hdr)) fun r => ?_
    split
    · exact .pure (.idle _) fun _ _ h => h
    · exact works_handleDataHeader
  · exact .bind (works_quiet (.read same)) fun live => works_handlePayload _ _

/-- Credit for this stream, or for another one, and the notification that follows it. -/
theorem works_credit (j : UInt32) (f : Stream → Stream)
    (hf : ∀ st, ∃ window, f st = { st with sendWindow := window }) :
    Role.receiver.Works id Role.receiver.Idle (do
      modifyStream [.send j] j f
      let woken ← streamWriteableNotify j
      if woken ≠ 0 then do
        let _ ← sessionGoAwayForReason GO_AWAY_INTERNAL_ERR
        pure (-1)
      else pure 0) fun _ => Role.receiver.Idle := by
  by_cases hj : j = id
  · subst hj
    refine .bind (Q := fun _ => ReadNotified) ?_ fun _ =>
      .bind works_streamWriteableNotify fun woken => ?_
    · refine .onStream (.idle .receiver) (fun _ => ReadNotified.stable) fun b st hp => ?_
      obtain ⟨window, hw⟩ := hf st
      rw [hw]
      exact ⟨⟨fun hb => hb, fun hd => hd⟩, hp.1⟩
    · split
      · exact works_goAway_then (ReadNotified.stable.and (WriteNotified.stable.imp _)) _ _
      · rename_i hr
        exact .pure (ReadNotified.stable.and (WriteNotified.stable.imp _))
          fun _ _ h => ⟨h.1, h.2 (not_not.mp hr)⟩
  · have other {α : Type} {p : Op α} (hp : Acts socketsOk (Touches j fun _ _ => True) p) :
        Role.receiver.Works id Role.receiver.Idle p fun _ => Role.receiver.Idle :=
      works_quiet (moves_touches hp fun he => absurd he hj)
    refine .bind (other (touches_onStream _ _ fun _ => .inr trivial)) fun _ =>
      .bind (other (touches_streamWriteableNotify fun _ => trivial)) fun woken => ?_
    split
    · exact works_goAway_then (.idle _) _ _
    · exact .pure (.idle _) fun _ _ h => h

theorem works_sessionHandleWindowUpdate :
    Role.receiver.Works id Role.receiver.Idle sessionHandleWindowUpdate
      fun _ => Role.receiver.Idle := by
  have same (s : Session) : Moves id Role.receiver.Quiet s s := .of_streams rfl fun hb => hb
  have hidle : Role.receiver.Idle.Stable .receiver := .idle .receiver
  refine .bind (works_quiet (.read same)) fun _ => .bind (works_quiet (.check _)) fun _ =>
    .bind (works_quiet (.read same)) fun hdr => .bind (works_quiet (moves_synFlag hdr)) fun r => ?_
  split
  · exact .pure hidle fun _ _ h => h
  · refine .bind (works_quiet (.read same)) fun live => ?_
    split
    · refine .bind (works_quiet (moves_notified (touches_streamProcessFlags _))) fun r => ?_
      split
      · exact works_goAway_then hidle _ _
      · split
        · exact .pure hidle fun _ _ h => h
        · exact works_credit _ _ fun _ => ⟨_, rfl⟩
    · exact .pure hidle fun _ _ h => h

theorem works_sessionHandle :
    Role.receiver.Works id Role.receiver.Idle sessionHandle fun _ => Role.receiver.Idle := by
  refine .bind (works_quiet (.read fun s => .of_streams rfl fun hb => hb)) fun type => ?_
  split
  · exact works_sessionHandleData
  · split
    · exact works_sessionHandleWindowUpdate
    · split
      · exact works_quiet (moves_beside beside_sessionHandlePing)
      · split
        · exact works_quiet (moves_beside beside_sessionHandleGoAway)
        · exact .pure (.idle _) fun _ _ h => h

/-- `session_process` leaves its halves of the marks right. -/
theorem works_sessionProcess :
    Role.receiver.Works id Role.receiver.Idle sessionProcess fun _ => Role.receiver.Idle := by
  have same (s : Session) : Moves id Role.receiver.Quiet s s := .of_streams rfl fun hb => hb
  have hidle : Role.receiver.Idle.Stable .receiver := .idle .receiver
  have hround : Role.receiver.Works id Role.receiver.Idle processRound
      fun _ => Role.receiver.Idle := by
    refine .bind (works_quiet (.read same)) fun pending =>
      .bind (works_quiet (.read same)) fun newFrame => ?_
    split
    · exact .pure hidle fun _ _ h => h
    · split
      · exact .pure hidle fun _ _ h => h
      · refine .bind (Q := fun _ => Role.receiver.Idle) ?_ fun supported => ?_
        · split
          · exact works_quiet (.bind (.crit fun s => .of_streams rfl fun hb => hb) fun hdr =>
              .bind (.check _) fun _ => .pure _)
          · exact .pure hidle fun _ _ h => h
        · split
          · exact .bind works_sessionHandle fun r => .pure hidle fun _ _ h => h
          · exact .pure hidle fun _ _ h => h
  refine .bind (works_quiet (.acquire _)) fun _ => .bind (works_quiet (.read same)) fun rounds =>
    .bind (Q := fun _ => Role.receiver.Idle) ?_ fun r =>
      .bind (works_quiet (.release _)) fun _ => .pure hidle fun _ _ h => h
  exact Env.Triple.loop hidle.has (fun _ hs => hs) (fun _ => hidle.has)
    (Env.Triple.mono hround (fun _ hs => hs) fun o _ hs => by cases o <;> exact hs) _

end Threads

/-! ## Runs -/

theorem works_forget {α : Type} {id : UInt32} {i : Role} {p : Op α}
    (h : i.Works id i.Idle p fun _ => i.Idle) : i.Works id i.Idle (forget p) fun _ => i.Idle :=
  .bind h fun _ => .pure (.idle i) fun _ _ h => h

/-- Each thread keeps its promises in each of its calls. -/
theorem works_code {id : UInt32} {i : Role} {c : Api} (hmay : i.may id c) :
    i.Works id i.Idle c.code fun _ => i.Idle := by
  cases i with
  | reader =>
    cases c with
    | read j size =>
      obtain ⟨rfl, -⟩ := hmay
      exact works_forget (works_streamRead size)
    | recvBufWrite | process | sendBufPending | sendBufPeek | sendBufConsume | openStream
      | acceptStream | write | goAway => exact hmay.elim
  | writer =>
    cases c with
    | write j data =>
      obtain rfl := hmay
      exact works_forget (works_streamWrite data)
    | recvBufWrite | process | sendBufPending | sendBufPeek | sendBufConsume | openStream
      | acceptStream | read | goAway => exact hmay.elim
  | receiver =>
    cases c with
    | process => exact works_forget works_sessionProcess
    | recvBufWrite data =>
      exact works_quiet (moves_beside (beside_code (c := .recvBufWrite data) trivial))
    | sendBufPending | sendBufPeek | sendBufConsume | openStream | acceptStream | read | write
      | goAway => exact hmay.elim

/-- The proof of the three threads. -/
def wakeupProof (id : UInt32) : Pool.Proof (τ := Role) Api.code (Role.may id) socketsOk
    fun i s t => CreditFits id i s t ∧ Timely id s t where
  env := Role.env id
  idle i s := s.Has id i.Idle
  answers _ _ _ h := h
  stable i := (Assertion.Stable.idle i).has
  compatible hij hg hc st hst := by
    obtain ⟨st', hst', h⟩ := hg st hst
    exact ⟨st', hst', h.rely hij (hc.2 st st' hst hst') fun hi => hc.1 hi st st' hst hst'⟩
  call hmay := works_code hmay

/-- A new stream has the marks right. -/
theorem Stream.fresh_idle (i : Role) (b : Bool) (state : StreamState) (padding : UInt32) :
    i.Idle b (.fresh state padding) := by
  cases i with
  | reader => exact .inr fun h => nomatch h
  | writer =>
    refine .inr fun _ => ?_
    change MAX_STREAM_WINDOW_SIZE ≠ 0
    decide +kernel
  | receiver => exact ⟨.inr fun h => absurd rfl h, .inr fun _ => rfl⟩

/-- Every timely run keeps what the proof says. -/
theorem SharedRun.holds {id : UInt32} {P : Pool Call Mutex Session Api Role}
    (h : SharedRun (Timely id) id P) : (wakeupProof id).Holds P := by
  induction h with
  | start h => exact Pool.Proof.holds_start fun i => ⟨_, h, Stream.fresh_idle i _ _ _⟩
  | step h hs hcredit hflip ih => exact ih.step hs ⟨hcredit, hflip⟩

/-! ## Schedules -/

instance decidableRoleMay (id : UInt32) (i : Role) (c : Api) : Decidable (i.may id c) :=
  match i, c with
  | .reader, .read j size => inferInstanceAs (Decidable (j = id ∧ 0 < size))
  | .reader, .recvBufWrite _ | .reader, .process | .reader, .sendBufPending
  | .reader, .sendBufPeek _ | .reader, .sendBufConsume _ | .reader, .openStream _
  | .reader, .acceptStream | .reader, .write _ _ | .reader, .goAway =>
    inferInstanceAs (Decidable False)
  | .writer, .write j _ => inferInstanceAs (Decidable (j = id))
  | .writer, .recvBufWrite _ | .writer, .process | .writer, .sendBufPending
  | .writer, .sendBufPeek _ | .writer, .sendBufConsume _ | .writer, .openStream _
  | .writer, .acceptStream | .writer, .read _ _ | .writer, .goAway =>
    inferInstanceAs (Decidable False)
  | .receiver, .process | .receiver, .recvBufWrite _ => inferInstanceAs (Decidable True)
  | .receiver, .sendBufPending | .receiver, .sendBufPeek _ | .receiver, .sendBufConsume _
  | .receiver, .openStream _ | .receiver, .acceptStream | .receiver, .read _ _
  | .receiver, .write _ _ | .receiver, .goAway => inferInstanceAs (Decidable False)

/-- A statement about two values, if they are there. -/
instance decidableBoth {α : Type} {p : α → α → Prop} [∀ x y, Decidable (p x y)] :
    ∀ a b : Option α, Decidable (∀ x y, a = some x → b = some y → p x y)
  | some x, some y => decidable_of_iff (p x y)
      ⟨fun h _ _ hx hy => Option.some.inj hx ▸ Option.some.inj hy ▸ h, fun h => h x y rfl rfl⟩
  | none, _ => isTrue fun _ _ h => nomatch h
  | some _, none => isTrue fun _ _ _ h => nomatch h

instance (st st' : Stream) : Decidable (st.Timely st') :=
  decidable_of_iff
    ((st.readable = false → st'.readable = true → st.recvBuf ≠ []) ∧
      (st.readable = true → st'.readable = false → st.recvBuf = []) ∧
      (st.writeable = false → st'.writeable = true → st.sendWindow ≠ 0) ∧
      (st.writeable = true → st'.writeable = false → st.sendWindow = 0))
    ⟨fun h => ⟨h.1, h.2.1, h.2.2.1, h.2.2.2⟩, fun h => ⟨h.1, h.2, h.3, h.4⟩⟩

instance (id : UInt32) (s t : Session) : Decidable (Timely id s t) := decidableBoth _ _

instance (id : UInt32) (i : Role) (s t : Session) : Decidable (CreditFits id i s t) :=
  have : Decidable (∀ st st', s.streams id = some st → t.streams id = some st' →
      st.sendWindow.toNat ≤ st'.sendWindow.toNat) := decidableBoth _ _
  inferInstanceAs (Decidable (_ → _))

/-- A step that changes nothing is timely. -/
theorem Timely.refl (id : UInt32) (s : Session) : Timely id s s := by
  intro st st' h h'
  obtain rfl := Option.some.inj (h.symm.trans h')
  have never {b : Bool} {p : Prop} (hb : b = false) (hb' : b = true) : p := by
    rw [hb] at hb'
    cases hb'
  exact ⟨never, fun hb hb' => never hb' hb, never, fun hb hb' => never hb' hb⟩

/-- A schedule whose steps all pass is a run. -/
theorem SharedRun.play {flip : Session → Session → Prop} [∀ s t, Decidable (flip s t)]
    (hflip : ∀ s, flip s s) {id : UInt32} {s : Session} {state : StreamState} {padding : UInt32}
    (hs : s.streams id = some (Stream.fresh state padding)) {schedule : List (Role × Option Api)}
    {P : Pool Call Mutex Session Api Role}
    (h : Pool.play Api.code (Role.may id) (fun i s t => decide (CreditFits id i s t ∧ flip s t))
      schedule (.start s) = some P) : SharedRun flip id P := by
  have hsame (i : Role) (s : Session) : CreditFits id i s s := by
    intro _ st st' h h'
    rw [Option.some.inj (h.symm.trans h')]
  refine Pool.play_keeps (R := SharedRun flip id) socketsOk_true
    (fun i s => decide_eq_true ⟨hsame i s, hflip s⟩) (fun P Q i hP hstep hc => ?_) (.start hs) h
  obtain ⟨hcredit, hf⟩ := of_decide_eq_true hc
  exact .step hP hstep hcredit hf

/-- An accepted stream. -/
def acceptedStream : Session := (sessionInit false 4096).setStream 1 (.fresh .established 4096)

/-- A frame with one byte. -/
def oneByte : Bytes := hdrEncode TYPE_DATA 0 1 1 ++ [7]

/-- No call is in progress, the session stays, and stream 1 is there with this mark and
these bytes. -/
def settled (readable : Bool) (bytes : Bytes) (P : Pool Call Mutex Session Api Role) : Bool :=
  (P.threads .reader).isNone && (P.threads .writer).isNone && (P.threads .receiver).isNone &&
    !P.state.localGoAway &&
    (P.state.streams 1).any fun st => decide (st.readable = readable ∧ st.recvBuf = bytes)

theorem settled_quiescent {readable : Bool} {bytes : Bytes}
    {P : Pool Call Mutex Session Api Role} (h : settled readable bytes P = true) :
    P.Quiescent ∧ P.state.localGoAway = false ∧
      ∃ st, P.state.streams 1 = some st ∧ st.readable = readable ∧ st.recvBuf = bytes := by
  simp only [settled, Bool.and_eq_true, Option.isNone_iff_eq_none, Bool.not_eq_true',
    Option.any_eq_true, decide_eq_true_eq] at h
  obtain ⟨⟨⟨⟨hr, hw⟩, hp⟩, hstay⟩, st, hst, hmark⟩ := h
  refine ⟨fun i => ?_, hstay, st, hst, hmark⟩
  cases i with
  | reader => exact hr
  | writer => exact hw
  | receiver => exact hp

/-! ## The marks at rest -/

/-- Where no call is in progress the marks say what there is. -/
theorem SharedRun.marks_right {id : UInt32} {P : Pool Call Mutex Session Api Role}
    (h : SharedRun (Timely id) id P) (hq : P.Quiescent) (hstay : P.state.localGoAway = false)
    {st : Stream} (hst : P.state.streams id = some st) :
    (st.readable = true ↔ st.recvBuf ≠ []) ∧ (st.writeable = true ↔ 0 < st.sendWindow) := by
  have idle (i : Role) : i.Idle false st := by
    obtain ⟨st', hst', hidle⟩ := h.holds.quiescent hq i
    obtain rfl := Option.some.inj (hst.symm.trans hst')
    rwa [hstay] at hidle
  have half {p : Prop} (h : false = true ∨ p) : p := h.resolve_left Bool.false_ne_true
  rw [UInt32.pos_iff_ne_zero]
  exact ⟨⟨half (idle .reader), half (idle .receiver).1⟩,
    half (idle .writer), half (idle .receiver).2⟩

/-- The receive thread delivers a byte and the reader takes it. -/
def calmSchedule : List (Role × Option Api) :=
  Pool.begins Role.receiver (.recvBufWrite oneByte) 3 ++ Pool.begins Role.receiver .process 34 ++
    Pool.begins Role.reader (.read 1 1) 10

theorem SharedRun.marks_right_read : ∃ P, SharedRun (Timely 1) 1 P ∧
    ∃ st, P.state.streams 1 = some st ∧
      (st.readable = true ↔ st.recvBuf ≠ []) ∧ (st.writeable = true ↔ 0 < st.sendWindow) := by
  have hplay : (Pool.play Api.code (Role.may 1)
      (fun i s t => decide (CreditFits 1 i s t ∧ Timely 1 s t)) calmSchedule
      (.start acceptedStream)).any (settled false []) = true := by decide +kernel
  obtain ⟨P, hP, hsettled⟩ := Option.any_eq_true _ _ |>.mp hplay
  obtain ⟨hq, hstay, st, hst, -⟩ := settled_quiescent hsettled
  have hrun := SharedRun.play (Timely.refl 1) (Session.setStream_same _ _ _) hP
  exact ⟨P, hrun, st, hst, hrun.marks_right hq hstay hst⟩

/-- The reader takes the only byte; before it clears the mark, the next byte comes in and
the receive thread finds the mark set. -/
def lateSchedule : List (Role × Option Api) :=
  Pool.begins Role.receiver (.recvBufWrite oneByte) 3 ++ Pool.begins Role.receiver .process 34 ++
    Pool.begins Role.reader (.read 1 1) 6 ++
    Pool.begins Role.receiver (.recvBufWrite oneByte) 3 ++ Pool.begins Role.receiver .process 34 ++
    List.replicate 4 (.reader, none)

/-- A wakeup is lost: the mark is clear while a byte waits. -/
theorem SharedRun.marks_lost : ¬ ∀ (id : UInt32) (P : Pool Call Mutex Session Api Role),
    SharedRun (fun _ _ => True) id P → P.Quiescent → P.state.localGoAway = false →
    ∀ st, P.state.streams id = some st →
      (st.readable = true ↔ st.recvBuf ≠ []) ∧ (st.writeable = true ↔ 0 < st.sendWindow) := by
  intro hall
  have hplay : (Pool.play Api.code (Role.may 1)
      (fun i s t => decide (CreditFits 1 i s t ∧ True)) lateSchedule
      (.start acceptedStream)).any (settled false [7]) = true := by decide +kernel
  obtain ⟨P, hP, hsettled⟩ := Option.any_eq_true _ _ |>.mp hplay
  obtain ⟨hq, hstay, st, hst, hread, hbuf⟩ := settled_quiescent hsettled
  have hrun := SharedRun.play (fun _ => trivial) (Session.setStream_same _ _ _) hP
  have hmark := (hall 1 P hrun hq hstay st hst).1
  rw [hread, hbuf] at hmark
  exact absurd (hmark.mpr (by decide)) Bool.false_ne_true

end Yamux
