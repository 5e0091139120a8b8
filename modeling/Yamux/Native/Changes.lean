import Yamux.Core.Footprint
import Yamux.Native.Session

/-!
# What one action changes

Every action of an operation on a stream leaves the session as it is, queues a frame
without payload, marks the session as leaving, or changes the one stream; only
`stream_write` queues other bytes. Which changes of the stream there are is said here
once for each operation; a property of all actions of an operation then follows by
looking at these changes.
-/

namespace Yamux

open Core Prog

/-- One action on behalf of the stream `id`, which changes within `N`. -/
inductive Touches (id : UInt32) (N : Stream → Stream → Prop) (s : Session) : Session → Prop where
  | none : Touches id N s s
  | send {type : UInt8} (h : type ≠ TYPE_DATA) (flags : UInt16) (i len : UInt32) :
      Touches id N s { s with sendBuf := s.sendBuf ++ hdrEncode type flags i len }
  | leave : Touches id N s { s with localGoAway := true }
  | stream {st st' : Stream} (hst : s.streams id = some st) (h : N st st') :
      Touches id N s (s.setStream id st')

/-- One action of `stream_write`, which also queues the bytes of a frame. -/
inductive Queues (id : UInt32) (N : Stream → Stream → Prop) (s : Session) : Session → Prop where
  | touch {t : Session} (h : Touches id N s t) : Queues id N s t
  | data (bytes : Bytes) : Queues id N s { s with sendBuf := s.sendBuf ++ bytes }

/-- One action of the payload loop: also the input and the frame in progress change. -/
inductive Pays (id : UInt32) (N : Stream → Stream → Prop) (s : Session) : Session → Prop where
  | touch {t : Session} (h : Touches id N s t) : Pays id N s t
  | input (recvBuf : Bytes) (remain : UInt32) (newFrame : Bool) :
      Pays id N s { s with recvBuf := recvBuf, frameRemain := remain, newFrame := newFrame }

theorem Touches.mono {id : UInt32} {N N' : Stream → Stream → Prop}
    (hN : ∀ st st', N st st' → N' st st') {s t : Session} (h : Touches id N s t) :
    Touches id N' s t := by
  cases h with
  | none => exact .none
  | send h flags i len => exact .send h flags i len
  | leave => exact .leave
  | stream hst h => exact .stream hst (hN _ _ h)

/-! ## The changes of a stream -/

/-- What the flags of a frame do to a stream. -/
inductive Stream.Notified (st : Stream) : Stream → Prop where
  | state (state : StreamState) : Notified st { st with state := state }
  | readable : Notified st { st with readable := true }
  | writeable : Notified st { st with writeable := true }

/-- What `send_window_update` does to a stream. -/
inductive Stream.WindowUpdated (st : Stream) : Stream → Prop where
  | flags : WindowUpdated st st.sendFlags.2
  | grant (flags : UInt16) : WindowUpdated st (st.grant flags).2

/-- What `stream_read` does to a stream. -/
inductive Stream.ReadBy (st : Stream) : Stream → Prop where
  | take (size : Nat) : ReadBy st (st.take size).2
  | waiting : ReadBy st { st with readable := false }
  | update {st' : Stream} (h : st.WindowUpdated st') : ReadBy st st'

/-- What `stream_write` does to a stream. -/
inductive Stream.WrittenBy (st : Stream) : Stream → Prop where
  | flags : WrittenBy st st.sendFlags.2
  | debit (window : UInt32) : WrittenBy st { st with sendWindow := window }
  | waiting : WrittenBy st { st with writeable := false }

/-- What a slice of a payload does to a stream. -/
inductive Stream.Delivered (st : Stream) : Stream → Prop where
  | slice (written : Bytes) (window : UInt32) :
      Delivered st { st with recvBuf := st.recvBuf ++ written, recvWindow := window }
  | readable : Delivered st { st with readable := true }

theorem Stream.sendFlags_state (st : Stream) :
    ∃ state, st.sendFlags.2 = { st with state := state } := by
  unfold sendFlags
  split
  · exact ⟨_, rfl⟩
  · exact ⟨_, rfl⟩
  · exact ⟨st.state, rfl⟩

/-- The section of an update changes the window only. -/
theorem Stream.grant_window (st : Stream) (flags : UInt16) :
    ∃ window, (st.grant flags).2 = { st with recvWindow := window } := by
  unfold Stream.grant
  split
  · exact ⟨st.recvWindow, rfl⟩
  · exact ⟨_, rfl⟩

/-! ## The changes of an operation -/

section Acts

variable {ok : Call → Bool → Prop} {α : Type} {id : UInt32} {N : Stream → Stream → Prop}

theorem acts_writeNodes {R : Session → Session → Prop} (fuel : Nat) (rest : Bytes) :
    Acts ok R (Bio.writeNodes (μ := Mutex) fuel rest) := by
  induction fuel generalizing rest with
  | zero => exact .pure _
  | succ fuel ih =>
    rw [Bio.writeNodes]
    split
    · exact .pure _
    · refine .bind (.query _) fun b => ?_
      split
      · exact .bind (ih _) fun _ => .pure _
      · exact .pure _

theorem acts_bioWrite {R : Session → Session → Prop} (buf : Bytes) :
    Acts ok R (bioWrite buf) :=
  .bind (acts_writeNodes _ _) fun _ => .pure _

/-- The bytes of one node are written all at once, or not at all. -/
theorem bioWrite_node {data : Bytes} (h0 : data ≠ []) (hlen : data.length ≤ Bio.nodeSize) :
    bioWrite data = (do
      let mem ← query .alloc
      pure (if mem then (toInt32 data.length, data) else (-1, [])) : Op (Int × Bytes)) := by
  cases data with
  | nil => exact absurd rfl h0
  | cons x xs =>
    have hrest : (Bio.writeNodes (μ := Mutex) (σ := Session) xs.length []) = pure (true, []) := by
      cases xs <;> rfl
    unfold bioWrite
    rw [List.length_cons, Bio.writeNodes, if_neg h0, List.take_of_length_le hlen,
      List.drop_of_length_le hlen, hrest]
    refine congrArg (Prog.ask Call.alloc) (funext fun mem => ?_)
    cases mem with
    | true => exact congrArg Prog.ret (by rw [if_pos rfl, List.flatten_singleton]; rfl)
    | false => rfl

/-- What follows is told that all the bytes of one node were written, or that none were. -/
theorem acts_bioWrite_bind {β : Type} {R : Session → Session → Prop} {data : Bytes}
    {g : Int × Bytes → Op β} (h0 : data ≠ []) (hlen : data.length ≤ Bio.nodeSize)
    (hall : Acts ok R (g (toInt32 data.length, data))) (hnone : Acts ok R (g (-1, []))) :
    Acts ok R (bioWrite data >>= g) := by
  rw [bioWrite_node h0 hlen]
  intro mem _
  cases mem with
  | true => exact hall
  | false => exact hnone

/-- Work on one stream changes that stream, if it is there. -/
theorem touches_onStream (ms : List Mutex) (g : Stream → α × Stream)
    (hg : ∀ st, (g st).2 = st ∨ N st (g st).2) : Acts ok (Touches id N) (onStream ms id g) := by
  intro s
  dsimp only
  cases h : s.streams id with
  | none => exact ⟨.none, trivial⟩
  | some st =>
    refine ⟨?_, trivial⟩
    dsimp only
    rcases hg st with heq | hN
    · rw [heq, Session.setStream_eq_self h]
      exact .none
    · exact .stream h hN

theorem touches_readStream (ms : List Mutex) (g : Stream → α) :
    Acts ok (Touches id N) (readStream ms id g) :=
  touches_onStream ms _ fun _ => .inl rfl

/-- A header is queued, or nothing when there is no memory. -/
theorem changes_sendHeader {R : Session → Session → Prop} (type : UInt8) (flags : UInt16)
    (i len : UInt32) (hsame : ∀ s, R s s)
    (hsend : ∀ s, R s { s with sendBuf := s.sendBuf ++ hdrEncode type flags i len }) :
    Acts ok R (sessionSendBufWrite (hdrEncode type flags i len)) := by
  have hnode : (hdrEncode type flags i len).length ≤ Bio.nodeSize := by
    rw [length_hdrEncode]
    decide
  have h0 : hdrEncode type flags i len ≠ [] := List.cons_ne_nil _ _
  rw [sessionSendBufWrite, bioWrite_node h0 hnode]
  refine fun mem _ s => ⟨?_, trivial⟩
  cases mem with
  | true => exact hsend s
  | false =>
    change R s { s with sendBuf := s.sendBuf ++ [] }
    rw [List.append_nil]
    exact hsame s

/-- A frame without payload is queued. -/
theorem touches_sendControl {type : UInt8} (h : type ≠ TYPE_DATA) (flags : UInt16)
    (i len : UInt32) : Acts ok (Touches id N) (sessionSendBufWrite (hdrEncode type flags i len)) :=
  changes_sendHeader type flags i len (fun _ => .none) fun _ => .send h flags i len

theorem touches_sessionGoAwayForReason (reason : UInt32) :
    Acts ok (Touches id N) (sessionGoAwayForReason reason) :=
  .bind (.modify fun _ => .leave) fun _ =>
    .bind (touches_sendControl (by decide) _ _ _) fun _ => .pure _

/-- The end of a program that gives up. -/
theorem touches_goAway_then (reason : UInt32) {p : Op α} (hp : Acts ok (Touches id N) p) :
    Acts ok (Touches id N) (sessionGoAwayForReason reason >>= fun _ => p) :=
  .bind (touches_sessionGoAwayForReason _) fun _ => hp

/-! ### Notifications and flags -/

theorem touches_streamWriteableNotify (hN : ∀ st, N st { st with writeable := true }) :
    Acts ok (Touches id N) (streamWriteableNotify id) := by
  refine .bind (.query _) fun mem => .bind (.query _) fun io => touches_onStream _ _ fun st => ?_
  split
  · exact .inl rfl
  · split
    · exact .inl rfl
    · split
      · exact .inl rfl
      · exact .inr (hN st)

theorem touches_streamWriteableWaiting (hN : ∀ st, N st { st with writeable := false }) :
    Acts ok (Touches id N) (streamWriteableWaiting id) := by
  refine .bind (.query _) fun mem => .bind (.query _) fun io => touches_onStream _ _ fun st => ?_
  split
  · split
    · exact .inl rfl
    · split
      · exact .inl rfl
      · exact .inr (hN st)
  · exact .inl rfl

theorem touches_streamReadableNotify (hN : ∀ st, N st { st with readable := true }) :
    Acts ok (Touches id N) (streamReadableNotify id) := by
  refine .bind (.query _) fun io => touches_onStream _ _ fun st => ?_
  split
  · exact .inl rfl
  · split
    · exact .inl rfl
    · exact .inr (hN st)

theorem touches_streamReadableWaiting (hN : ∀ st, N st { st with readable := false }) :
    Acts ok (Touches id N) (streamReadableWaiting id) := by
  refine .bind (.query _) fun io => touches_onStream _ _ fun st => ?_
  split
  · split
    · exact .inl rfl
    · exact .inr (hN st)
  · exact .inl rfl

theorem touches_streamNotifyWaiting :
    Acts ok (Touches id Stream.Notified) (streamNotifyWaiting id) :=
  .bind (touches_streamWriteableNotify fun _ => .writeable) fun _ =>
    .bind (touches_streamReadableNotify fun _ => .readable) fun _ => .pure _

theorem touches_streamProcessAck (flags : UInt16) :
    Acts ok (Touches id Stream.Notified) (streamProcessAck id flags) := by
  unfold streamProcessAck
  split
  · refine touches_onStream _ _ fun st => ?_
    dsimp only
    split
    · exact .inr (.state _)
    · exact .inl rfl
  · exact .pure _

theorem touches_streamProcessFin (flags : UInt16) :
    Acts ok (Touches id Stream.Notified) (streamProcessFin id flags) := by
  have close (state : StreamState) : Acts ok (Touches id Stream.Notified) (do
      modifyStream [] id fun st => { st with state := state }
      streamNotifyWaiting id
      pure true) :=
    .bind (touches_onStream _ _ fun _ => .inr (.state _)) fun _ =>
      .bind touches_streamNotifyWaiting fun _ => .pure _
  unfold streamProcessFin
  split
  · refine .bind (touches_readStream _ _) fun state => ?_
    cases state with
    | synSent | synReceived | established => exact close .remoteClose
    | localClose => exact close .closed
    | init | remoteClose | closed | reset => exact .pure _
  · exact .pure _

theorem touches_streamProcessRst (flags : UInt16) :
    Acts ok (Touches id Stream.Notified) (streamProcessRst id flags) := by
  unfold streamProcessRst
  split
  · exact .bind (touches_onStream _ _ fun _ => .inr (.state _)) fun _ =>
      touches_streamNotifyWaiting
  · exact .pure _

theorem touches_streamProcessFlags (flags : UInt16) :
    Acts ok (Touches id Stream.Notified) (streamProcessFlags id flags) := by
  refine .bind (.acquire _) fun _ => .bind (touches_streamProcessAck _) fun _ =>
    .bind (touches_streamProcessFin _) fun legal => ?_
  split
  · exact .bind (touches_streamProcessRst _) fun _ => .bind (.release _) fun _ => .pure _
  · exact .bind (.release _) fun _ => .pure _

/-! ### Reading and writing -/

theorem touches_streamSendFlags (hN : ∀ st : Stream, N st st.sendFlags.2) :
    Acts ok (Touches id N) (streamSendFlags id) :=
  touches_onStream _ _ fun st => .inr (hN st)

theorem touches_sendWindowUpdate : Acts ok (Touches id Stream.WindowUpdated) (sendWindowUpdate id) := by
  refine .bind (touches_streamSendFlags fun _ => .flags) fun flags =>
    .bind (touches_onStream _ _ fun st => .inr (.grant flags)) fun delta => ?_
  cases delta with
  | none => exact .pure _
  | some delta => exact .bind (touches_sendControl (by decide) _ _ _) fun _ => .pure _

theorem touches_streamReadClosed : Acts ok (Touches id N) (streamReadClosed id) := by
  refine .bind (.acquire _) fun _ => .bind (touches_readStream _ _) fun state =>
    .bind ?_ fun _ => .bind (.release _) fun _ => .pure _
  cases state with
  | localClose | remoteClose | closed => exact .bind (touches_readStream _ _) fun _ => .pure _
  | init | synSent | synReceived | established | reset => exact .pure _

/-- What `stream_read` and `stream_write` do where there is nothing to do yet. -/
theorem touches_wait {a : α} {c : Session → Bool} : Acts ok (Touches id N) (do
    if ← readStream [] id Stream.nonblock then pure a
    else do
      let selected ← query .sock
      if selected then do
        await c
        again
      else pure a : Op α) := by
  refine .bind (touches_readStream _ _) fun nonblock => ?_
  split
  · exact .pure _
  · refine .bind (.query _) fun selected => ?_
    split
    · exact .bind (.await _) fun _ => trivial
    · exact .pure _

theorem touches_streamRead (size : Nat) :
    Acts ok (Touches id Stream.ReadBy) (streamRead id size) := by
  refine .bind touches_streamReadClosed fun early => ?_
  cases early with
  | some r => exact .pure _
  | none =>
    refine .bind (touches_readStream _ _) fun r => ?_
    split
    · exact touches_wait
    · refine .bind (touches_onStream _ _ fun st => .inr (.take size)) fun ⟨r, bytes, pending⟩ =>
        .bind (.check _) fun _ => .bind ?_ fun waiting => ?_
      · split
        · exact touches_streamReadableWaiting fun _ => .waiting
        · exact .pure _
      · split
        · exact .pure _
        · exact .bind (touches_sendWindowUpdate.mono fun _ _ => Touches.mono fun _ _ => .update)
            fun _ => .pure _

theorem touches_streamWriteDebit (max : UInt32) :
    Acts ok (Touches id Stream.WrittenBy) (streamWriteDebit id max) := by
  refine .bind (touches_onStream _ _ fun st => .inr (.debit _)) fun window =>
    .bind ?_ fun waiting => ?_
  · split
    · exact touches_streamWriteableWaiting fun _ => .waiting
    · exact .pure _
  · split
    · exact touches_goAway_then _ (.pure _)
    · exact .pure _

theorem queues_sessionSendBufWrite (data : Bytes) :
    Acts ok (Queues id N) (sessionSendBufWrite data) :=
  .bind (acts_bioWrite data) fun _ => .bind (.modify fun _ => .data _) fun _ => .pure _

theorem queues_streamWriteFrame (data : Bytes) (window : UInt32) :
    Acts ok (Queues id Stream.WrittenBy) (streamWriteFrame id data window) := by
  refine .bind ((touches_streamSendFlags fun _ => .flags).mono fun _ _ => .touch) fun flags =>
    .bind (queues_sessionSendBufWrite _) fun r => ?_
  split
  · exact .pure _
  · refine .bind (queues_sessionSendBufWrite _) fun r => ?_
    split
    · exact .pure _
    · exact (touches_streamWriteDebit _).mono fun _ _ => .touch

theorem queues_streamWrite (data : Bytes) :
    Acts ok (Queues id Stream.WrittenBy) (streamWrite id data) := by
  have live : Acts ok (Queues id Stream.WrittenBy) (do
      let window ← readStream [.send id] id Stream.sendWindow
      if window = 0 then do
        if ← readStream [] id Stream.nonblock then pure (-1)
        else do
          let selected ← query .sock
          if selected then do
            await fun s => (s.streams id).any Stream.writeable
            again
          else pure (-1)
      else streamWriteFrame id data window) := by
    refine .bind ((touches_readStream _ _).mono fun _ _ => .touch) fun window => ?_
    split
    · exact touches_wait.mono fun _ _ => .touch
    · exact queues_streamWriteFrame _ _
  refine .bind ((touches_readStream _ _).mono fun _ _ => .touch) fun state => ?_
  cases state with
  | localClose | closed | reset => exact .pure _
  | init | synSent | synReceived | established | remoteClose => exact live

/-! ### Payloads -/

theorem touches_deliverSlice (size : Nat) :
    Acts ok (Touches id Stream.Delivered) (deliverSlice id size) := by
  refine .bind (.read fun _ => .none) fun slice => .bind (.check _) fun _ =>
    .bind (.acquire _) fun _ => .bind (acts_bioWrite _) fun ⟨r, written⟩ =>
      .bind (touches_onStream _ _ fun st => .inr (.slice _ _)) fun _ => ?_
  split
  · exact touches_goAway_then _ (.bind (.release _) fun _ => .pure _)
  · refine .bind (.release _) fun _ =>
      .bind (touches_streamReadableNotify fun _ => .readable) fun _ => ?_
    split
    · exact touches_goAway_then _ (.pure _)
    · exact .pure _

theorem pays_payloadRound (live : Bool) :
    Acts ok (Pays id Stream.Delivered) (payloadRound id live) := by
  have same (s : Session) : Pays id Stream.Delivered s s := .touch .none
  refine .bind (.read same) fun remain => .bind (.read same) fun pending => ?_
  split
  · exact .pure _
  · refine .bind ?_ fun moved => ?_
    · split
      · exact (touches_deliverSlice _).mono fun _ _ => .touch
      · exact .pure _
    · cases moved with
      | none => exact .pure _
      | some r => exact .bind (.modify fun _ => .input _ _ _) fun _ => .pure _

theorem pays_handlePayload (live : Bool) :
    Acts ok (Pays id Stream.Delivered) (handlePayload id live) := by
  refine .bind (.read fun _ => .touch .none) fun remain =>
    .bind (.loop (pays_payloadRound _) _) fun r => ?_
  split
  · exact .pure _
  · exact .bind (.modify fun _ => .input _ _ _) fun _ => .pure _

theorem pays_startPayload (live : Bool) (len : UInt32) :
    Acts ok (Pays id Stream.Delivered) (startPayload id live len) :=
  .bind (.modify fun _ => .input _ _ _) fun _ => pays_handlePayload _

/-! ### Opening and accepting -/

/-- What accepting may do: take an id off the queue, and send a window update for it. -/
theorem changes_sessionAccept {R : Session → Session → Prop}
    (htake : ∀ s, R s { s with accepts := s.accepts.tail })
    (htouch : ∀ i s t, Touches i Stream.WindowUpdated s t → R s t) :
    Acts ok R sessionAccept := by
  refine .bind (.query _) fun io => ?_
  split
  · refine .bind (.await _) fun _ => .bind (.crit fun s => htake s) fun found => ?_
    cases found with
    | none => trivial
    | some i =>
      exact .bind (.read fun s => htouch i s s .none) fun _ => .bind (.check _) fun _ =>
        .bind (touches_sendWindowUpdate.mono fun s t h => htouch i s t h) fun _ => .pure _
  · exact .bind ((touches_sessionGoAwayForReason _).mono fun s t h => htouch 0 s t h)
      fun _ => .pure _

/-- Taking an id leaves the session alone but for the count. -/
theorem changes_takeId {R : Session → Session → Prop} (same : ∀ s, R s s)
    (hcount : ∀ s, R s { s with nextId := s.nextId + 2 }) (tries : Nat) :
    Acts ok R (takeId tries) := by
  refine .loop (.bind (.read same) fun i => ?_) tries
  split
  · exact .pure _
  · refine .bind (.crit fun s => ?_) fun swapped => .pure _
    split
    · rename_i hid
      rw [← hid]
      exact hcount s
    · exact same s

/-- What opening may do: count, create a stream under a free id, send a window update
for it, and remove it again. -/
theorem changes_sessionOpen {R : Session → Session → Prop}
    (hcount : ∀ s, R s { s with nextId := s.nextId + 2 })
    (hinsert : ∀ i s padding, s.streams i = none → R s (s.setStream i (Stream.fresh .init padding)))
    (hremove : ∀ i s, R s { s with streams := Function.update s.streams i none })
    (htouch : ∀ i s t, Touches i Stream.WindowUpdated s t → R s t) (tries : Nat) :
    Acts ok R (sessionOpen tries) := by
  have same (s : Session) : R s s := htouch 0 s s .none
  refine .bind (.read same) fun leaving => ?_
  split
  · exact .pure _
  · refine .bind (changes_takeId same hcount _) fun taken => ?_
    cases taken with
    | none => exact .pure _
    | some i =>
      refine .bind (.bind (.query _) fun _ => .bind (.query _) fun _ => .bind (.query _) fun _ =>
        .bind (.query _) fun _ => ?_) fun created => ?_
      · split
        · refine .bind (.read same) fun padding => .bind (.bind (.crit fun s => ?_)
            fun _ => .check _) fun _ => .pure _
          split
          · exact same s
          · exact hinsert i s padding (Option.not_isSome_iff_eq_none.mp ‹_›)
        · exact .pure _
      · split
        · refine .bind (touches_sendWindowUpdate.mono fun s t h => htouch i s t h) fun r => ?_
          split
          · exact .bind (.bind (.crit fun s => hremove i s) fun _ => .check _) fun _ => .pure _
          · exact .pure _
        · exact .pure _

end Acts

end Yamux
