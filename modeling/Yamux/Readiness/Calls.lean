import Yamux.Core.Ends
import Yamux.Failure.Stream
import Yamux.Native.Beside
import Yamux.Sequential.Receive
import Yamux.Receive.Quiet

/-!
# Runs of calls on one session

The runs in which no socket call fails and every frame is accepted. Allocations may
fail. A condition on the calls of a run is a parameter.
-/

namespace Yamux

open Core Prog

/-- What a run takes for granted of a call: `session_process` accepts its input, and
a stream is opened between two frames. -/
def Api.Accepted (ans : Answers Call) (s : Session) : Api → Prop
  | .process => (sessionProcess.run ans s).1 = .ret 0
  | .openStream _ => s.newFrame = true
  | _ => True

/-- The states of runs whose calls are accepted and meet the condition `ok`. -/
inductive Api.Run (ok : Answers Call → Session → Api → Prop) (client : Bool) (rcvbuf : UInt32) :
    Session → Prop where
  | init : Api.Run ok client rcvbuf (sessionInit client rcvbuf)
  | call {s t : Session} {ans ans' : Answers Call} (h : Api.Run ok client rcvbuf s) (c : Api)
      (ha : Env.Allowed socketsOk ans) (hacc : c.Accepted ans s) (hok : ok ans s c)
      (hrun : c.code.run ans s = (.ret (), ans', t)) : Api.Run ok client rcvbuf t
  /-- The application sets or clears `O_NONBLOCK` on the descriptor of a stream. -/
  | nonblock {s : Session} {id : UInt32} {st : Stream} (h : Api.Run ok client rcvbuf s)
      (hst : s.streams id = some st) (b : Bool) :
      Api.Run ok client rcvbuf (s.setStream id { st with nonblock := b })

/-- A call that returns when nothing fails. -/
theorem Api.Run.exec {ok : Answers Call → Session → Api → Prop} {client : Bool} {rcvbuf : UInt32}
    {s : Session} (h : Api.Run ok client rcvbuf s) (c : Api) (hacc : c.Accepted noFail s)
    (hok : ok noFail s c) (hret : (c.code.exec s).1 = .ret ()) :
    Api.Run ok client rcvbuf (c.code.exec s).2 := by
  have hnone : Env.Allowed socketsOk (noFail : Answers Call) :=
    fun c => ⟨socketsOk_true c, fun b hb => by cases hb⟩
  refine @Api.Run.call _ _ _ _ _ _ noFail h c hnone hacc hok ?_
  rw [run_noFail, hret]

section Ends

variable {α β : Type} {ok : Call → Bool → Prop} {ans : Answers Call} {s : Session} {id : UInt32}

/-! ## Rules for the operations -/

/-- Work on one stream, which is there. -/
theorem ends_onStream {ms : List Mutex} {g : Stream → α × Stream}
    {Q : α → Answers Call → Session → Prop}
    (h : ∀ st, s.streams id = some st → Q (g st).1 ans (s.setStream id (g st).2)) :
    Ends ok Q (onStream ms id g) ans s := by
  intro _ a ans' t hrun
  cases hst : s.streams id with
  | none => simp [onStream, Prog.run, hst] at hrun
  | some st =>
    rw [run_onStream ans hst] at hrun
    cases hrun
    exact h st hst

theorem ends_readStream {ms : List Mutex} {g : Stream → α}
    {Q : α → Answers Call → Session → Prop}
    (h : ∀ st, s.streams id = some st → Q (g st) ans s) :
    Ends ok Q (readStream ms id g) ans s := by
  refine ends_onStream fun st hst => ?_
  rw [Session.setStream_eq_self hst]
  exact h st hst

/-- What works beside the streams keeps all that concerns them. -/
theorem ends_beside {I : Session → Prop} (hI : ∀ s t, Beside s t → I s → I t) {p : Op α}
    (hp : Acts ok Beside p) (h : I s) : Ends ok (fun _ _ t => I t) p ans s :=
  (Ends.acts .refl .trans hp).mono fun _ _ t ht => hI s t ht h

theorem ends_beside_bind {I : Session → Prop} (hI : ∀ s t, Beside s t → I s → I t) {p : Op α}
    {g : α → Op β} {Q : β → Answers Call → Session → Prop} (hp : Acts ok Beside p) (h : I s)
    (hg : ∀ a ans' t, I t → Ends ok Q (g a) ans' t) : Ends ok Q (p >>= g) ans s :=
  (ends_beside hI hp h).bind hg

/-- A stream is created under an id that was free. -/
theorem ends_streamNew {state : StreamState} {Q : Bool → Answers Call → Session → Prop}
    (hno : ∀ ans', Q false ans' s)
    (hnew : s.streams id = none → ∀ ans', ans' .alloc = (ans .alloc).drop 2 →
      Q true ans' (s.setStream id (Stream.fresh state s.rcvbuf))) :
    Ends ok Q (streamNew id state) ans s := by
  intro _ created ans' t hrun
  simp only [streamNew, run_bind, run_query, runThen_ret] at hrun
  split at hrun
  · simp only [run_bind, run_read, runThen_ret, sessionInsertStream, run_crit, run_check] at hrun
    cases hst : s.streams id with
    | none =>
      simp only [hst, Option.isSome_none, Bool.false_eq_true, if_false, if_true, runThen_ret]
        at hrun
      cases hrun
      refine hnew hst _ ?_
      rw [Answers.next_of_ne _ (by decide), Answers.next_of_ne _ (by decide),
        Answers.next_same, Answers.next_same, ← List.drop_one, ← List.drop_one, List.drop_drop]
    | some st =>
      simp only [hst, Option.isSome_some, Bool.false_eq_true, if_true, if_false] at hrun
      cases hrun
  · cases hrun
    exact hno _

/-! ## Notifications -/

/-- Whether the writeable mark is set after a notification: it was, or the padding
is drained, for which more than 4096 bytes need a buffer. -/
def Stream.wakes (st : Stream) (mem : Bool) : Bool :=
  st.writeable || decide (st.sendPadding ≤ 4096) || mem

theorem ends_streamWriteableNotify {st : Stream} {Q : Int → Answers Call → Session → Prop}
    (h : s.streams id = some st)
    (hQ : ∀ ans', ans' .alloc = (ans .alloc).tail →
      Q (if st.wakes ((ans .alloc).headD true) then 0 else -1) ans'
        (s.setStream id { st with writeable := st.wakes ((ans .alloc).headD true) })) :
    Ends socketsOk Q (streamWriteableNotify id) ans s := by
  refine .seq (.query fun _ => .seq (.query fun hio => ends_onStream fun st' hst' => ?_))
  obtain rfl := Option.some.inj (h.symm.trans hst')
  have hmark := hQ ((ans.next .alloc).next .sock)
    (by rw [Answers.next_of_ne _ (by decide), Answers.next_same])
  rw [hio rfl]
  unfold Stream.wakes at hmark
  cases hw : st.writeable with
  | true =>
    rw [hw, Bool.true_or, Bool.true_or, if_pos rfl, ← hw] at hmark
    rw [if_pos rfl]
    exact hmark
  | false =>
    rw [hw, Bool.false_or] at hmark
    rw [if_neg Bool.false_ne_true]
    by_cases hpad : 4096 < st.sendPadding
    · rw [decide_eq_false (UInt32.not_le.mpr hpad), Bool.false_or] at hmark
      cases hmem : (ans .alloc).headD true with
      | true =>
        rw [hmem, if_pos rfl] at hmark
        rw [if_neg (fun h => h.2 rfl), if_neg (by decide)]
        exact hmark
      | false =>
        rw [hmem, if_neg Bool.false_ne_true, ← hw] at hmark
        rw [if_pos ⟨hpad, Bool.false_ne_true⟩]
        exact hmark
    · rw [decide_eq_true (UInt32.not_lt.mp hpad), Bool.true_or, if_pos rfl] at hmark
      rw [if_neg (fun h => hpad h.1), if_neg (by decide)]
      exact hmark

theorem ends_streamReadableNotify {st : Stream} {Q : Int → Answers Call → Session → Prop}
    (h : s.streams id = some st)
    (hQ : ∀ ans', ans' .alloc = ans .alloc →
      Q 0 ans' (s.setStream id { st with readable := true })) :
    Ends socketsOk Q (streamReadableNotify id) ans s := by
  refine .seq (.query fun hio => ends_onStream fun st' hst' => ?_)
  obtain rfl := Option.some.inj (h.symm.trans hst')
  have hmark := hQ (ans.next .sock) (ans.next_of_ne (by decide))
  rw [hio rfl]
  cases hr : st.readable with
  | true =>
    rw [← hr] at hmark
    rw [if_pos rfl]
    exact hmark
  | false =>
    rw [if_neg Bool.false_ne_true, if_neg (by decide)]
    exact hmark

/-- A stream that the peer has closed or reset. -/
def Stream.closeTo (st : Stream) (state : StreamState) (mem : Bool) : Stream :=
  { st with state := state, writeable := st.wakes mem, readable := true }

/-- A change of state, and the notification that follows it. -/
theorem ends_setState {st : Stream} {state : StreamState} {Q : Unit → Answers Call → Session → Prop}
    (h : s.streams id = some st)
    (hQ : ∀ ans', ans' .alloc = (ans .alloc).tail →
      Q () ans' (s.setStream id (st.closeTo state ((ans .alloc).headD true)))) :
    Ends ok (fun _ ans' t => Ends socketsOk Q (streamNotifyWaiting id) ans' t)
      (modifyStream [] id fun st => { st with state := state }) ans s := by
  refine ends_onStream fun st' hst' => .seq ?_
  obtain rfl := Option.some.inj (h.symm.trans hst')
  refine ends_streamWriteableNotify (s.setStream_same id _) fun ans₁ ha₁ => .seq ?_
  rw [Session.setStream_setStream]
  refine ends_streamReadableNotify (s.setStream_same id _) fun ans₂ ha₂ => .pure ?_
  rw [Session.setStream_setStream]
  exact hQ ans₂ (ha₂.trans ha₁)

/-! ## The flags of a frame -/

/-- The FIN part of the flags, with the answer for the padding. -/
def Stream.finWith (st : Stream) (flags : UInt16) (mem : Bool) : Option Stream :=
  if hasFlag flags FLAG_FIN then
    match st.state with
    | .synSent | .synReceived | .established => some (st.closeTo .remoteClose mem)
    | .localClose => some (st.closeTo .closed mem)
    | _ => none
  else some st

/-- The RST part. -/
def Stream.rstWith (st : Stream) (flags : UInt16) (mem : Bool) : Stream :=
  if hasFlag flags FLAG_RST then st.closeTo .reset mem else st

/-- The flags leave the windows and the padding as they are. -/
theorem Stream.flags_windows {st st' : Stream} {flags : UInt16} {mem mem' : Bool}
    (h : (st.processAck flags).finWith flags mem = some st') :
    (st'.rstWith flags mem').recvWindow = st.recvWindow ∧
      (st'.rstWith flags mem').sendWindow = st.sendWindow ∧
      (st'.rstWith flags mem').sendPadding = st.sendPadding := by
  have hack : (st.processAck flags).recvWindow = st.recvWindow ∧
      (st.processAck flags).sendWindow = st.sendWindow ∧
      (st.processAck flags).sendPadding = st.sendPadding := by
    unfold processAck
    split <;> exact ⟨rfl, rfl, rfl⟩
  have hfin : st'.recvWindow = (st.processAck flags).recvWindow ∧
      st'.sendWindow = (st.processAck flags).sendWindow ∧
      st'.sendPadding = (st.processAck flags).sendPadding := by
    generalize st.processAck flags = st₁ at h
    unfold finWith at h
    split at h
    · cases hst : st₁.state <;> rw [hst] at h <;> cases h <;> exact ⟨rfl, rfl, rfl⟩
    · cases h
      exact ⟨rfl, rfl, rfl⟩
  have hrst : (st'.rstWith flags mem').recvWindow = st'.recvWindow ∧
      (st'.rstWith flags mem').sendWindow = st'.sendWindow ∧
      (st'.rstWith flags mem').sendPadding = st'.sendPadding := by
    unfold rstWith
    split <;> exact ⟨rfl, rfl, rfl⟩
  exact ⟨hrst.1.trans (hfin.1.trans hack.1), hrst.2.1.trans (hfin.2.1.trans hack.2.1),
    hrst.2.2.trans (hfin.2.2.trans hack.2.2)⟩

/-- The answer for the padding of the RST part, after that of the FIN part. -/
def rstAnswer (flags : UInt16) (answers : List Bool) : Bool :=
  (answers.drop (if hasFlag flags FLAG_FIN then 1 else 0)).headD true

theorem ends_streamProcessFin {st : Stream} {flags : UInt16}
    {Q : Bool → Answers Call → Session → Prop} (h : s.streams id = some st)
    (hno : ∀ ans' t, Q false ans' t)
    (hyes : ∀ st' ans', st.finWith flags ((ans .alloc).headD true) = some st' →
      ans' .alloc = (ans .alloc).drop (if hasFlag flags FLAG_FIN then 1 else 0) →
      Q true ans' (s.setStream id st')) :
    Ends socketsOk Q (streamProcessFin id flags) ans s := by
  unfold streamProcessFin
  unfold Stream.finWith at hyes
  split
  · rename_i hf
    rw [if_pos hf, if_pos hf] at hyes
    refine .seq (ends_readStream fun st' hst' => ?_)
    obtain rfl := Option.some.inj (h.symm.trans hst')
    cases hst : st.state with
    | synSent | synReceived | established | localClose =>
      rw [hst] at hyes
      exact .seq ((ends_setState h fun ans' ha => .pure (hyes _ ans' rfl
        (by rw [ha, List.drop_one]))).mono fun _ _ _ ht => .seq ht)
    | init | remoteClose | closed | reset => exact .pure (hno _ _)
  · rename_i hf
    rw [if_neg hf, if_neg hf] at hyes
    rw [← Session.setStream_eq_self h]
    exact .pure (hyes st ans rfl List.drop_zero.symm)

theorem ends_streamProcessRst {st : Stream} {flags : UInt16}
    {Q : Unit → Answers Call → Session → Prop} (h : s.streams id = some st)
    (hQ : ∀ ans', Q () ans' (s.setStream id (st.rstWith flags ((ans .alloc).headD true)))) :
    Ends socketsOk Q (streamProcessRst id flags) ans s := by
  unfold streamProcessRst
  unfold Stream.rstWith at hQ
  split
  · rename_i hf
    rw [if_pos hf] at hQ
    exact .seq (ends_setState h fun ans' _ => hQ ans')
  · rename_i hf
    rw [if_neg hf, Session.setStream_eq_self h] at hQ
    exact .pure (hQ ans)

/-- The flags of a frame are refused, or they take effect part by part. -/
theorem ends_streamProcessFlags {st : Stream} {flags : UInt16}
    {Q : Int → Answers Call → Session → Prop} (h : s.streams id = some st)
    (hno : ∀ ans' t, Q (-1) ans' t)
    (hyes : ∀ st' ans', (st.processAck flags).finWith flags ((ans .alloc).headD true) = some st' →
      Q 0 ans' (s.setStream id (st'.rstWith flags (rstAnswer flags (ans .alloc))))) :
    Ends socketsOk Q (streamProcessFlags id flags) ans s := by
  have hack {Q : Unit → Answers Call → Session → Prop}
      (hQ : Q () ans (s.setStream id (st.processAck flags))) :
      Ends socketsOk Q (streamProcessAck id flags) ans s := by
    unfold streamProcessAck
    unfold Stream.processAck at hQ
    split
    · rename_i hf
      refine ends_onStream fun st' hst' => ?_
      obtain rfl := Option.some.inj (h.symm.trans hst')
      simpa only [hf, true_and] using hQ
    · rename_i hf
      rw [if_neg (fun hc => hf hc.1), Session.setStream_eq_self h] at hQ
      exact .pure hQ
  refine .seq (.acquire (.seq (hack (.seq ?_))))
  refine ends_streamProcessFin (s.setStream_same id _)
    (fun _ _ => .seq (.release (.pure (hno _ _)))) fun st' ans₁ hst' ha => ?_
  rw [Session.setStream_setStream]
  refine .seq (ends_streamProcessRst (s.setStream_same id st') fun ans₂ => .seq (.release ?_))
  rw [Session.setStream_setStream, ha]
  exact .pure (hyes st' ans₂ hst')

/-! ## SYN -/

/-- A SYN fails, is refused because the session is leaving, or is taken. -/
theorem ends_incomingStream {Q : Int → Answers Call → Session → Prop}
    (hno : ∀ ans' t, Q (-1) ans' t)
    (hrefuse : s.localGoAway = true → ∀ ans' t, Beside s t → ans' .alloc = (ans .alloc).drop 1 →
      Q 0 ans' t)
    (henroll : s.localGoAway = false → s.streams (hdrStreamId s.hdr) = none → ∀ ans',
      Q 0 ans' (s.enroll (hdrStreamId s.hdr))) :
    Ends socketsOk Q incomingStream ans s := by
  have hleave {ans : Answers Call} {t : Session} (reason : UInt32) : Ends socketsOk Q (do
      let _ ← sessionGoAwayForReason reason
      pure (-1) : Op Int) ans t :=
    Ends.bind (Q := fun _ _ _ => True) (fun _ _ _ _ _ => trivial) fun _ _ _ _ => .pure (hno _ _)
  refine .seq (.read (.seq (.check fun _ => .seq (.read (.seq (.read ?_))))))
  cases hl : s.localGoAway with
  | true =>
    rw [if_pos rfl]
    intro _ r ans' t hrun
    obtain ⟨r', ans₁, u, hsend, hrun⟩ := run_bind_ret hrun
    cases hrun
    obtain ⟨ans₂, hsend', halloc⟩ :=
      run_sendHeader TYPE_WINDOW_UPDATE FLAG_RST (hdrStreamId s.hdr) 0 ans s
    rw [hsend'] at hsend
    split at hsend
    · rename_i hmem
      cases hsend
      exact hrefuse hl _ _ ⟨rfl, rfl, rfl, rfl, rfl, id⟩ (by rw [halloc hmem, List.drop_one])
    · cases hsend
      exact hno _ _
  | false =>
    rw [if_neg Bool.false_ne_true]
    refine .seq (.read ?_)
    cases hst : (s.streams (hdrStreamId s.hdr)).isSome with
    | true =>
      rw [if_pos rfl]
      exact hleave _
    | false =>
      rw [if_neg Bool.false_ne_true]
      refine .seq (ends_streamNew (fun _ => ?_) fun hnone ans₁ _ => ?_)
      · rw [if_neg Bool.false_ne_true]
        exact hleave _
      · rw [if_pos rfl]
        refine .seq (.seq (.query fun hio => ?_))
        rw [hio rfl, if_pos rfl]
        refine .seq (.modify (.pure ?_))
        rw [if_neg (by decide)]
        exact .pure (henroll hl hnone _)

end Ends

end Yamux
