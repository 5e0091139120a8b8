import Yamux.Failure.Stream
import Yamux.Network.Sending
import Yamux.Native.Api

/-!
# Credit and handshake over runs with failures

`stream_read`, `session_accept` and `session_open` are the calls that send window
updates. As long as the allocation of the frame succeeds whenever an update is due,
the credit that such calls add to a window is the credit of the frames that they
queue, and a handshake flag is used up only by a frame that carries it.
-/

namespace Yamux

open Core Prog

variable {s t : Session} {id : UInt32} {st : Stream}

/-! ## Accounts of a call -/

namespace Session

/-- The receive window of a stream, which is full before there is a stream. -/
def formerWindow (s : Session) (id : UInt32) : UInt32 :=
  (s.streams id).elim MAX_STREAM_WINDOW_SIZE Stream.recvWindow

/-- The state of a stream, which is `INIT` before there is a stream. -/
def formerState (s : Session) (id : UInt32) : StreamState :=
  (s.streams id).elim .init Stream.state

/-- The credit that a call, which led from `s` to `t`, has added to a window. -/
def gained (s t : Session) (id : UInt32) : Nat :=
  (t.streams id).elim 0 fun st => (st.recvWindow - s.formerWindow id).toNat

/-- The frames that it has queued. -/
def queued (s t : Session) : List Frame := Frame.decode (t.sendBuf.drop s.sendBuf.length)

/-- A call has queued the frames `gs`, and these account for what it did. -/
structure Accounts (s t : Session) (gs : List Frame) : Prop where
  sendBuf : t.sendBuf = s.sendBuf ++ Frame.encode gs
  gained : ∀ id, s.gained t id = Frame.grantFor id gs
  told : ∀ id st, t.streams id = some st → st.state ≠ s.formerState id →
    (s.formerState id).Unannounced ∧ ∃ f ∈ gs, f.id = id ∧ f.flags = (s.formerState id).flags

namespace Accounts

variable {gs : List Frame}

theorem queued_eq (h : Accounts s t gs) : s.queued t = gs := by
  rw [queued, h.sendBuf, List.drop_left, Frame.decode_encode]

theorem balanced (h : Accounts s t gs) (id : UInt32) :
    s.gained t id = Frame.grantFor id (s.queued t) := by
  rw [h.queued_eq, h.gained]

/-- A session that agrees with `s` on what is accounted for. -/
theorem congr {u : Session} (h : Accounts u t gs) (hbuf : u.sendBuf = s.sendBuf)
    (hwindow : ∀ id, u.formerWindow id = s.formerWindow id)
    (hstate : ∀ id, u.formerState id = s.formerState id) : Accounts s t gs where
  sendBuf := hbuf ▸ h.sendBuf
  gained id := by
    rw [← h.gained, Session.gained, Session.gained, hwindow]
  told id := by
    rw [← hstate]
    exact h.told id

/-- An update whose frame is queued. -/
theorem update (h : s.streams id = some st) :
    Accounts s (s.updateWindow id st) (st.updateFrames id) where
  sendBuf := by
    rw [Session.updateWindow, Session.queue_sendBuf, Session.setStream_sendBuf, announce_eq]
    rfl
  gained i := by
    rw [Session.gained]
    by_cases hi : i = id
    · subst hi
      rw [updateWindow_stream, Option.elim_some, formerWindow, h, Option.elim_some]
      by_cases hd : st.Due
      · obtain ⟨window, hwindow, hu⟩ := st.update_of_due hd
        have hnext : st.update.2.recvWindow = window := by rw [hu]
        have hframes : st.updateFrames i = [Frame.windowUpdate st.sendFlags.1 i st.delta] := by
          rw [Stream.updateFrames, hu, announceFrames]
        rw [hnext, hwindow, hframes, Frame.grantFor_cons, grant_windowUpdate, Frame.grantFor_nil,
          Nat.add_zero, UInt32.add_comm, UInt32.add_sub_cancel]
      · have hu := st.update_of_not_due hd
        have hnext : st.update.2 = st := by rw [hu]
        have hframes : st.updateFrames i = [] := by rw [Stream.updateFrames, hu, announceFrames]
        rw [hnext, hframes, UInt32.sub_self]
        rfl
    · have hsame : (s.updateWindow id st).streams i = s.streams i := by
        rw [Session.updateWindow, Session.queue_streams, Session.setStream_of_ne _ _ _ hi]
      have hids : ∀ f ∈ st.updateFrames id, f.id = id := fun f hf => by
        obtain ⟨delta, rfl⟩ := mem_updateFrames hf
        exact windowUpdate_id _ _
      rw [hsame, formerWindow, Frame.grantFor_of_ne hids hi]
      cases s.streams i with
      | none => rfl
      | some st' =>
        rw [Option.elim_some, Option.elim_some, UInt32.sub_self]
        rfl
  told i st' hst' hne := by
    by_cases hi : i = id
    · subst hi
      rw [updateWindow_stream] at hst'
      obtain rfl := Option.some.inj hst'
      have hformer : s.formerState i = st.state := by rw [formerState, h, Option.elim_some]
      rw [hformer] at hne ⊢
      by_cases hun : st.state.Unannounced
      · obtain ⟨window, -, hu⟩ := st.update_of_due (.inr hun)
        refine ⟨hun, Frame.windowUpdate st.sendFlags.1 i st.delta, ?_, windowUpdate_id _ _, ?_⟩
        · rw [Stream.updateFrames, hu, announceFrames]
          exact List.mem_singleton_self _
        · rw [← st.sendFlags_eq.1]
          exact hdrFlags_hdrEncode _ _ _ _
      · refine absurd ?_ hne
        have hflags := (sendFlags_state_eq st).mpr hun
        by_cases hd : st.Due
        · obtain ⟨window, -, hu⟩ := st.update_of_due hd
          have hnext : st.update.2.state = st.sendFlags.2.state := by rw [hu]
          rw [hnext, hflags]
        · rw [st.update_of_not_due hd]
    · have hsame : (s.updateWindow id st).streams i = s.streams i := by
        rw [Session.updateWindow, Session.queue_streams, Session.setStream_of_ne _ _ _ hi]
      rw [hsame] at hst'
      rw [formerState, hst', Option.elim_some] at hne
      exact absurd rfl hne

/-- A call of `send_window_update` that can queue its frame if one is due. -/
theorem sendWindowUpdate {ans ans' : Answers Call} {r : Int} (h : s.streams id = some st)
    (hclean : st.Due → (ans .alloc).headD true = true)
    (hrun : (sendWindowUpdate id).run ans s = (.ret r, ans', t)) : ∃ gs, Accounts s t gs := by
  obtain ⟨ans'', hrun'⟩ := run_sendWindowUpdate h ans
  have hnot : ¬ ((st.update.1).isSome ∧ (ans .alloc).headD true = false) := by
    rintro ⟨hsome, hfail⟩
    by_cases hd : st.Due
    · rw [hclean hd] at hfail
      cases hfail
    · rw [st.update_of_not_due hd] at hsome
      cases hsome
  rw [if_neg hnot, hrun] at hrun'
  cases hrun'
  exact ⟨_, update h⟩

end Accounts

end Session

/-! ## The calls that send window updates -/

/-- What a read that found data has done to the stream before its update. -/
def Stream.drained (st : Stream) (size : Nat) (readable : Bool) : Stream :=
  { st with recvBuf := st.recvBuf.drop size, readable := readable }

theorem Stream.due_drained (st : Stream) (size : Nat) (readable : Bool) :
    (st.drained size readable).Due ↔ (st.drained size false).Due := Iff.rfl

theorem run_streamReadableWaiting (h : s.streams id = some st) (ans : Answers Call) :
    ∃ r ans' readable, (streamReadableWaiting id).run ans s =
        (.ret r, ans', s.setStream id { st with readable := readable }) ∧
      ans' Call.alloc = ans .alloc := by
  have hmark (io : Bool) : ∃ (r : Int) (readable : Bool), (if st.readable then
      if ¬ io then (-1, st) else (0, { st with readable := false })
      else (0, st)) = (r, { st with readable := readable }) := by
    split
    · split
      · exact ⟨-1, st.readable, rfl⟩
      · exact ⟨0, false, rfl⟩
    · exact ⟨0, st.readable, rfl⟩
  obtain ⟨r, readable, hreadable⟩ := hmark ((ans .sock).headD true)
  refine ⟨r, ans.next .sock, readable, ?_, ans.next_of_ne (by decide)⟩
  rw [streamReadableWaiting, run_bind, run_query, runThen_ret, run_onStream _ h, hreadable]

/-- A read returns without an update, or its last step is one. -/
theorem run_streamRead_cases {size : Nat} {ans ans' : Answers Call} {r : Int × Bytes}
    (h : s.streams id = some st)
    (hrun : (streamRead id size).run ans s = (.ret r, ans', t)) :
    t = s ∨ ∃ readable, t = s.setStream id (st.drained size readable) ∨
      (st.recvBuf ≠ [] ∧ ∃ r' ans₁ ans₂, ans₁ Call.alloc = ans .alloc ∧
        (sendWindowUpdate id).run ans₁ (s.setStream id (st.drained size readable)) =
          (.ret r', ans₂, t)) := by
  have hclosed : ∃ early, (streamReadClosed id).run ans s = (.ret early, ans, s) := by
    cases hst : st.state <;> simp [streamReadClosed, run_readStream ans h, hst]
  obtain ⟨early, hearly⟩ := hclosed
  rw [streamRead, run_bind, hearly, runThen_ret] at hrun
  cases early with
  | some r' =>
    cases hrun
    exact .inl rfl
  | none =>
    simp only [run_bind, run_readStream ans h, runThen_ret] at hrun
    by_cases hz : bioPending st.recvBuf = 0
    · -- nothing to read
      left
      simp only [if_pos hz, run_bind, run_readStream ans h, runThen_ret] at hrun
      cases hb : st.nonblock with
      | true =>
        rw [hb, if_pos rfl] at hrun
        cases hrun
        rfl
      | false =>
        rw [hb, if_neg Bool.false_ne_true, run_bind, run_query, runThen_ret] at hrun
        cases ha : (ans .sock).headD true with
        | false =>
          rw [ha, if_neg Bool.false_ne_true] at hrun
          cases hrun
          rfl
        | true =>
          rw [ha, if_pos rfl] at hrun
          exact absurd hrun run_await_again
    · -- bytes are taken, and then the descriptor may have to be cleared
      right
      rw [if_neg hz] at hrun
      obtain ⟨⟨count, bytes, pending⟩, ans₁, u, htake, hrun⟩ := run_bind_ret hrun
      rw [run_onStream ans h] at htake
      cases htake
      obtain ⟨⟨⟩, ans₁, u, hcheck, hrun⟩ := run_bind_ret hrun
      rw [run_check] at hcheck
      split at hcheck
      · rename_i hpos
        cases hcheck
        rw [decide_eq_true_eq] at hpos
        have hne : st.recvBuf ≠ [] := by
          rintro hnil
          simp only [hnil, List.take_nil, List.length_nil,
            toInt32_eq (n := 0) (by decide)] at hpos
          exact lt_irrefl _ hpos
        obtain ⟨waiting, ans₁, u, hwait, hrun⟩ := run_bind_ret hrun
        have hu : ∃ readable, u = s.setStream id (st.drained size readable) ∧
            ans₁ Call.alloc = ans .alloc := by
          split at hwait
          · obtain ⟨r', ans₂, readable, hw, halloc⟩ := run_streamReadableWaiting
              (s.setStream_same id (Stream.take size st).2) ans
            rw [hw] at hwait
            cases hwait
            exact ⟨readable, by rw [Session.setStream_setStream]; rfl, halloc⟩
          · cases hwait
            exact ⟨st.readable, rfl, rfl⟩
        obtain ⟨readable, rfl, halloc⟩ := hu
        refine ⟨readable, ?_⟩
        split at hrun
        · cases hrun
          exact .inl rfl
        · obtain ⟨r', ans₂, u, hupdate, hrun⟩ := run_bind_ret hrun
          cases hrun
          exact .inr ⟨hne, r', ans₁, _, halloc, hupdate⟩
      · cases hcheck

theorem run_onStream_ret {α : Type} {ms : List Mutex} {g : Stream → α × Stream} {a : α}
    {ans ans' : Answers Call} (h : (onStream ms id g).run ans s = (.ret a, ans', t)) :
    ∃ st, s.streams id = some st := by
  cases hst : s.streams id with
  | none =>
    simp [onStream, Prog.run, hst] at h
  | some st => exact ⟨st, rfl⟩

namespace Session

/-- A change of a stream that leaves its window and its state as they are. -/
theorem former_setStream (h : s.streams id = some st) {st' : Stream}
    (hwindow : st'.recvWindow = st.recvWindow) (hstate : st'.state = st.state) (i : UInt32) :
    (s.setStream id st').formerWindow i = s.formerWindow i ∧
      (s.setStream id st').formerState i = s.formerState i := by
  unfold formerWindow formerState
  rw [setStream_streams]
  split
  · subst i
    rw [h, Option.elim_some, Option.elim_some, Option.elim_some, Option.elim_some, hwindow, hstate]
    exact ⟨rfl, rfl⟩
  · exact ⟨rfl, rfl⟩

/-- Frames without credit, and the same windows and states as before. -/
theorem Accounts.idle_of {u : Session} {gs : List Frame}
    (hbuf : u.sendBuf = s.sendBuf ++ Frame.encode gs) (hgrant : ∀ i, Frame.grantFor i gs = 0)
    (hformer : ∀ i, u.formerWindow i = s.formerWindow i ∧ u.formerState i = s.formerState i) :
    Accounts s u gs where
  sendBuf := hbuf
  gained i := by
    rw [hgrant, Session.gained, ← (hformer i).1, formerWindow]
    cases u.streams i with
    | none => rfl
    | some st =>
      rw [Option.elim_some, Option.elim_some, UInt32.sub_self]
      rfl
  told i st hst hne := by
    rw [← (hformer i).2, formerState, hst] at hne
    exact absurd rfl hne

theorem Accounts.refl (s : Session) : Accounts s s [] :=
  .idle_of (by rw [Frame.encode_nil, List.append_nil]) (fun _ => rfl) fun _ => ⟨rfl, rfl⟩

/-- `stream_read`. -/
theorem Accounts.streamRead {size : Nat} {ans ans' : Answers Call} {r : Int × Bytes}
    (hclean : ∀ st, s.streams id = some st → st.recvBuf ≠ [] → (st.drained size false).Due →
      (ans .alloc).headD true = true)
    (hrun : (streamRead id size).run ans s = (.ret r, ans', t)) : ∃ gs, Accounts s t gs := by
  obtain ⟨st, h⟩ : ∃ st, s.streams id = some st := by
    obtain ⟨early, ans₁, u, hclosed, -⟩ := run_bind_ret hrun
    obtain ⟨⟨⟩, ans₂, u', hlock, hclosed⟩ := run_bind_ret hclosed
    cases hlock
    obtain ⟨state, ans₃, u'', hread, -⟩ := run_bind_ret hclosed
    exact run_onStream_ret hread
  have hsame (readable : Bool) := @former_setStream _ _ _ h (st.drained size readable) rfl rfl
  rcases run_streamRead_cases h hrun with rfl | ⟨readable, rfl | ⟨hne, r', ans₁, ans₂, ha, hu⟩⟩
  · exact ⟨[], .refl t⟩
  · refine ⟨[], .idle_of ?_ (fun _ => rfl) (hsame readable)⟩
    rw [Frame.encode_nil, List.append_nil, setStream_sendBuf]
  · obtain ⟨gs, hgs⟩ := sendWindowUpdate (s.setStream_same id _)
      (fun hd => by rw [ha]; exact hclean st h hne hd) hu
    exact ⟨gs, hgs.congr rfl (fun i => (hsame readable i).1) fun i => (hsame readable i).2⟩

/-- Leaving queues a frame that is no window update. -/
theorem Accounts.leave {reason : UInt32} {ans ans' : Answers Call} {r : Int}
    (hrun : (sessionGoAwayForReason reason).run ans s = (.ret r, ans', t)) :
    ∃ gs, Accounts s t gs := by
  obtain ⟨⟨⟩, ans₁, u, hmark, hrun⟩ := run_bind_ret hrun
  cases hmark
  obtain ⟨r', ans₁, u, hsend, hrun⟩ := run_bind_ret hrun
  cases hrun
  obtain ⟨ans₂, hsend', -⟩ := run_sendHeader TYPE_GO_AWAY 0 0 reason ans
    { s with localGoAway := true }
  rw [hsend'] at hsend
  split at hsend
  · cases hsend
    refine ⟨[Frame.control TYPE_GO_AWAY 0 0 reason (by decide)],
      .idle_of ?_ (fun i => ?_) fun _ => ⟨rfl, rfl⟩⟩
    · rw [queue_sendBuf, Frame.encode_cons, Frame.encode_nil, List.append_nil]
      exact congrArg _ (List.append_nil _).symm
    · rw [Frame.grantFor_cons, Frame.grantFor_nil, Nat.add_zero, Frame.grant, if_neg]
      have hne : TYPE_GO_AWAY ≠ TYPE_WINDOW_UPDATE := by decide
      exact fun h => hne h.1
  · cases hsend
    refine ⟨[], .idle_of ?_ (fun _ => rfl) fun _ => ⟨rfl, rfl⟩⟩
    rw [Frame.encode_nil, List.append_nil]

/-- `session_accept`. -/
theorem Accounts.sessionAccept {ans ans' : Answers Call} {r : Option UInt32}
    (hclean : ∀ id st, s.accepts.head? = some id → s.streams id = some st → st.Due →
      (ans .alloc).headD true = true)
    (hrun : sessionAccept.run ans s = (.ret r, ans', t)) : ∃ gs, Accounts s t gs := by
  rw [Yamux.sessionAccept, run_bind, run_query, runThen_ret] at hrun
  have halloc : ans.next .sock Call.alloc = ans .alloc := ans.next_of_ne (by decide)
  cases ha : (ans .sock).headD true with
  | false =>
    rw [ha, if_neg Bool.false_ne_true] at hrun
    obtain ⟨r', ans₁, u, hleave, hrun⟩ := run_bind_ret hrun
    cases hrun
    exact leave hleave
  | true =>
    rw [ha, if_pos rfl] at hrun
    obtain ⟨⟨⟩, ans₁, u, hwait, hpop⟩ := run_bind_ret hrun
    clear hrun
    have hwait' : ans₁ = ans.next .sock ∧ u = s := by
      simp only [await, run] at hwait
      split at hwait
      · cases hwait
        exact ⟨rfl, rfl⟩
      · cases hwait
    obtain ⟨rfl, rfl⟩ := hwait'
    rw [run_bind, run_crit, runThen_ret] at hpop
    dsimp only at hpop
    cases hhead : u.accepts.head? with
    | none =>
      rw [hhead] at hpop
      cases hpop
    | some id =>
      rw [hhead] at hpop
      simp only [sessionFindStream, run_bind, run_read, runThen_ret, run_check] at hpop
      cases hst : u.streams id with
      | none =>
        rw [hst] at hpop
        cases hpop
      | some st =>
        rw [hst, Option.isSome_some, if_pos rfl, runThen_ret] at hpop
        obtain ⟨r', ans₁, v, hupdate, hrun⟩ := run_bind_ret hpop
        cases hrun
        have hst' : ({ u with accepts := u.accepts.tail } : Session).streams id = some st := hst
        obtain ⟨gs, hgs⟩ := @sendWindowUpdate _ _ _ _ (ans.next .sock) _ _ hst'
          (fun hd => by rw [halloc]; exact hclean id st hhead hst hd) hupdate
        exact ⟨gs, hgs.congr rfl (fun _ => rfl) fun _ => rfl⟩

theorem run_takeId {tries : Nat} {ans ans' : Answers Call} {r : Option UInt32}
    (hrun : (takeId tries).run ans s = (.ret r, ans', t)) :
    ans' = ans ∧ ∃ n, t = { s with nextId := n } := by
  cases tries with
  | zero => cases hrun
  | succ tries =>
    rw [takeId, loop, ← bind_eq, run_bind, run_bind, run_read, runThen_ret] at hrun
    split at hrun
    · cases hrun
      exact ⟨rfl, _, rfl⟩
    · rw [run_bind, run_crit, runThen_ret] at hrun
      simp only [if_true] at hrun
      cases hrun
      exact ⟨rfl, _, rfl⟩

theorem run_streamNew {state : StreamState} {ans ans' : Answers Call} {created : Bool}
    (hrun : (streamNew id state).run ans s = (.ret created, ans', t)) :
    (created = false ∧ t = s) ∨ (created = true ∧ s.streams id = none ∧
      t = s.setStream id (Stream.fresh state s.rcvbuf)) := by
  simp only [streamNew, run_bind, run_query, runThen_ret] at hrun
  split at hrun
  · simp only [run_bind, run_read, runThen_ret, sessionInsertStream, run_crit, run_check] at hrun
    cases hst : s.streams id with
    | none =>
      right
      simp only [hst, Option.isSome_none, Bool.false_eq_true, if_false, if_true, runThen_ret] at hrun
      cases hrun
      exact ⟨rfl, rfl, rfl⟩
    | some st =>
      simp only [hst, Option.isSome_some, Bool.false_eq_true, if_true, if_false] at hrun
      cases hrun
  · cases hrun
    exact .inl ⟨rfl, rfl⟩

/-- `session_open`, which takes the stream back when its SYN could not be queued. -/
theorem Accounts.sessionOpen {tries : Nat} {ans ans' : Answers Call} {r : Option UInt32}
    (hrun : (sessionOpen tries).run ans s = (.ret r, ans', t)) : ∃ gs, Accounts s t gs := by
  have hnothing (n : UInt32) : Accounts s { s with nextId := n } [] := by
    refine .idle_of ?_ (fun _ => rfl) fun _ => ⟨rfl, rfl⟩
    rw [Frame.encode_nil, List.append_nil]
  rw [Yamux.sessionOpen, run_bind, run_read, runThen_ret] at hrun
  split at hrun
  · cases hrun
    exact ⟨[], .refl _⟩
  · obtain ⟨taken, ans₁, u, htake, hrun⟩ := run_bind_ret hrun
    obtain ⟨rfl, n, rfl⟩ := run_takeId htake
    cases taken with
    | none =>
      cases hrun
      exact ⟨[], hnothing n⟩
    | some id =>
      obtain ⟨created, ans₂, v, hnew, hrun⟩ := run_bind_ret hrun
      rcases run_streamNew hnew with ⟨rfl, rfl⟩ | ⟨rfl, hfree, rfl⟩
      · rw [if_neg Bool.false_ne_true] at hrun
        cases hrun
        exact ⟨[], hnothing n⟩
      · rw [if_pos rfl] at hrun
        obtain ⟨r', ans₃, w, hupdate, hrun⟩ := run_bind_ret hrun
        have hstream := ({ s with nextId := n } : Session).setStream_same id
          (Stream.fresh .init s.rcvbuf)
        -- the new stream has the window and the state that count before there is one
        have hfresh (i : UInt32) : (({ s with nextId := n } : Session).setStream id
            (Stream.fresh .init s.rcvbuf)).formerWindow i = s.formerWindow i ∧
            (({ s with nextId := n } : Session).setStream id
              (Stream.fresh .init s.rcvbuf)).formerState i = s.formerState i := by
          unfold formerWindow formerState
          rw [setStream_streams]
          split
          · subst i
            change s.streams id = none at hfree
            rw [hfree]
            exact ⟨rfl, rfl⟩
          · exact ⟨rfl, rfl⟩
        obtain ⟨ans₄, hupdate'⟩ := run_sendWindowUpdate hstream ans₂
        rw [hupdate'] at hupdate
        split at hupdate
        · cases hupdate
          rw [if_pos (by decide)] at hrun
          obtain ⟨⟨⟩, ans₅, v, hfree', hrun⟩ := run_bind_ret hrun
          cases hrun
          simp only [streamFree, sessionRemoveStream, run_bind, run_crit, runThen_ret, run_check]
            at hfree'
          split at hfree'
          · cases hfree'
            refine ⟨[], .idle_of ?_ (fun _ => rfl) fun i => ?_⟩
            · rw [Frame.encode_nil, List.append_nil]
              rfl
            · have hgone : Function.update (Function.update (Function.update s.streams id
                  (some (Stream.fresh .init s.rcvbuf))) id
                  (some (Stream.fresh .init s.rcvbuf).update.2)) id none = s.streams := by
                rw [Function.update_idem, Function.update_idem, Function.update_eq_self_iff]
                exact hfree.symm
              unfold formerWindow formerState
              simp only [setStream]
              rw [hgone]
              exact ⟨rfl, rfl⟩
          · cases hfree'
        · cases hupdate
          rw [if_neg (by decide)] at hrun
          cases hrun
          exact ⟨_, (update hstream).congr rfl (fun i => (hfresh i).1) fun i => (hfresh i).2⟩

end Session

/-! ## Runs -/

end Yamux
