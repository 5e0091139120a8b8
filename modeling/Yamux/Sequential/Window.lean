import Yamux.Sequential.Rounds

/-!
# Windows

A stream that keeps its buffer and its window within the capacity announces
exactly the room that reading has freed, and holds back less than half of the
capacity. The operations that open and accept a stream come down to such an
announcement.
-/

namespace Yamux

open Core Prog

/-- The capacity of a stream as a number. -/
def maxWindow : Nat := 262144

theorem toNat_maxWindow : MAX_STREAM_WINDOW_SIZE.toNat = maxWindow := by
  unfold MAX_STREAM_WINDOW_SIZE
  rfl

theorem toNat_halfWindow : (MAX_STREAM_WINDOW_SIZE / 2).toNat = 131072 := by
  unfold MAX_STREAM_WINDOW_SIZE
  rfl

namespace Stream

/-- The room that a stream has granted and the bytes it holds fit its capacity. -/
def Bounded (st : Stream) : Prop := st.recvBuf.length + st.recvWindow.toNat ≤ maxWindow

/-- The room that reading has freed and no update has announced. -/
def gap (st : Stream) : Nat := maxWindow - st.recvBuf.length - st.recvWindow.toNat

variable {st : Stream}

theorem ofInt_bioPending {b : Bytes} (h : b.length < 2 ^ 31) :
    UInt32.ofInt (bioPending b) = UInt32.ofNat b.length := by
  have hmod : ((b.length : Int) % 2 ^ 32).toNat = b.length := by omega
  rw [bioPending_eq h, UInt32.ofInt, hmod]

theorem sendFlags_recvBuf (st : Stream) : st.sendFlags.2.recvBuf = st.recvBuf := by
  unfold sendFlags
  split <;> rfl

theorem sendFlags_recvWindow (st : Stream) : st.sendFlags.2.recvWindow = st.recvWindow := by
  unfold sendFlags
  split <;> rfl

/-- The credit that an update announces is the room that reading has freed. -/
theorem toNat_delta (h : st.Bounded) : st.delta.toNat = st.gap := by
  unfold Bounded at h
  have hbuf : st.recvBuf.length ≤ maxWindow := by omega
  have hroom : (MAX_STREAM_WINDOW_SIZE - UInt32.ofNat st.recvBuf.length).toNat =
      maxWindow - st.recvBuf.length := by
    rw [toNat_sub_ofNat (by rw [toNat_maxWindow]; exact hbuf), toNat_maxWindow]
  have hlen : st.recvBuf.length < 2 ^ 31 := by
    unfold maxWindow at hbuf
    omega
  unfold delta gap
  rw [ofInt_bioPending hlen, UInt32.toNat_sub_of_le _ _ ?_, hroom]
  rw [UInt32.le_iff_toNat_le, hroom]
  omega

/-- The section of an update grants all the room there is, or nothing. -/
theorem grant_cases (h : st.Bounded) (flags : UInt16) :
    (st.grant flags = (none, st) ∧ flags = 0 ∧ st.gap < 131072) ∨
    (∃ window, st.grant flags = (some st.delta, { st with recvWindow := window }) ∧
      window.toNat = st.recvWindow.toNat + st.gap) := by
  unfold grant
  by_cases hc : st.delta < MAX_STREAM_WINDOW_SIZE / 2 ∧ flags = 0
  · rw [if_pos hc]
    refine .inl ⟨rfl, hc.2, ?_⟩
    rw [← toNat_delta h, ← toNat_halfWindow]
    exact UInt32.lt_iff_toNat_lt.mp hc.1
  · rw [if_neg hc]
    refine .inr ⟨_, rfl, ?_⟩
    have hsum : st.recvWindow.toNat + st.gap ≤ maxWindow := by
      unfold Bounded at h
      unfold gap
      omega
    rw [UInt32.toNat_add, toNat_delta h, Nat.mod_eq_of_lt]
    unfold maxWindow at hsum
    omega

/-- An update grants all the room there is, or none because there is too little. -/
theorem update_cases (h : st.Bounded) :
    (st.update = (none, st.sendFlags.2) ∧ st.sendFlags.1 = 0 ∧ st.gap < 131072) ∨
    (∃ window, st.update =
        (some st.delta, { st.sendFlags.2 with recvWindow := window }) ∧
      window.toNat = st.recvWindow.toNat + st.gap) := by
  have hb : st.sendFlags.2.Bounded := by
    unfold Bounded
    rw [sendFlags_recvBuf, sendFlags_recvWindow]
    exact h
  have hd : st.sendFlags.2.delta = st.delta := by
    unfold delta
    rw [sendFlags_recvBuf, sendFlags_recvWindow]
  have hg : st.sendFlags.2.gap = st.gap := by
    unfold gap
    rw [sendFlags_recvBuf, sendFlags_recvWindow]
  have hcases := grant_cases hb st.sendFlags.1
  rw [hd, hg, sendFlags_recvWindow] at hcases
  exact hcases

end Stream

/-! ## Opening and accepting -/

variable {s : Session} {st : Stream}

/-- Alone, an id is taken in one try. -/
theorem exec_takeId {tries : Nat} (htries : 0 < tries) (hid : s.nextId < 4294967295) :
    (takeId tries).exec s = (.ret (some s.nextId), { s with nextId := s.nextId + 2 }) := by
  obtain ⟨n, rfl⟩ := Nat.exists_eq_succ_of_ne_zero htries.ne'
  have hle : ¬ 4294967295 ≤ s.nextId := UInt32.not_le.mpr hid
  rw [takeId, exec_loop_succ]
  simp only [exec_bind, exec_read, andThen_ret, if_neg hle, exec_crit, if_true, exec_pure]
  rfl

/-- Opening a stream under a free id. -/
theorem exec_sessionOpen {tries : Nat} (htries : 0 < tries) (hgo : s.remoteGoAway = false)
    (hid : s.nextId < 4294967295) (hfree : s.streams s.nextId = none) :
    (sessionOpen tries).exec s = (.ret (some s.nextId),
      ({ s with nextId := s.nextId + 2 } : Session).updateWindow s.nextId
        (Stream.fresh .init s.rcvbuf)) := by
  have hstay : ¬ s.remoteGoAway = true := by rw [hgo]; exact Bool.false_ne_true
  have hz : ¬ ((0 : Int) ≠ 0) := by decide
  rw [sessionOpen, exec_bind, exec_read, andThen_ret, if_neg hstay, exec_bind,
    exec_takeId htries hid, andThen_ret]
  dsimp only
  rw [exec_bind, exec_streamNew (s := { s with nextId := s.nextId + 2 }) hfree, andThen_ret,
    if_pos rfl, exec_bind, exec_sendWindowUpdate (Session.setStream_same _ _ _), andThen_ret,
    if_neg hz, exec_pure, Session.setStream_updateWindow]

/-- Without a try there is no id. -/
theorem exec_sessionOpen_zero (hgo : s.remoteGoAway = false) :
    ((sessionOpen 0).exec s).1 = .hang := by
  simp [sessionOpen, hgo, takeId, loop, exec]

/-- Accepting the oldest of the streams that wait for it. -/
theorem exec_sessionAccept {id : UInt32} {rest : List UInt32} (ha : s.accepts = id :: rest)
    (h : s.streams id = some st) :
    sessionAccept.exec s =
      (.ret (some id), ({ s with accepts := rest } : Session).updateWindow id st) := by
  have hz : ¬ ((0 : Int) ≠ 0) := by decide
  have hs : ({ s with accepts := rest } : Session).streams id = some st := h
  simp [sessionAccept, ha, sessionFindStream, h, exec_sendWindowUpdate hs]

/-- Nothing to accept. -/
theorem exec_sessionAccept_nil (ha : s.accepts = []) : sessionAccept.exec s = (.hang, s) := by
  simp [sessionAccept, ha]

/-- The oldest of them is no stream. -/
theorem exec_sessionAccept_dead {id : UInt32} {rest : List UInt32}
    (ha : s.accepts = id :: rest) (h : s.streams id = none) :
    (sessionAccept.exec s).1 = .abort := by
  simp [sessionAccept, ha, sessionFindStream, h]

end Yamux
