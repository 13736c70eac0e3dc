import S2c.Fsm.Payload
import S2c.Network.Error

namespace S2c

open Wire Loop

inductive JoinNext where
  | discover (backoff : BackoffCounter)
  | connect (backoff : BackoffCounter) (leaderIdentity : NodeIdentity)
  | follow (backoff : BackoffCounter) (leaderIdentity : NodeIdentity)
  | attempt (backoff : BackoffCounter)
  | joined
  | returned
  | panicked
  deriving DecidableEq

def joinDiscovered (backoff : BackoffCounter) : Option (Except Error (Option LeaderState)) → JoinNext
  | none => .panicked
  | some (.ok (some leaderState)) =>
    match leaderState.nodeIdentity with
    | none => .panicked
    | some leaderIdentity => .connect backoff leaderIdentity
  | some (.ok none) => .attempt backoff
  | some (.error e) =>
    if isTransient e then
      if backoff.canAttempt then .discover backoff.awaitAttempt else .discover backoff.reset
    else .returned

def joinConnected (backoff : BackoffCounter) (leaderIdentity : NodeIdentity) :
    Except ClientError Unit → JoinNext
  | .ok _ => .follow backoff leaderIdentity
  | .error .closed => .returned
  | .error .notConnected => .returned
  | .error _ => .attempt backoff

def joinFollowed (backoff : BackoffCounter) : Except ClientError Unit → JoinNext
  | .ok _ => .joined
  -- only logged: the loop starts again, unlike after `connect`
  | .error .closed => .discover backoff
  | .error .notConnected => .discover backoff
  | .error _ => .attempt backoff

def joinLeader (backoff : BackoffCounter) (leaderState : LeaderState)
    (connected followed : Except ClientError Unit) : JoinNext :=
  match joinDiscovered backoff (some (.ok (some leaderState))) with
  | .connect backoff leaderIdentity =>
    match joinConnected backoff leaderIdentity connected with
    | .follow backoff _ => joinFollowed backoff followed
    | next => next
  | next => next

def Attempt.Supersedes (a : Attempt) (leaderState : LeaderState) : Prop :=
  leaderState.commitIndex < a.commitIndex ∧ leaderState.epoch < a.epoch

namespace FSM

def Covers (f : FSM) (leaderState : LeaderState) : Prop :=
  (0 < f.commitIndex ∧ leaderState.commitIndex ≤ f.commitIndex ∧ f.commitIndex ≠ u64Max ∧
    leaderState.epoch ≤ f.epoch ∧ f.epoch ≠ u64Max) ∨
  (f.commitIndex = 0 ∧ leaderState.commitIndex = 0 ∧ leaderState.epoch = 0)

theorem lt_succ_iff (x y : UInt64) : x < y + 1 ↔ x ≤ y ∧ y ≠ u64Max := by
  have hy := y.toNat_lt
  have hmax : y = u64Max ↔ y.toNat = 2 ^ 64 - 1 := by
    rw [← UInt64.toNat_inj]
    rfl
  rw [UInt64.lt_iff_toNat_lt, UInt64.le_iff_toNat_le, ne_eq, hmax, UInt64.toNat_add]
  simp only [UInt64.toNat_one]
  omega

theorem supersedes_target_iff (f : FSM) (leaderState : LeaderState) :
    (leaderState.commitIndex < f.attemptTarget.1 ∧ leaderState.epoch < f.attemptTarget.2) ↔
      f.Covers leaderState := by
  unfold attemptTarget Covers
  by_cases hpos : 0 < f.commitIndex
  · have hne : f.commitIndex ≠ 0 := by
      rintro hzero
      simp [hzero] at hpos
    simp only [hpos, if_true, lt_succ_iff, true_and, hne, false_and, or_false]
    tauto
  · have hzero : f.commitIndex = 0 := by
      apply UInt64.toNat_inj.mp
      rw [UInt64.lt_iff_toNat_lt] at hpos
      simpa using hpos
    have hone (x : UInt64) : x < 1 ↔ x = 0 := by
      rw [UInt64.lt_iff_toNat_lt, ← UInt64.toNat_inj]
      simp
    simp [hzero, hone]

end FSM

namespace FSM

def takeover (f : FSM) (backoff : BackoffCounter) (leaderState : LeaderState)
    (connected followed : Except ClientError Unit) : Option Attempt :=
  match joinLeader backoff leaderState connected followed with
  | .attempt _ => f.attempt
  | _ => none

theorem supersedes_iff {f : FSM} {backoff : BackoffCounter} {leaderState : LeaderState}
    {connected followed : Except ClientError Unit} {a : Attempt}
    (h : f.takeover backoff leaderState connected followed = some a) :
    a.Supersedes leaderState ↔ f.Covers leaderState := by
  have hattempt : f.attempt = some a := by
    unfold takeover at h
    split at h
    · exact h
    · cases h
  obtain ⟨payload, _, rfl⟩ := Option.map_eq_some_iff.mp hattempt
  exact f.supersedes_target_iff leaderState

def otherNode : FSM := FSM.new "g" S2cOptions.default ⟨"n2", "h2", 1, "a"⟩ sampleLog

def otherAttempt : Attempt := ⟨1, 1, LogEntry.message.encode otherNode.attemptEntry⟩

def otherState : LeaderState := ⟨1, 1, some otherNode.nodeIdentity, []⟩

def twoEntries : ObjectStore :=
  ((∅ : ObjectStore).insertIfNew (sampleLog.entryPath 1) otherAttempt.payload).insertIfNew
    (sampleLog.entryPath 18446744073709551614) otherAttempt.payload

theorem discover_twoEntries : sampleNode.discoverLeaderState [sampleLog.look twoEntries] =
    .leave (some (.ok (some otherState))) := by
  have hhead : sampleLog.getHead (sampleLog.listing twoEntries) = some (.ok (some 1)) := by decide
  have hentry : sampleLog.entries twoEntries 1 = some otherAttempt.payload := by
    rw [twoEntries, S2cLog.entries_insertIfNew, WriteOnce.create_ne _ (by decide),
      S2cLog.entries_insertIfNew, WriteOnce.create_free]
    exact Std.ExtTreeMap.getElem?_empty
  have hread : twoEntries.get (sampleLog.entryPath 1) = .ok otherAttempt.payload := by
    simp only [S2cLog.entries] at hentry
    simp only [ObjectStore.get, hentry]
  have hattempt : otherNode.attempt = some otherAttempt := by decide
  apply feed_leave
  simp only [discoverTurn, S2cLog.look, hhead, hread, parseLeaderState_attempt hattempt]
  rfl

theorem takeover_sample : sampleNode.takeover (BackoffCounter.new S2cRetryOptions.default) otherState
    (.error .connectTimeout) (.ok ()) = some sampleAttempt := by decide

theorem supersedes_iff_sample : sampleAttempt.Supersedes otherState ↔ sampleNode.Covers otherState :=
  supersedes_iff takeover_sample

theorem supersedes_fails :
    sampleNode.discoverLeaderState [sampleLog.look twoEntries] = .leave (some (.ok (some otherState))) ∧
    sampleNode.takeover (BackoffCounter.new S2cRetryOptions.default) otherState
      (.error .connectTimeout) (.ok ()) = some sampleAttempt ∧
    ¬sampleAttempt.Supersedes otherState := by
  refine ⟨discover_twoEntries, takeover_sample, ?_⟩
  rintro ⟨hindex, _⟩
  revert hindex
  decide

end FSM

end S2c
