import S2c.Fsm.Discovery
import S2c.Fsm.Leader

namespace S2c

open Wire

inductive LogWriter where
  | attemptLeadership
  | leaderLoop
  deriving DecidableEq

namespace FSM

variable (f : FSM)

def handedPayload (acc : List StateRequest) : LogWriter → Option (UInt64 × Bytes)
  | .attemptLeadership => f.attempt.map (fun a => (a.epoch, a.payload))
  | .leaderLoop => (flushPayload acc).map (fun payload => (f.epoch, payload))

def ReadsBack (epoch : UInt64) (payload : Bytes) : Prop :=
  ∃ leaderState, parseLeaderState payload = some leaderState ∧
    leaderState.nodeIdentity = some f.nodeIdentity ∧ leaderState.epoch = epoch

end FSM

theorem leaderState_foldlM {fs : List Field} (hfs : ∀ f ∈ fs, f.number = 1) {m m' : LogEntry}
    (h : fs.foldlM (LogEntry.mergeField recursionLimit) m = some m') : m'.leaderState = m.leaderState := by
  induction fs generalizing m with
  | nil =>
    cases h
    rfl
  | cons f fs ih =>
    rw [List.foldlM_cons] at h
    obtain ⟨m₁, hmerge, hrest⟩ := Option.bind_eq_some_iff.mp h
    rw [ih (fun g hg => hfs g (List.mem_cons_of_mem _ hg)) hrest]
    simp only [LogEntry.mergeField, hfs f List.mem_cons_self] at hmerge
    obtain ⟨batch, _, rfl⟩ := Option.map_eq_some_iff.mp hmerge
    rfl

theorem parseLeaderState_flushPayload {acc : List StateRequest} {payload : Bytes}
    (h : flushPayload acc = some payload) : parseLeaderState payload = none := by
  unfold flushPayload at h
  obtain ⟨entries, _, hencode⟩ := Option.bind_eq_some_iff.mp h
  obtain ⟨rfl, hlen⟩ := Message.encodeToVec_eq_some hencode
  have hparse : parse recursionLimit (Batch.message.encode { entries := entries }) =
      some (Batch.message.toFields { entries := entries }) :=
    parse_serialize recursionLimit (Batch.message.valid _) hlen
  rw [parseLeaderState, Message.decode, Message.merge, hparse, Option.bind_some]
  cases hfold : (Batch.message.toFields { entries := entries }).foldlM (LogEntry.mergeField recursionLimit)
      LogEntry.message.empty with
  | none => exact congrArg (Option.bind · _) hfold
  | some entry =>
    have hleader : entry.leaderState = none := by
      apply leaderState_foldlM _ hfold
      intro f hf
      obtain ⟨batchEntry, _, rfl⟩ := List.mem_map.mp hf
      rfl
    exact (congrArg (Option.bind · _) hfold).trans hleader

theorem parseLeaderState_attempt {f : FSM} {a : Attempt} (h : f.attempt = some a) :
    parseLeaderState a.payload = some
      { commitIndex := a.commitIndex, nodeIdentity := some f.nodeIdentity, epoch := a.epoch, followers := [] } := by
  obtain ⟨payload, hencode, rfl⟩ := Option.map_eq_some_iff.mp h
  rw [parseLeaderState, Message.decode_encodeToVec hencode]
  rfl

theorem readsBack_iff {f : FSM} {acc : List StateRequest} {writer : LogWriter} {epoch : UInt64}
    {payload : Bytes} (h : f.handedPayload acc writer = some (epoch, payload)) :
    f.ReadsBack epoch payload ↔ writer = .attemptLeadership := by
  unfold FSM.handedPayload at h
  cases writer with
  | attemptLeadership =>
    obtain ⟨a, hattempt, ha⟩ := Option.map_eq_some_iff.mp h
    cases ha
    simp only [iff_true]
    exact ⟨_, parseLeaderState_attempt hattempt, rfl, rfl⟩
  | leaderLoop =>
    obtain ⟨payload, hflush, hp⟩ := Option.map_eq_some_iff.mp h
    cases hp
    simp only [reduceCtorEq, iff_false]
    rintro ⟨leaderState, hparse, _⟩
    rw [parseLeaderState_flushPayload hflush] at hparse
    cases hparse

theorem handedPayload_sample :
    sampleNode.handedPayload [] .attemptLeadership = some (1, sampleAttempt.payload) := by decide

theorem readsBack_iff_sample : sampleNode.ReadsBack 1 sampleAttempt.payload ↔
    LogWriter.attemptLeadership = .attemptLeadership :=
  readsBack_iff handedPayload_sample

theorem readsBack_fails : sampleLeader.handedPayload [] .leaderLoop = some (1, []) ∧
    ¬sampleLeader.ReadsBack 1 [] := by
  have hflush : flushPayload [] = some [] := rfl
  refine ⟨rfl, ?_⟩
  rintro ⟨leaderState, hparse, _⟩
  rw [parseLeaderState_flushPayload hflush] at hparse
  cases hparse

end S2c
