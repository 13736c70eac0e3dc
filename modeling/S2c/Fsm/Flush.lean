import S2c.Fsm.Leader
import S2c.Fsm.Leadership
import S2c.Machine

namespace S2c

open Wire Loop Machine

structure FlushRun where
  fsm : FSM
  acc : List StateRequest
  store : ObjectStore
  flushes : List (UInt64 × Except Error Unit)

namespace FlushRun

def start (f : FSM) (store : ObjectStore) : FlushRun := ⟨f, [], store, []⟩

def step (s : FlushRun) (a : Arrivals) : Option FlushRun :=
  match s.fsm.leaderTurn s.acc a with
  | .receiving f acc => some { s with fsm := f, acc := acc }
  | .appending f _ payload =>
    match f.s2cLog.append f.commitIndex payload s.store [.served] with
    | .leave (store, re) => some ⟨f, [], store, s.flushes ++ [(f.commitIndex, re)]⟩
    | .again _ => none
  | .panicked => none

structure Consecutive (c : UInt64) (size : ℕ) (s : FlushRun) : Prop where
  appended : ∀ j index re, s.flushes[j]? = some (index, re) →
    re = .ok () ∧ index.toNat = c.toNat + 1 + j
  commitIndex : s.fsm.commitIndex.toNat = c.toNat + s.flushes.length
  grown : s.store.size = size + s.flushes.length

end FlushRun

def FSM.Elected (f : FSM) (store : ObjectStore) (fates : List Fate) (store' : ObjectStore) (f' : FSM) :
    Prop :=
  f.state = .notJoined ∧ f'.state = .leader ∧
    ∃ a, f.attempt = some a ∧ f.attemptLeadership a store fates = .leave (store', f')

theorem FSM.Elected.taken {f f' : FSM} {store store' : ObjectStore} {fates : List Fate}
    (h : f.Elected store fates store' f') : f'.s2cLog.entries store' f'.commitIndex ≠ none := by
  obtain ⟨hf, hf', a, _, hleave⟩ := h
  rcases attemptLeadership_leave hleave with ⟨hentry, rfl⟩ | ⟨_, rfl⟩ | rfl
  · exact hentry
  · rw [hf] at hf'
    cases hf'
  · cases hf'

namespace FlushRun

theorem append_taken (log : S2cLog) (index : UInt64) (payload : Bytes) {store : ObjectStore}
    (h : log.entries store index ≠ none) :
    log.append index payload store [.served] = .leave (store, .error .alreadyExists) := by
  have hmem := (S2cLog.mem_iff_entries log index store).mpr h
  have hsame : store.insertIfNew (log.entryPath index) payload = store := by
    apply Std.ExtTreeMap.ext_getElem?
    intro k
    rw [Std.ExtTreeMap.getElem?_insertIfNew, if_neg (fun hk => hk.2 hmem)]
  simp [S2cLog.append, feed, S2cLog.appendBody, ObjectStore.putOpts, hmem, hsame, S2cLog.appendTurn]

structure Stuck (f : FSM) (store : ObjectStore) (s : FlushRun) : Prop where
  s2cLog : s.fsm.s2cLog = f.s2cLog
  commitIndex : s.fsm.commitIndex = f.commitIndex
  store : s.store = store
  flushes : ∀ flush ∈ s.flushes, flush = (f.commitIndex, .error .alreadyExists)

theorem stuck_step {f : FSM} {store : ObjectStore} (htaken : f.s2cLog.entries store f.commitIndex ≠ none)
    {s t : FlushRun} {a : Arrivals} (hs : Stuck f store s) (h : s.step a = some t) :
    Stuck f store t := by
  unfold step at h
  rcases s.fsm.leaderTurn_cases s.acc a with ⟨followers, hturn⟩ | ⟨followers, payload, hturn, _⟩ | hturn
  · simp only [hturn, Option.some.injEq] at h
    subst h
    exact ⟨hs.s2cLog, hs.commitIndex, hs.store, hs.flushes⟩
  · have hs' : s.fsm.s2cLog.entries s.store s.fsm.commitIndex ≠ none := by
      rw [hs.s2cLog, hs.store, hs.commitIndex]
      exact htaken
    simp only [hturn, append_taken _ _ payload hs', Option.some.injEq] at h
    subst h
    refine ⟨hs.s2cLog, hs.commitIndex, hs.store, ?_⟩
    intro flush hflush
    rcases List.mem_append.mp hflush with hflush | hflush
    · exact hs.flushes flush hflush
    · rw [List.mem_singleton.mp hflush, hs.commitIndex]
  · simp [hturn] at h

theorem stuck_exec {f : FSM} {store : ObjectStore} (htaken : f.s2cLog.entries store f.commitIndex ≠ none)
    {s : FlushRun} {arrivals : List Arrivals} (h : exec step (start f store) arrivals = some s) :
    Stuck f store s := by
  apply Machine.invariant (I := Stuck f store) _ _ ⟨arrivals, h⟩
  · intro s a t
    exact stuck_step htaken
  · exact ⟨rfl, rfl, rfl, by simp [start]⟩

theorem consecutive_iff {f f' : FSM} {store store' : ObjectStore} {fates : List Fate}
    (helected : f.Elected store fates store' f') {arrivals : List Arrivals} {s : FlushRun}
    (h : exec step (start f' store') arrivals = some s) :
    s.Consecutive f'.commitIndex store'.size ↔ s.flushes = [] := by
  have hs := stuck_exec helected.taken h
  constructor
  · intro hcons
    cases hflushes : s.flushes with
    | nil => rfl
    | cons flush flushes =>
      have hflush := hs.flushes flush (by simp [hflushes])
      obtain ⟨hok, _⟩ := hcons.appended 0 flush.1 flush.2 (by simp [hflushes])
      rw [hflush] at hok
      cases hok
  · intro hnil
    refine ⟨by simp [hnil], ?_, ?_⟩
    · rw [hs.commitIndex, hnil]
      rfl
    · rw [hs.store, hnil]
      rfl

theorem elected_sample : sampleNode.Elected ∅ [.served] sampleStore sampleLeader := by
  refine ⟨rfl, rfl, sampleAttempt, by decide, ?_⟩
  rw [FSM.attemptLeadership, feed_leave (FSM.attemptBody_served sampleNode sampleAttempt ∅ _), if_neg]
  · rfl
  · exact Std.ExtTreeMap.not_mem_empty

def sampleFlushed : FlushRun := ⟨sampleLeader, [], sampleStore, [(1, .error .alreadyExists)]⟩

theorem exec_sampleArrivals :
    exec step (start sampleLeader sampleStore) [sampleArrivals] = some sampleFlushed := by
  have hdue : sampleArrivals.due.foldlM FSM.handleDue (sampleLeader, []) =
      some (sampleLeader, [sampleRequest]) := rfl
  have hflush : sampleLeader.flushDue [sampleRequest] sampleArrivals.elapsedNanos = true := by decide
  obtain ⟨payload, hpayload⟩ : ∃ payload, flushPayload [sampleRequest] = some payload :=
    Option.isSome_iff_exists.mp (by decide)
  have hturn : sampleLeader.leaderTurn [] sampleArrivals =
      .appending sampleLeader [sampleRequest] payload := by
    simp [FSM.leaderTurn, hdue, hflush, hpayload]
  have htaken : sampleLeader.s2cLog.entries sampleStore sampleLeader.commitIndex ≠ none :=
    elected_sample.taken
  simp only [exec_cons, step, start, hturn, append_taken _ _ _ htaken]
  rfl

theorem consecutive_iff_sample : sampleFlushed.Consecutive 1 sampleStore.size ↔ sampleFlushed.flushes = [] :=
  consecutive_iff elected_sample exec_sampleArrivals

theorem consecutive_fails : sampleNode.Elected ∅ [.served] sampleStore sampleLeader ∧
    exec step (start sampleLeader sampleStore) [sampleArrivals] = some sampleFlushed ∧
    ¬sampleFlushed.Consecutive sampleLeader.commitIndex sampleStore.size := by
  refine ⟨elected_sample, exec_sampleArrivals, ?_⟩
  intro hcons
  obtain ⟨hok, _⟩ := hcons.appended 0 1 (.error .alreadyExists) rfl
  cases hok

end FlushRun

end S2c
