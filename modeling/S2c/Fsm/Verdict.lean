import S2c.Fsm.Leadership
import S2c.Log.Rejected

namespace S2c

open Wire Loop

def S2cLog.Created (log : S2cLog) (index : UInt64) (store store' : ObjectStore) : Prop :=
  log.entries store index = none ∧ log.entries store' index ≠ none

def S2cLog.VerdictAgrees (log : S2cLog) (index : UInt64) (payload : Bytes) (store : ObjectStore)
    (fates : List Fate) : Prop :=
  ∀ store', log.append index payload store fates = .leave (store', .error .alreadyExists) →
    ¬log.Created index store store'

def FSM.KeepsOwnEntry (f : FSM) (a : Attempt) (store : ObjectStore) (fates : List Fate) : Prop :=
  ∀ store' f', f.attemptLeadership a store fates = .leave (store', f') → f'.state = .notJoined →
    ¬f.s2cLog.Created a.commitIndex store store'

def S2cLog.MeetsOwnEntry (log : S2cLog) (index : UInt64) (store : ObjectStore) (c : BackoffCounter)
    (fates : List Fate) : Prop :=
  log.entries store index = none ∧ Rejected False c fates

namespace FSM

variable (f : FSM) (a : Attempt)

theorem attemptBody_generic (store : ObjectStore) (s : Attempting) {fate : Fate}
    (h : fate.Generic) : ∃ s', f.attemptBody a (store, s) fate =
      .again ((store.putOpts (f.s2cLog.entryPath a.commitIndex) a.payload fate).1, s') := by
  obtain ⟨st, source, herror⟩ := h
  simp only [attemptBody, S2cLog.putOpts_error a.payload store _ herror]
  by_cases htrans : isTransient (.generic st source) = true
  · by_cases hcan : s.appending.canAttempt = true
    · exact ⟨{ s with appending := s.appending.awaitAttempt }, by
        simp [attemptPut, S2cLog.appendTurn, htrans, hcan]⟩
    · exact ⟨⟨s.backoff.awaitAttempt, BackoffCounter.new f.s2cLog.s2cOptions.retry⟩, by
        simp [attemptPut, S2cLog.appendTurn, attemptTurn, htrans, hcan]⟩
  · exact ⟨s, by simp [attemptPut, S2cLog.appendTurn, htrans]⟩

theorem attemptBody_other (store : ObjectStore) (s : Attempting) {fate : Fate}
    (hserved : fate ≠ .served) (hgeneric : ¬fate.Generic) :
    ∃ store', f.attemptBody a (store, s) fate = .leave (store', { f with state := .stopped }) := by
  cases fate with
  | served => exact absurd rfl hserved
  | lostReply st source => exact absurd ⟨st, source, rfl⟩ hgeneric
  | refused e =>
    obtain ⟨e, he⟩ := e
    cases e with
    | generic st source => exact absurd ⟨st, source, rfl⟩ hgeneric
    | alreadyExists => exact absurd rfl he
    | notFound => exact ⟨_, rfl⟩
    | other variant => exact ⟨_, rfl⟩

theorem attempt_rejected_iff (hf : f.state = .notJoined) {c : BackoffCounter}
    (hc : c.s2cRetryOptions.maxAttempts = none) (store : ObjectStore) (s : Attempting)
    (fates : List Fate) :
    (∃ store' f', feed (f.attemptBody a) (store, s) fates = .leave (store', f') ∧
      f'.state = .notJoined) ↔
      Rejected (f.s2cLog.entries store a.commitIndex ≠ none) c fates := by
  -- the counter of the append gives up or not: an attempt only ever goes on to the next put
  induction fates generalizing store s c with
  | nil => simp [not_rejected_nil]
  | cons g fates ih =>
    rw [rejected_cons]
    by_cases hserved : g = .served
    · subst hserved
      have hnot : ¬Fate.served.Generic := by rintro ⟨st, source, h⟩; cases h
      rw [feed_leave (attemptBody_served f a store s), ← S2cLog.mem_iff_entries]
      by_cases htaken : f.s2cLog.entryPath a.commitIndex ∈ store <;> simp [htaken, hnot, hf]
    by_cases hgeneric : g.Generic
    · have hentry := S2cLog.entries_putOpts_error f.s2cLog a.commitIndex a.payload store hserved
      have hcan : c.canAttempt = true := by simp [BackoffCounter.canAttempt, hc]
      obtain ⟨s', hbody⟩ := attemptBody_generic f a store s hgeneric
      simp only [feed_again hbody, hserved, false_and, false_or, hgeneric, true_and, hcan]
      cases htrans : g.transient with
      | false =>
        rw [ih hc, propext hentry]
        simp
      | true =>
        rw [ih (c := c.awaitAttempt) (by simpa using hc), propext hentry]
        simp
    · obtain ⟨store', hbody⟩ := attemptBody_other f a store s hserved hgeneric
      simp [feed_leave hbody, hserved, hgeneric]

theorem attemptLeadership_notJoined {store store' : ObjectStore} {fates : List Fate} {f' : FSM}
    (h : f.attemptLeadership a store fates = .leave (store', f')) (hf' : f'.state = .notJoined) :
    f.s2cLog.entries store' a.commitIndex ≠ none := by
  rcases attemptLeadership_leave h with ⟨hentry, _⟩ | ⟨hentry, _⟩ | rfl
  · exact hentry
  · exact hentry
  · cases hf'

end FSM

theorem S2cLog.verdictAgrees_iff (log : S2cLog) (index : UInt64) (payload : Bytes)
    (store : ObjectStore) (fates : List Fate) : log.VerdictAgrees index payload store fates ↔
      ¬log.MeetsOwnEntry index store (BackoffCounter.new log.s2cOptions.retry) fates := by
  have hexact := append_rejected_iff log index payload store (BackoffCounter.new log.s2cOptions.retry) fates
  constructor
  · rintro hagrees ⟨hfree, hrejected⟩
    rw [hfree] at hexact
    obtain ⟨store', h⟩ := hexact.mpr (by simpa using hrejected)
    exact hagrees store' h ⟨hfree, append_alreadyExists log index payload h⟩
  · rintro hmeets store' h ⟨hfree, _⟩
    rw [hfree] at hexact
    apply hmeets
    exact ⟨hfree, by simpa using hexact.mp ⟨store', h⟩⟩

theorem FSM.keepsOwnEntry_iff (f : FSM) (a : Attempt) (store : ObjectStore) (fates : List Fate)
    (hf : f.state = .notJoined) : f.KeepsOwnEntry a store fates ↔
      ¬f.s2cLog.MeetsOwnEntry a.commitIndex store (BackoffCounter.new f.s2cOptions.retry.toUnlimited) fates := by
  have hexact := attempt_rejected_iff f a hf
    (c := BackoffCounter.new f.s2cOptions.retry.toUnlimited) rfl store f.startAttempting fates
  constructor
  · rintro hkeeps ⟨hfree, hrejected⟩
    rw [hfree] at hexact
    obtain ⟨store', f', h, hf'⟩ := hexact.mpr (by simpa using hrejected)
    exact hkeeps store' f' h hf' ⟨hfree, attemptLeadership_notJoined f a h hf'⟩
  · rintro hmeets store' f' h hf' ⟨hfree, _⟩
    rw [hfree] at hexact
    apply hmeets
    exact ⟨hfree, by simpa using hexact.mp ⟨store', f', h, hf'⟩⟩

theorem verdict_iff (log : S2cLog) (f : FSM) (index : UInt64) (payload : Bytes) (a : Attempt)
    (store : ObjectStore) (fates : List Fate) (hf : f.state = .notJoined) :
    (log.VerdictAgrees index payload store fates ↔
      ¬log.MeetsOwnEntry index store (BackoffCounter.new log.s2cOptions.retry) fates) ∧
    (f.KeepsOwnEntry a store fates ↔ ¬f.s2cLog.MeetsOwnEntry a.commitIndex store
      (BackoffCounter.new f.s2cOptions.retry.toUnlimited) fates) :=
  ⟨log.verdictAgrees_iff index payload store fates, f.keepsOwnEntry_iff a store fates hf⟩

def lostThenServed : List Fate := [.lostReply "S3" "503 slowdown", .served]

theorem verdict_iff_fresh : sampleNode.state = .notJoined ∧
    (sampleLog.VerdictAgrees 1 sampleAttempt.payload ∅ lostThenServed ↔
      ¬sampleLog.MeetsOwnEntry 1 ∅ (BackoffCounter.new sampleLog.s2cOptions.retry) lostThenServed) ∧
    (sampleNode.KeepsOwnEntry sampleAttempt ∅ lostThenServed ↔ ¬sampleLog.MeetsOwnEntry 1 ∅
      (BackoffCounter.new sampleNode.s2cOptions.retry.toUnlimited) lostThenServed) :=
  ⟨rfl, verdict_iff sampleLog sampleNode 1 sampleAttempt.payload sampleAttempt ∅ lostThenServed rfl⟩

theorem rejected_lostThenServed {c : BackoffCounter} (hc : c.canAttempt = true) :
    Rejected False c lostThenServed := by
  refine ⟨[.lostReply "S3" "503 slowdown"], [], rfl, ?_, ?_, Or.inr ⟨_, List.mem_cons_self, rfl⟩⟩
  · simp [Fate.Generic, Fate.error]
  · have hcount : [Fate.lostReply "S3" "503 slowdown"].countP Fate.transient = 1 := by decide
    rw [hcount]
    exact ⟨hc, trivial⟩

theorem verdict_fails : ¬sampleLog.VerdictAgrees 1 [] ∅ lostThenServed ∧
    sampleNode.state = .notJoined ∧ sampleNode.attempt = some sampleAttempt ∧
    ¬sampleNode.KeepsOwnEntry sampleAttempt ∅ lostThenServed := by
  have hfree : sampleLog.entries ∅ 1 = none := by simp [S2cLog.entries]
  rw [S2cLog.verdictAgrees_iff, not_not, FSM.keepsOwnEntry_iff _ _ _ _ rfl, not_not]
  refine ⟨⟨hfree, ?_⟩, rfl, by decide, ⟨hfree, ?_⟩⟩
  · exact rejected_lostThenServed (by decide)
  · exact rejected_lostThenServed (by decide)

end S2c
