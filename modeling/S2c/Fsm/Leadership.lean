import S2c.Fsm.State

namespace S2c

open Wire Loop

structure Attempt where
  commitIndex : UInt64
  epoch : UInt64
  payload : Bytes
  deriving DecidableEq

namespace FSM

def attemptTarget (f : FSM) : UInt64 × UInt64 :=
  if 0 < f.commitIndex then (f.commitIndex + 1, f.epoch + 1) else (1, 1)

def attemptEntry (f : FSM) : LogEntry where
  batch := some { entries := [] }
  leaderState := some
    { commitIndex := f.attemptTarget.1
      nodeIdentity := some f.nodeIdentity
      epoch := f.attemptTarget.2
      followers := [] }

def attempt (f : FSM) : Option Attempt :=
  (LogEntry.message.encodeToVec f.attemptEntry).map
    (fun payload => ⟨f.attemptTarget.1, f.attemptTarget.2, payload⟩)

def attemptTurn (f : FSM) (a : Attempt) (backoff : BackoffCounter) :
    Except Error Unit → Turn BackoffCounter FSM
  | .ok _ => .leave { f with state := .leader, commitIndex := a.commitIndex, epoch := a.epoch }
  | .error .alreadyExists => .leave f
  | .error e =>
    if isTransient e then .again backoff.awaitAttempt else .leave { f with state := .stopped }

structure Attempting where
  backoff : BackoffCounter
  appending : BackoffCounter
  deriving DecidableEq

def startAttempting (f : FSM) : Attempting where
  backoff := BackoffCounter.new f.s2cOptions.retry.toUnlimited
  appending := BackoffCounter.new f.s2cLog.s2cOptions.retry

def attemptPut (f : FSM) (a : Attempt) (s : Attempting) (answer : Except Error Unit) :
    Turn Attempting FSM :=
  match S2cLog.appendTurn s.appending answer with
  | .again appending => .again { s with appending := appending }
  | .leave re =>
    match f.attemptTurn a s.backoff re with
    | .again backoff => .again ⟨backoff, BackoffCounter.new f.s2cLog.s2cOptions.retry⟩
    | .leave f => .leave f

def attemptBody (f : FSM) (a : Attempt) (s : ObjectStore × Attempting) (fate : Fate) :
    Turn (ObjectStore × Attempting) (ObjectStore × FSM) :=
  let (store, answer) := s.1.putOpts (f.s2cLog.entryPath a.commitIndex) a.payload fate
  match f.attemptPut a s.2 answer with
  | .again s => .again (store, s)
  | .leave f => .leave (store, f)

def attemptLeadership (f : FSM) (a : Attempt) (store : ObjectStore) (fates : List Fate) :
    Turn (ObjectStore × Attempting) (ObjectStore × FSM) :=
  feed (f.attemptBody a) (store, f.startAttempting) fates

variable {f f' : FSM} {a : Attempt}

theorem attemptBody_served (f : FSM) (a : Attempt) (store : ObjectStore) (s : Attempting) :
    f.attemptBody a (store, s) .served =
      .leave (store.insertIfNew (f.s2cLog.entryPath a.commitIndex) a.payload,
        if f.s2cLog.entryPath a.commitIndex ∈ store then f
        else { f with state := .leader, commitIndex := a.commitIndex, epoch := a.epoch }) := by
  simp only [attemptBody, ObjectStore.putOpts]
  split_ifs <;> rfl

theorem attemptPut_leave {s : Attempting} {answer : Except Error Unit}
    (h : f.attemptPut a s answer = .leave f') :
    (answer = .ok () ∧ f' = { f with state := .leader, commitIndex := a.commitIndex, epoch := a.epoch }) ∨
    (answer = .error .alreadyExists ∧ f' = f) ∨ f' = { f with state := .stopped } := by
  unfold attemptPut at h
  split at h
  · cases h
  · rename_i re hturn
    obtain rfl := S2cLog.appendTurn_leave hturn
    split at h
    · cases h
    · rename_i f₁ hattempt
      cases h
      unfold attemptTurn at hattempt
      split at hattempt
      · cases hattempt
        exact Or.inl ⟨rfl, rfl⟩
      · cases hattempt
        exact Or.inr (Or.inl ⟨rfl, rfl⟩)
      · split_ifs at hattempt
        cases hattempt
        exact Or.inr (Or.inr rfl)

theorem attemptLeadership_leave {store store' : ObjectStore} {fates : List Fate}
    (h : f.attemptLeadership a store fates = .leave (store', f')) :
    (f.s2cLog.entries store' a.commitIndex ≠ none ∧
      f' = { f with state := .leader, commitIndex := a.commitIndex, epoch := a.epoch }) ∨
    (f.s2cLog.entries store' a.commitIndex ≠ none ∧ f' = f) ∨ f' = { f with state := .stopped } := by
  apply feed_invariant (I := fun _ => True)
    (Q := fun b => (f.s2cLog.entries b.1 a.commitIndex ≠ none ∧
      b.2 = { f with state := .leader, commitIndex := a.commitIndex, epoch := a.epoch }) ∨
      (f.s2cLog.entries b.1 a.commitIndex ≠ none ∧ b.2 = f) ∨ b.2 = { f with state := .stopped })
    _ _ trivial h
  · intros
    trivial
  · rintro ⟨store, s⟩ fate ⟨store', f'⟩ _ hbody
    simp only [attemptBody] at hbody
    split at hbody
    · cases hbody
    · rename_i f₁ hput
      cases hbody
      rcases attemptPut_leave hput with ⟨hanswer, hf⟩ | ⟨hanswer, hf⟩ | hf
      · refine Or.inl ⟨?_, hf⟩
        obtain ⟨hfree, hcreate⟩ := S2cLog.putOpts_ok f.s2cLog a.commitIndex a.payload
          (Prod.ext rfl hanswer)
        rw [hcreate, WriteOnce.create_free _ hfree]
        simp
      · refine Or.inr (Or.inl ⟨?_, hf⟩)
        exact S2cLog.putOpts_alreadyExists f.s2cLog a.commitIndex a.payload (Prod.ext rfl hanswer)
      · exact Or.inr (Or.inr hf)

end FSM

def sampleAttempt : Attempt := ⟨1, 1, LogEntry.message.encode sampleNode.attemptEntry⟩

def sampleStore : ObjectStore :=
  (∅ : ObjectStore).insertIfNew (sampleLog.entryPath 1) sampleAttempt.payload

def sampleLeader : FSM := { sampleNode with state := .leader, commitIndex := 1, epoch := 1 }

end S2c
