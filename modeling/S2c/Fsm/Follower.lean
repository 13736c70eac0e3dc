import S2c.Fsm.State

namespace S2c

inductive FollowerInput where
  | timedOut
  | received (msg : S2cMessageEnvelope)
  | closed

inductive FollowerTurn where
  | again (f : FSM) (response : Option S2cMessageEnvelope)
  | returned (f : FSM)

namespace FSM

def followerReceived (f : FSM) (msg : S2cMessage) : FSM × Option S2cMessage :=
  match msg.body with
  | some (.replicateRequest replicate) =>
    let syncQueue :=
      if replicate.commitIndex = f.syncQueue.lastReceivedIndex + 1 then f.syncQueue.put replicate
      else f.syncQueue
    ({ f with missedHeartbeats := 0, syncQueue := syncQueue },
      some ⟨msg.correlationId, some (.replicateResponse ⟨syncQueue.lastReceivedIndex⟩), none⟩)
  | some (.stateRequest _) => (f, some ⟨msg.correlationId, none, some .notLeaderError⟩)
  | some (.follow _) => (f, some ⟨msg.correlationId, none, some .notLeaderError⟩)
  | some _ => (f, none)
  | none => (f, none)

def followerTurn (f : FSM) : FollowerInput → FollowerTurn
  | .timedOut =>
    let f := { f with missedHeartbeats := f.missedHeartbeats + 1 }
    if f.s2cOptions.maxMissedHeartbeats ≤ f.missedHeartbeats then .returned { f with state := .notJoined }
    else .again f none
  | .received msg =>
    let (f', response) := f.followerReceived msg.s2cMessage
    -- replies carry the follower's own identity
    .again f' (response.map (fun s2cMessage => ⟨s2cMessage, f.nodeIdentity⟩))
  | .closed => .returned f

theorem followerReceived_keeps (f : FSM) (msg : S2cMessage) : ∃ missedHeartbeats syncQueue,
    (f.followerReceived msg).1 = { f with missedHeartbeats := missedHeartbeats, syncQueue := syncQueue } := by
  unfold followerReceived
  split
  · exact ⟨_, _, rfl⟩
  · exact ⟨_, _, rfl⟩
  · exact ⟨_, _, rfl⟩
  · exact ⟨_, _, rfl⟩
  · exact ⟨_, _, rfl⟩

theorem followerReceived_cases (f : FSM) (msg : S2cMessage) :
    (∃ response, f.followerReceived msg = (f, response) ∧ ∀ m ∈ response, m.body = none) ∨
    ∃ f' response, f.followerReceived msg = (f', some response) ∧
      response.body = some (.replicateResponse ⟨f'.syncQueue.lastReceivedIndex⟩) ∧
      (f'.syncQueue = f.syncQueue ∨
        ∃ r, r.commitIndex = f.syncQueue.lastReceivedIndex + 1 ∧ f'.syncQueue =
          { f.syncQueue with lastReceivedIndex := r.commitIndex, queue := f.syncQueue.queue ++ [r] }) := by
  unfold followerReceived
  split
  · rename_i replicate _
    refine Or.inr ⟨_, _, rfl, rfl, ?_⟩
    split_ifs with hnext
    · rcases f.syncQueue.put_cases replicate with hput | hput
      · exact Or.inr ⟨replicate, hnext, hput⟩
      · exact Or.inl hput
    · exact Or.inl rfl
  · exact Or.inl ⟨_, rfl, by simp⟩
  · exact Or.inl ⟨_, rfl, by simp⟩
  · exact Or.inl ⟨_, rfl, by simp⟩
  · exact Or.inl ⟨_, rfl, by simp⟩

theorem followerTurn_cases (f : FSM) (input : FollowerInput) :
    (∃ missedHeartbeats syncQueue response, f.followerTurn input =
      .again { f with missedHeartbeats := missedHeartbeats, syncQueue := syncQueue } response) ∨
    (∃ missedHeartbeats, f.followerTurn input =
      .returned { f with missedHeartbeats := missedHeartbeats, state := .notJoined }) ∨
    f.followerTurn input = .returned f := by
  cases input with
  | timedOut =>
    simp only [followerTurn]
    split_ifs
    · exact Or.inr (Or.inl ⟨_, rfl⟩)
    · exact Or.inl ⟨_, f.syncQueue, none, rfl⟩
  | received msg =>
    obtain ⟨missedHeartbeats, syncQueue, hkeeps⟩ := f.followerReceived_keeps msg.s2cMessage
    refine Or.inl ⟨missedHeartbeats, syncQueue,
      (f.followerReceived msg.s2cMessage).2.map (fun s2cMessage => ⟨s2cMessage, f.nodeIdentity⟩), ?_⟩
    rw [← hkeeps]
    rfl
  | closed => exact Or.inr (Or.inr rfl)

end FSM

end S2c
