import S2c.Fsm.Follower
import S2c.Fsm.Join

namespace S2c

open Wire Loop

inductive Stage where
  | dispatch
  | discovering (backoff : BackoffCounter)
  | connecting (backoff : BackoffCounter) (leaderIdentity : NodeIdentity)
  | following (backoff : BackoffCounter) (leaderIdentity : NodeIdentity)
  | attempting (backoff : BackoffCounter) (a : Attempt) (s : FSM.Attempting)
  | follower
  | leading (acc : List StateRequest)
  | flushing (acc : List StateRequest) (payload : Bytes) (appending : BackoffCounter)
  | ended

structure Node where
  fsm : FSM
  stage : Stage

inductive NodeInput where
  | started
  | discovered (re : Option (Except Error (Option LeaderState)))
  | connected (re : Except ClientError Unit)
  | followed (re : Except ClientError Unit)
  | heard (input : FollowerInput)
  | turn (a : Arrivals)
  | closed

namespace Node

def dispatch (f : FSM) : Node :=
  match f.state with
  | .notJoined => ⟨f, .discovering (BackoffCounter.new f.s2cOptions.retry)⟩
  | .follower => ⟨f, .follower⟩
  | .leader => ⟨f, .leading []⟩
  | .stopped => ⟨f, .ended⟩

def joins (f : FSM) : JoinNext → Node
  | .discover backoff => ⟨f, .discovering backoff⟩
  | .connect backoff leaderIdentity => ⟨f, .connecting backoff leaderIdentity⟩
  | .follow backoff leaderIdentity => ⟨f, .following backoff leaderIdentity⟩
  | .attempt backoff =>
    match f.attempt with
    | some a => ⟨f, .attempting backoff a f.startAttempting⟩
    | none => ⟨f, .ended⟩
  | .joined => ⟨{ f with state := .follower }, .dispatch⟩
  | .returned => ⟨f, .dispatch⟩
  | .panicked => ⟨f, .ended⟩

def follows : FollowerTurn → Node
  | .again f _ => ⟨f, .follower⟩
  | .returned f => ⟨f, .dispatch⟩

def leads (n : Node) : LeaderTurn → Node
  | .receiving f acc => ⟨f, .leading acc⟩
  | .appending f acc payload => ⟨f, .flushing acc payload (BackoffCounter.new f.s2cLog.s2cOptions.retry)⟩
  | .panicked => ⟨n.fsm, .ended⟩

def input (n : Node) (i : NodeInput) : Option Node :=
  match n.stage, i with
  | .dispatch, .started => some (dispatch n.fsm)
  | .discovering backoff, .discovered re => some (joins n.fsm (joinDiscovered backoff re))
  | .connecting backoff leaderIdentity, .connected re =>
    some (joins n.fsm (joinConnected backoff leaderIdentity re))
  | .following backoff _, .followed re => some (joins n.fsm (joinFollowed backoff re))
  | .follower, .heard input => some (follows (n.fsm.followerTurn input))
  | .leading acc, .turn a => some (n.leads (n.fsm.leaderTurn acc a))
  -- the loop is left with the state still `LEADER`, so `start` enters it again
  | .leading _, .closed => some ⟨n.fsm, .dispatch⟩
  | _, _ => none

def putting (n : Node) : Option (UInt64 × Bytes) :=
  match n.stage with
  | .attempting _ a _ => some (a.commitIndex, a.payload)
  | .flushing _ payload _ => some (n.fsm.commitIndex, payload)
  | _ => none

def request (n : Node) : Option (Path × Bytes) :=
  n.putting.map (fun (index, payload) => (n.fsm.s2cLog.entryPath index, payload))

def answered (n : Node) (answer : Except Error Unit) : Node :=
  match n.stage with
  | .attempting backoff a s =>
    match n.fsm.attemptPut a s answer with
    | .again s => ⟨n.fsm, .attempting backoff a s⟩
    | .leave f => if f.state = .notJoined then ⟨f, .discovering backoff⟩ else ⟨f, .dispatch⟩
  | .flushing acc payload appending =>
    match S2cLog.appendTurn appending answer with
    | .again appending => ⟨n.fsm, .flushing acc payload appending⟩
    | .leave _ => ⟨n.fsm, .leading []⟩
  | _ => n

end Node

def Stage.state : Stage → Option FSMState
  | .discovering _ => some .notJoined
  | .connecting _ _ => some .notJoined
  | .following _ _ => some .notJoined
  | .attempting _ _ _ => some .notJoined
  | .follower => some .follower
  | .leading _ => some .leader
  | .flushing _ _ _ => some .leader
  | .dispatch => none
  | .ended => none

/-- A node that does not lead has never led, and one that leads does so at the first index. -/
structure FSM.Placed (identity : NodeIdentity) (log : S2cLog) (f : FSM) : Prop where
  nodeIdentity : f.nodeIdentity = identity
  s2cLog : f.s2cLog = log
  idle : f.state ≠ .leader → f.commitIndex = 0
  leader : f.state = .leader → f.commitIndex = 1 ∧ f.epoch = 1

structure Node.Sound (identity : NodeIdentity) (log : S2cLog) (n : Node) : Prop where
  placed : n.fsm.Placed identity log
  stage : ∀ state, n.stage.state = some state → n.fsm.state = state
  attempting : ∀ backoff a s, n.stage = .attempting backoff a s → n.fsm.attempt = some a

variable {identity : NodeIdentity} {log : S2cLog}

theorem FSM.Placed.of_state {f : FSM} (h : f.Placed identity log) (hf : f.state ≠ .leader)
    {state : FSMState} (hstate : state ≠ .leader) : FSM.Placed identity log { f with state := state } :=
  ⟨h.nodeIdentity, h.s2cLog, fun _ => h.idle hf, fun h' => absurd h' hstate⟩

theorem FSM.Placed.attemptTarget {f : FSM} (h : f.Placed identity log) (hf : f.state ≠ .leader) :
    f.attemptTarget = (1, 1) := by
  unfold FSM.attemptTarget
  rw [h.idle hf]
  rfl

theorem FSM.Placed.attempt {f : FSM} (h : f.Placed identity log) (hf : f.state ≠ .leader) {a : Attempt}
    (ha : f.attempt = some a) : a.commitIndex = 1 ∧ a.epoch = 1 := by
  obtain ⟨payload, _, rfl⟩ := Option.map_eq_some_iff.mp ha
  rw [h.attemptTarget hf]
  exact ⟨rfl, rfl⟩

namespace Node

theorem sound_dispatch {f : FSM} (h : f.Placed identity log) : (dispatch f).Sound identity log := by
  unfold dispatch
  split <;> rename_i hstate <;> refine ⟨h, ?_, by simp⟩ <;> simp [Stage.state, hstate]

theorem sound_outside {f : FSM} (h : f.Placed identity log) {stage : Stage} (hstage : stage.state = none) :
    Sound identity log ⟨f, stage⟩ := by
  refine ⟨h, ?_, ?_⟩
  · intro state hstate
    rw [hstage] at hstate
    cases hstate
  · rintro backoff a s rfl
    cases hstage

theorem sound_new (group : String) (options : S2cOptions) (identity : NodeIdentity) (log : S2cLog) :
    Sound identity log ⟨FSM.new group options identity log, .dispatch⟩ := by
  have hplaced : (FSM.new group options identity log).Placed identity log := by
    refine ⟨rfl, rfl, fun _ => rfl, ?_⟩
    intro h
    cases h
  exact sound_outside hplaced rfl

theorem Sound.state_of {n : Node} (h : n.Sound identity log) {stage : Stage} {state : FSMState}
    (hstage : n.stage = stage) (hstate : stage.state = some state) : n.fsm.state = state :=
  h.stage state (by rw [hstage, hstate])

theorem sound_joins {f : FSM} (h : f.Placed identity log) (hf : f.state = .notJoined) (next : JoinNext) :
    (joins f next).Sound identity log := by
  have hnot : f.state ≠ .leader := by simp [hf]
  cases next with
  | discover backoff => exact ⟨h, by simp [joins, Stage.state, hf], by simp [joins]⟩
  | connect backoff leaderIdentity => exact ⟨h, by simp [joins, Stage.state, hf], by simp [joins]⟩
  | follow backoff leaderIdentity => exact ⟨h, by simp [joins, Stage.state, hf], by simp [joins]⟩
  | attempt backoff =>
    cases ha : f.attempt with
    | some a =>
      simp only [joins, ha]
      refine ⟨h, by simp [Stage.state, hf], ?_⟩
      rintro _ _ _ hstage
      cases hstage
      exact ha
    | none =>
      simp only [joins, ha]
      exact sound_outside h rfl
  | joined => exact sound_outside (h.of_state hnot (by decide : FSMState.follower ≠ .leader)) rfl
  | returned => exact sound_outside h rfl
  | panicked => exact sound_outside h rfl

theorem leader_of_joins {f : FSM} (hf : f.state ≠ .leader) (next : JoinNext) :
    (joins f next).fsm.state ≠ .leader := by
  cases next with
  | attempt backoff =>
    simp only [joins]
    split <;> exact hf
  | joined => simp [joins]
  | _ => exact hf

theorem sound_follows {f : FSM} (h : f.Placed identity log) (hf : f.state = .follower)
    (input : FollowerInput) : (follows (f.followerTurn input)).Sound identity log := by
  have hnot : f.state ≠ .leader := by simp [hf]
  have hkeep (missedHeartbeats : UInt32) (syncQueue : ReplicateQueue) : FSM.Placed identity log
      { f with missedHeartbeats := missedHeartbeats, syncQueue := syncQueue } :=
    ⟨h.nodeIdentity, h.s2cLog, h.idle, h.leader⟩
  rcases f.followerTurn_cases input with ⟨missed, queue, response, hturn⟩ | ⟨missed, hturn⟩ | hturn <;>
    rw [hturn]
  · exact ⟨hkeep missed queue, by simp [follows, Stage.state, hf], by simp [follows]⟩
  · exact sound_outside ((hkeep missed f.syncQueue).of_state hnot (by decide : FSMState.notJoined ≠ .leader)) rfl
  · exact sound_outside h rfl

theorem sound_leads {n : Node} (h : n.Sound identity log) (hn : n.fsm.state = .leader)
    (acc : List StateRequest) (a : Arrivals) : (n.leads (n.fsm.leaderTurn acc a)).Sound identity log := by
  have hkeep {followers : List NodeIdentity} :
      FSM.Placed identity log { n.fsm with followers := followers } :=
    ⟨h.placed.nodeIdentity, h.placed.s2cLog, h.placed.idle, h.placed.leader⟩
  rcases n.fsm.leaderTurn_cases acc a with ⟨followers, hturn⟩ | ⟨followers, payload, hturn, _⟩ | hturn <;>
    rw [hturn]
  · exact ⟨hkeep, by simp [leads, Stage.state, hn], by simp [leads]⟩
  · exact ⟨hkeep, by simp [leads, Stage.state, hn], by simp [leads]⟩
  · exact sound_outside h.placed rfl

theorem sound_input {n n' : Node} {i : NodeInput} (h : n.Sound identity log) (hi : n.input i = some n') :
    n'.Sound identity log := by
  unfold input at hi
  split at hi <;> cases hi <;> rename_i hstage
  · exact sound_dispatch h.placed
  · exact sound_joins h.placed (h.state_of hstage rfl) _
  · exact sound_joins h.placed (h.state_of hstage rfl) _
  · exact sound_joins h.placed (h.state_of hstage rfl) _
  · exact sound_follows h.placed (h.state_of hstage rfl) _
  · exact sound_leads h (h.state_of hstage rfl) _ _
  · exact sound_outside h.placed rfl

theorem leader_of_input {n n' : Node} {i : NodeInput} (h : n.Sound identity log)
    (hi : n.input i = some n') (hn' : n'.fsm.state = .leader) : n.fsm.state = .leader := by
  by_contra hn
  unfold input at hi
  split at hi <;> cases hi <;> rename_i hstage
  · unfold dispatch at hn'
    split at hn' <;> exact hn hn'
  · exact leader_of_joins hn _ hn'
  · exact leader_of_joins hn _ hn'
  · exact leader_of_joins hn _ hn'
  · rename_i input
    rcases n.fsm.followerTurn_cases input with ⟨_, _, response, hturn⟩ | ⟨_, hturn⟩ | hturn <;>
      rw [hturn] at hn'
    · exact hn hn'
    · cases hn'
    · exact hn hn'
  · exact hn (h.state_of hstage rfl)
  · exact hn hn'

theorem putting_of_input {n n' : Node} {i : NodeInput} (hi : n.input i = some n') : n.putting = none := by
  unfold input at hi
  split at hi <;> cases hi <;> rename_i hstage <;> simp only [putting, hstage]

theorem sound_answered {n : Node} (h : n.Sound identity log) (answer : Except Error Unit) :
    (n.answered answer).Sound identity log := by
  unfold answered
  split
  · rename_i backoff a s hstage
    have hf : n.fsm.state = .notJoined := h.state_of hstage rfl
    have hnot : n.fsm.state ≠ .leader := by simp [hf]
    have ha := h.attempting _ _ _ hstage
    split
    · refine ⟨h.placed, by simp [Stage.state, hf], ?_⟩
      rintro _ _ _ hstage'
      cases hstage'
      exact ha
    · rename_i f hput
      have hplaced : f.Placed identity log := by
        rcases FSM.attemptPut_leave hput with ⟨_, rfl⟩ | ⟨_, rfl⟩ | rfl
        · obtain ⟨hindex, hepoch⟩ := h.placed.attempt hnot ha
          exact ⟨h.placed.nodeIdentity, h.placed.s2cLog, fun h' => absurd rfl h', fun _ => ⟨hindex, hepoch⟩⟩
        · exact h.placed
        · exact h.placed.of_state hnot (by decide : FSMState.stopped ≠ .leader)
      split_ifs with hjoined
      · exact ⟨hplaced, by simp [Stage.state, hjoined], by simp⟩
      · exact sound_outside hplaced rfl
  · rename_i acc payload appending hstage
    have hf : n.fsm.state = .leader := h.state_of hstage rfl
    split
    · exact ⟨h.placed, by simp [Stage.state, hf], by simp⟩
    · exact ⟨h.placed, by simp [Stage.state, hf], by simp⟩
  · exact h

theorem leader_of_answered {n : Node} {answer : Except Error Unit}
    (hn' : (n.answered answer).fsm.state = .leader) : n.fsm.state = .leader ∨
      ∃ backoff a s, n.stage = .attempting backoff a s ∧ answer = .ok () := by
  unfold answered at hn'
  split at hn'
  · rename_i backoff a s hstage
    split at hn'
    · exact Or.inl hn'
    · rename_i f hput
      have hf : f.state = .leader := by split_ifs at hn' <;> exact hn'
      rcases FSM.attemptPut_leave hput with ⟨hok, rfl⟩ | ⟨_, rfl⟩ | rfl
      · exact Or.inr ⟨backoff, a, s, hstage, hok⟩
      · exact Or.inl hf
      · cases hf
  · split at hn' <;> exact Or.inl hn'
  · exact Or.inl hn'

end Node

end S2c
