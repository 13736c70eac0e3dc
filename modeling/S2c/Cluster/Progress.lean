import S2c.Cluster.Node
import S2c.Machine

namespace S2c

open Wire Loop Machine

inductive NodeEvent where
  | input (i : NodeInput)
  | answered (answer : Except Error Unit)

def Error.fatal (e : Error) : Bool := !isTransient e && e != .alreadyExists

def NodeEvent.terminal : NodeEvent → Bool
  | .input (.heard .closed) => true
  | .input .closed => true
  | .input (.discovered (some (.error e))) => e.fatal
  | .answered (.error e) => e.fatal
  | _ => false

def Node.step (n : Node) : NodeEvent → Option Node
  | .input i => n.input i
  | .answered answer => n.putting.map (fun _ => n.answered answer)

theorem Node.sound_step {identity : NodeIdentity} {log : S2cLog} {n n' : Node} {e : NodeEvent}
    (hn : n.Sound identity log) (h : n.step e = some n') : n'.Sound identity log := by
  cases e with
  | input i => exact sound_input hn h
  | answered answer =>
    obtain ⟨_, _, rfl⟩ := Option.map_eq_some_iff.mp h
    exact sound_answered hn answer

structure StartRun where
  node : Node
  entered : Option FSMState
  terminal : Bool

namespace StartRun

def start (f : FSM) : StartRun := ⟨⟨f, .dispatch⟩, none, false⟩

def entering (s : StartRun) : Option FSMState :=
  match s.node.stage with
  | .dispatch => some s.node.fsm.state
  | _ => s.entered

def step (s : StartRun) (e : NodeEvent) : Option StartRun :=
  (s.node.step e).map (fun n => ⟨n, s.entering, s.terminal || e.terminal⟩)

structure Progresses (s : StartRun) : Prop where
  changed : s.node.stage = .dispatch → s.entered ≠ some s.node.fsm.state
  stopped : s.terminal = true → s.node.fsm.state = .stopped

def Progressing (s : StartRun) : NodeEvent → Prop
  | .input (.heard .closed) => False
  | .input .closed => False
  | .input (.discovered (some (.error e))) => isTransient e = true
  | .input (.connected (.error e)) => e ≠ .closed ∧ e ≠ .notConnected
  -- only an attempt looks at the error, and `append` keeps a generic one to itself
  | .answered (.error e) => e.fatal = true →
    s.node.fsm.state = .notJoined ∧ ∀ store source, e ≠ .generic store source
  | _ => True

structure Tracked (identity : NodeIdentity) (log : S2cLog) (s : StartRun) : Prop where
  sound : s.node.Sound identity log
  entered : ∀ state, s.node.stage.state = some state → s.entered = some state

variable {s t : StartRun} {e : NodeEvent} {identity : NodeIdentity} {log : S2cLog}

theorem Progresses.open_of_state (h : s.Progresses) (hs : s.Tracked identity log) {state : FSMState}
    (hstate : s.node.stage.state = some state) (hne : state ≠ .stopped) : s.terminal = false := by
  by_contra hterminal
  have hstopped := h.stopped (by simpa using hterminal)
  rw [hs.sound.stage state hstate] at hstopped
  exact hne hstopped

theorem progresses_iff_of_state (hs : s.Tracked identity log) (hp : s.Progresses) {state : FSMState}
    (hstate : s.node.stage.state = some state) (hne : state ≠ .stopped) (n : Node) :
    Progresses ⟨n, s.entering, s.terminal || e.terminal⟩ ↔
      (n.stage = .dispatch → n.fsm.state ≠ state) ∧ (e.terminal = true → n.fsm.state = .stopped) := by
  have hentering : s.entering = some state := by
    unfold entering
    split
    · rename_i hstage
      rw [hstage] at hstate
      cases hstate
    · exact hs.entered state hstate
  rw [hentering, hp.open_of_state hs hstate hne, Bool.false_or]
  constructor
  · intro h
    exact ⟨fun hdispatch heq => h.changed hdispatch (by rw [heq]), h.stopped⟩
  · rintro ⟨hchanged, hstopped⟩
    refine ⟨?_, hstopped⟩
    intro hdispatch heq
    exact hchanged hdispatch (Option.some.inj heq).symm

theorem dispatch_fsm (f : FSM) : (Node.dispatch f).fsm = f ∧ (Node.dispatch f).stage ≠ .dispatch := by
  unfold Node.dispatch
  split <;> exact ⟨rfl, by simp⟩

theorem joins_stage (f : FSM) (next : JoinNext) : (Node.joins f next).stage = .dispatch ↔
    next = .joined ∨ next = .returned := by
  cases next with
  | attempt backoff =>
    simp only [Node.joins]
    cases f.attempt <;> simp
  | _ => simp [Node.joins]

theorem joins_fsm (f : FSM) {next : JoinNext} (h : next ≠ .joined) : (Node.joins f next).fsm = f := by
  cases next with
  | attempt backoff =>
    simp only [Node.joins]
    cases f.attempt <;> rfl
  | joined => exact absurd rfl h
  | _ => rfl

theorem joinDiscovered_joined (backoff : BackoffCounter) (re : Option (Except Error (Option LeaderState))) :
    joinDiscovered backoff re ≠ .joined := by
  unfold joinDiscovered
  split
  · simp
  · split <;> simp
  · simp
  · split_ifs <;> simp

theorem joinDiscovered_returned (backoff : BackoffCounter) (re : Option (Except Error (Option LeaderState))) :
    joinDiscovered backoff re = .returned ↔ ∃ e, re = some (.error e) ∧ isTransient e = false := by
  unfold joinDiscovered
  split
  · simp
  · split <;> simp
  · simp
  · rename_i e
    by_cases htransient : isTransient e = true
    · simp only [htransient, if_true]
      split_ifs <;> simp [htransient]
    · simp [htransient]

theorem progresses_joins {f : FSM} (hf : f.state = .notJoined) {next : JoinNext} (hjoined : next ≠ .joined)
    (terminal : Bool) (hterminal : terminal = true → next = .returned) :
    (((Node.joins f next).stage = .dispatch → (Node.joins f next).fsm.state ≠ .notJoined) ∧
      (terminal = true → (Node.joins f next).fsm.state = .stopped)) ↔ next ≠ .returned := by
  rw [joins_stage, joins_fsm f hjoined, hf]
  constructor
  · rintro ⟨hchanged, _⟩ hreturned
    exact hchanged (Or.inr hreturned) rfl
  · intro hreturned
    refine ⟨?_, fun h => absurd (hterminal h) hreturned⟩
    rintro (h | h)
    · exact absurd h hjoined
    · exact absurd h hreturned

theorem fatal_iff (e : Error) : e.fatal = true ↔ isTransient e = false ∧ e ≠ .alreadyExists := by
  simp [Error.fatal]

theorem progresses_discovered {backoff : BackoffCounter} (hs : s.Tracked identity log) (hp : s.Progresses)
    (hstage : s.node.stage = .discovering backoff) (re : Option (Except Error (Option LeaderState))) :
    Progresses ⟨Node.joins s.node.fsm (joinDiscovered backoff re), s.entering,
        s.terminal || (NodeEvent.input (.discovered re)).terminal⟩ ↔
      s.Progressing (.input (.discovered re)) := by
  have hstate : s.node.stage.state = some .notJoined := by rw [hstage]; rfl
  rw [progresses_iff_of_state hs hp hstate (by decide), progresses_joins (hs.sound.stage _ hstate)
    (joinDiscovered_joined backoff re), ne_eq, joinDiscovered_returned]
  · cases re with
    | none => simp [Progressing]
    | some re => cases re <;> simp [Progressing]
  · intro hterminal
    rw [joinDiscovered_returned]
    cases re with
    | none => cases hterminal
    | some re =>
      cases re with
      | ok found => cases hterminal
      | error e => exact ⟨e, rfl, ((fatal_iff e).mp hterminal).1⟩

theorem progresses_connected {backoff : BackoffCounter} {leaderIdentity : NodeIdentity}
    (hs : s.Tracked identity log) (hp : s.Progresses)
    (hstage : s.node.stage = .connecting backoff leaderIdentity) (re : Except ClientError Unit) :
    Progresses ⟨Node.joins s.node.fsm (joinConnected backoff leaderIdentity re), s.entering,
        s.terminal || (NodeEvent.input (.connected re)).terminal⟩ ↔
      s.Progressing (.input (.connected re)) := by
  have hstate : s.node.stage.state = some .notJoined := by rw [hstage]; rfl
  rw [progresses_iff_of_state hs hp hstate (by decide), progresses_joins (hs.sound.stage _ hstate) (by
    unfold joinConnected
    split <;> simp) _ (by simp [NodeEvent.terminal])]
  cases re with
  | ok _ => simp [joinConnected, Progressing]
  | error e => cases e <;> simp [joinConnected, Progressing]

theorem progresses_followed {backoff : BackoffCounter} {leaderIdentity : NodeIdentity}
    (hs : s.Tracked identity log) (hp : s.Progresses)
    (hstage : s.node.stage = .following backoff leaderIdentity) (re : Except ClientError Unit) :
    Progresses ⟨Node.joins s.node.fsm (joinFollowed backoff re), s.entering,
        s.terminal || (NodeEvent.input (.followed re)).terminal⟩ ↔
      s.Progressing (.input (.followed re)) := by
  have hstate : s.node.stage.state = some .notJoined := by rw [hstage]; rfl
  rw [progresses_iff_of_state hs hp hstate (by decide)]
  refine iff_of_true ⟨?_, by simp [NodeEvent.terminal]⟩ trivial
  cases re with
  | ok _ => simp [joinFollowed, Node.joins]
  | error e =>
    intro hdispatch
    rw [joins_stage] at hdispatch
    cases e <;> simp [joinFollowed] at hdispatch

theorem progresses_heard (hs : s.Tracked identity log) (hp : s.Progresses) (hstage : s.node.stage = .follower)
    (input : FollowerInput) :
    Progresses ⟨Node.follows (s.node.fsm.followerTurn input), s.entering,
        s.terminal || (NodeEvent.input (.heard input)).terminal⟩ ↔
      s.Progressing (.input (.heard input)) := by
  have hstate : s.node.stage.state = some .follower := by rw [hstage]; rfl
  have hf := hs.sound.stage _ hstate
  rw [progresses_iff_of_state hs hp hstate (by decide)]
  cases input with
  | timedOut =>
    refine iff_of_true ⟨?_, by simp [NodeEvent.terminal]⟩ trivial
    simp only [FSM.followerTurn]
    split_ifs <;> simp [Node.follows]
  | received msg => exact iff_of_true ⟨by simp [FSM.followerTurn, Node.follows], by simp [NodeEvent.terminal]⟩ trivial
  | closed =>
    refine iff_of_false ?_ id
    rintro ⟨hchanged, _⟩
    exact hchanged rfl hf

theorem progresses_leading (hs : s.Tracked identity log) (hp : s.Progresses) {acc : List StateRequest}
    (hstage : s.node.stage = .leading acc) (a : Arrivals) :
    Progresses ⟨s.node.leads (s.node.fsm.leaderTurn acc a), s.entering,
        s.terminal || (NodeEvent.input (.turn a)).terminal⟩ ↔
      s.Progressing (.input (.turn a)) := by
  have hstate : s.node.stage.state = some .leader := by rw [hstage]; rfl
  rw [progresses_iff_of_state hs hp hstate (by decide)]
  refine iff_of_true ⟨?_, by simp [NodeEvent.terminal]⟩ trivial
  cases s.node.fsm.leaderTurn acc a <;> simp [Node.leads]

theorem progresses_input {i : NodeInput} (hs : s.Tracked identity log) (hp : s.Progresses)
    (h : s.step (.input i) = some t) : t.Progresses ↔ s.Progressing (.input i) := by
  obtain ⟨n, hn, rfl⟩ := Option.map_eq_some_iff.mp h
  simp only [Node.step, Node.input] at hn
  split at hn <;> cases hn <;> rename_i hstage
  · obtain ⟨hfsm, hne⟩ := dispatch_fsm s.node.fsm
    refine iff_of_true ⟨fun h => absurd h hne, ?_⟩ trivial
    intro hterminal
    rw [hfsm]
    exact hp.stopped (by simpa [NodeEvent.terminal] using hterminal)
  · exact progresses_discovered hs hp hstage _
  · exact progresses_connected hs hp hstage _
  · exact progresses_followed hs hp hstage _
  · exact progresses_heard hs hp hstage _
  · exact progresses_leading hs hp hstage _
  · have hstate : s.node.stage.state = some .leader := by rw [hstage]; rfl
    rw [progresses_iff_of_state hs hp hstate (by decide)]
    refine iff_of_false ?_ id
    rintro ⟨hchanged, _⟩
    exact hchanged rfl (hs.sound.stage _ hstate)

theorem attemptPut_generic (f : FSM) (a : Attempt) (appending : FSM.Attempting) (store source : String) :
    ∃ appending', f.attemptPut a appending (.error (.generic store source)) = .again appending' := by
  unfold FSM.attemptPut S2cLog.appendTurn
  by_cases htransient : isTransient (.generic store source) = true
  · by_cases hattempt : appending.appending.canAttempt = true
    · simp [htransient, hattempt]
    · simp [htransient, hattempt, FSM.attemptTurn]
  · simp [htransient]

theorem progresses_attempting {backoff : BackoffCounter} {a : Attempt} {appending : FSM.Attempting}
    (hs : s.Tracked identity log) (hp : s.Progresses)
    (hstage : s.node.stage = .attempting backoff a appending) (answer : Except Error Unit) :
    Progresses ⟨s.node.answered answer, s.entering, s.terminal || (NodeEvent.answered answer).terminal⟩ ↔
      s.Progressing (.answered answer) := by
  have hstate : s.node.stage.state = some .notJoined := by rw [hstage]; rfl
  have hf := hs.sound.stage _ hstate
  rw [progresses_iff_of_state hs hp hstate (by decide)]
  simp only [Node.answered, hstage]
  cases answer with
  | ok _ => simp [FSM.attemptPut, S2cLog.appendTurn, FSM.attemptTurn, Progressing, NodeEvent.terminal]
  | error e =>
    cases e with
    | alreadyExists =>
      simp [FSM.attemptPut, S2cLog.appendTurn, FSM.attemptTurn, hf, Progressing, NodeEvent.terminal, Error.fatal]
    | generic store source =>
      obtain ⟨appending', hput⟩ := attemptPut_generic s.node.fsm a appending store source
      simp [hput, hf, Progressing, NodeEvent.terminal]
    | notFound =>
      simp [FSM.attemptPut, S2cLog.appendTurn, FSM.attemptTurn, isTransient, hf, Progressing]
    | other variant =>
      simp [FSM.attemptPut, S2cLog.appendTurn, FSM.attemptTurn, isTransient, hf, Progressing]

theorem progresses_flushing {acc : List StateRequest} {payload : Bytes} {appending : BackoffCounter}
    (hs : s.Tracked identity log) (hp : s.Progresses)
    (hstage : s.node.stage = .flushing acc payload appending) (answer : Except Error Unit) :
    Progresses ⟨s.node.answered answer, s.entering, s.terminal || (NodeEvent.answered answer).terminal⟩ ↔
      s.Progressing (.answered answer) := by
  have hstate : s.node.stage.state = some .leader := by rw [hstage]; rfl
  have hf := hs.sound.stage _ hstate
  have hanswered : (s.node.answered answer).stage ≠ .dispatch ∧ (s.node.answered answer).fsm = s.node.fsm := by
    simp only [Node.answered, hstage]
    cases S2cLog.appendTurn appending answer <;> simp
  rw [progresses_iff_of_state hs hp hstate (by decide), hanswered.2, hf]
  cases answer with
  | ok _ => simp [hanswered.1, NodeEvent.terminal, Progressing]
  | error e => simp [hanswered.1, NodeEvent.terminal, Progressing, hf]

theorem progresses_step (hs : s.Tracked identity log) (hp : s.Progresses) (h : s.step e = some t) :
    t.Progresses ↔ s.Progressing e := by
  cases e with
  | input i => exact progresses_input hs hp h
  | answered answer =>
    obtain ⟨n, hn, rfl⟩ := Option.map_eq_some_iff.mp h
    obtain ⟨put, hput, rfl⟩ := Option.map_eq_some_iff.mp hn
    cases hstage : s.node.stage with
    | attempting backoff a appending => exact progresses_attempting hs hp hstage answer
    | flushing acc payload appending => exact progresses_flushing hs hp hstage answer
    | _ => simp [Node.putting, hstage] at hput

theorem joins_stage_state {f : FSM} {next : JoinNext} {state : FSMState}
    (h : (Node.joins f next).stage.state = some state) : state = .notJoined := by
  cases next with
  | attempt backoff =>
    simp only [Node.joins] at h
    cases hattempt : f.attempt <;> simp [hattempt, Stage.state] at h
    exact h.symm
  | _ => simp [Node.joins, Stage.state] at h <;> exact h.symm

theorem stage_state_step {n n' : Node} (h : n.step e = some n') (hn : n.stage ≠ .dispatch)
    {state : FSMState} (hstate : n'.stage.state = some state) : n.stage.state = some state := by
  cases e with
  | input i =>
    simp only [Node.step, Node.input] at h
    split at h <;> cases h <;> rename_i hstage
    · exact absurd hstage hn
    · rw [hstage, joins_stage_state hstate]
      rfl
    · rw [hstage, joins_stage_state hstate]
      rfl
    · rw [hstage, joins_stage_state hstate]
      rfl
    · rename_i input
      rw [hstage]
      cases hturn : n.fsm.followerTurn input with
      | again f response => simpa [hturn, Node.follows, Stage.state] using hstate
      | returned f => simp [hturn, Node.follows, Stage.state] at hstate
    · rename_i acc a
      rw [hstage]
      cases hturn : n.fsm.leaderTurn acc a <;> simp [hturn, Node.leads, Stage.state] at hstate <;> rw [← hstate] <;> rfl
    · cases hstate
  | answered answer =>
    obtain ⟨put, hput, rfl⟩ := Option.map_eq_some_iff.mp h
    cases hstage : n.stage with
    | attempting backoff a s =>
      simp only [Node.answered, hstage] at hstate
      split at hstate
      · exact hstate
      · split_ifs at hstate
        · exact hstate
        · cases hstate
    | flushing acc payload appending =>
      simp only [Node.answered, hstage] at hstate
      split at hstate <;> exact hstate
    | _ => simp [Node.putting, hstage] at hput

theorem tracked_step (hs : s.Tracked identity log) (h : s.step e = some t) : t.Tracked identity log := by
  obtain ⟨n, hn, rfl⟩ := Option.map_eq_some_iff.mp h
  have hsound := Node.sound_step hs.sound hn
  refine ⟨hsound, ?_⟩
  intro state hstate
  unfold entering
  split
  · rename_i hstage
    have hfsm : n.fsm = s.node.fsm := by
      cases e with
      | input i =>
        cases i <;> simp [Node.step, Node.input, hstage] at hn
        rw [← hn]
        exact (dispatch_fsm _).1
      | answered answer => simp [Node.step, Node.putting, hstage] at hn
    rw [← hsound.stage state hstate, hfsm]
  · rename_i hstage
    exact hs.entered state (stage_state_step hn hstage hstate)

theorem progresses_along_run (group : String) (options : S2cOptions) (identity : NodeIdentity) (log : S2cLog)
    (es : List NodeEvent) : Always step Progresses (start (FSM.new group options identity log)) es ↔
      Along step Progressing (start (FSM.new group options identity log)) es := by
  apply always_iff_along (J := Tracked identity log)
  · intro s e t hs _
    exact tracked_step hs
  · intro s e t
    exact progresses_step
  · refine ⟨Node.sound_new group options identity log, ?_⟩
    intro state h
    cases h
  · constructor
    · intro _ h
      cases h
    · intro h
      cases h

theorem progresses_fails : ¬Always step Progresses (start sampleNode)
    [.input .started, .input (.discovered (some (.ok (some FSM.otherState)))), .input (.connected (.ok ())),
      .input (.followed (.ok ())), .input .started, .input (.heard .closed)] := by
  intro h
  -- `follower_loop` comes back as it was entered
  have hprogresses := h _ (List.prefix_refl _) _ rfl
  exact hprogresses.changed rfl rfl

end StartRun

end S2c
