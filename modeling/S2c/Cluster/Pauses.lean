import S2c.Cluster.Moves

namespace S2c

open Wire Loop Machine

def Stage.backoff : Stage → Option BackoffCounter
  | .discovering backoff => some backoff
  | .connecting backoff _ => some backoff
  | .following backoff _ => some backoff
  | .attempting backoff _ _ => some backoff
  | _ => none

structure PauseRun where
  node : Node
  pauses : List (Option UInt32)

namespace PauseRun

def start (f : FSM) : PauseRun := ⟨⟨f, .dispatch⟩, []⟩

def pause (backoff : BackoffCounter) : Option UInt32 :=
  if backoff.canAttempt then some backoff.awaitAttempt.currentAttempt else none

def paused (s : PauseRun) (e : NodeEvent) : List (Option UInt32) :=
  match s.node.stage, e with
  | .dispatch, .input .started => []
  | .discovering backoff, .input (.discovered (some (.error err))) =>
    if isTransient err then s.pauses ++ [pause backoff] else s.pauses
  | _, _ => s.pauses

def step (s : PauseRun) (e : NodeEvent) : Option PauseRun :=
  (s.node.step e).map (fun n => ⟨n, s.paused e⟩)

def circle (n j : ℕ) : Option ℕ := if (j + 1) % (n + 1) = 0 then none else some ((j + 1) % (n + 1))

def Circles (n : UInt32) (pauses : List (Option UInt32)) : Prop :=
  ∀ j pause, pauses[j]? = some pause → pause.map UInt32.toNat = circle n.toNat j

def Counts (n : UInt32) (pauses : List (Option UInt32)) (backoff : BackoffCounter) : Prop :=
  backoff.s2cRetryOptions.maxAttempts = some n ∧ backoff.currentAttempt.toNat = pauses.length % (n.toNat + 1)

structure Paced (identity : NodeIdentity) (log : S2cLog) (n : UInt32) (s : PauseRun) : Prop where
  sound : s.node.Sound identity log
  options : s.node.fsm.s2cOptions.retry.maxAttempts = some n
  counts : ∀ backoff, s.node.stage.backoff = some backoff → Counts n s.pauses backoff
  circles : Circles n s.pauses

variable {s t : PauseRun} {e : NodeEvent} {identity : NodeIdentity} {log : S2cLog} {n : UInt32}
  {backoff : BackoffCounter} {pauses : List (Option UInt32)}

theorem moves_options {node : Node} {f : FSM} (h : Node.Moves node e f) : f.s2cOptions = node.fsm.s2cOptions := by
  cases h with
  | received hstage msg =>
    obtain ⟨missedHeartbeats, syncQueue, hkeeps⟩ := node.fsm.followerReceived_keeps msg.s2cMessage
    rw [hkeeps]
  | turned a acc acc' f hstage hdue =>
    obtain ⟨⟨followers, rfl⟩, _⟩ := FSM.foldlM_handleDue_some hdue
    rfl
  | _ => rfl

theorem circles_append (hpauses : Circles n pauses) {pause : Option UInt32}
    (hpause : pause.map UInt32.toNat = circle n.toNat pauses.length) : Circles n (pauses ++ [pause]) := by
  intro j found hfound
  rcases Nat.lt_trichotomy j pauses.length with hlt | rfl | hgt
  · rw [List.getElem?_append_left hlt] at hfound
    exact hpauses j found hfound
  · rw [List.getElem?_concat_length, Option.some.injEq] at hfound
    rw [← hfound]
    exact hpause
  · have hnone : (pauses ++ [pause])[j]? = none := by
      apply List.getElem?_eq_none
      simp only [List.length_append, List.length_singleton]
      omega
    cases hnone.symm.trans hfound

theorem counts_pause (hlt : n.toNat < 2 ^ 32 - 1) (h : Counts n pauses backoff) :
    (pause backoff).map UInt32.toNat = circle n.toNat pauses.length ∧
      Counts n (pauses ++ [pause backoff]) (if backoff.canAttempt then backoff.awaitAttempt else backoff.reset) := by
  obtain ⟨hmax, hcount⟩ := h
  have hmod : pauses.length % (n.toNat + 1) < n.toNat + 1 := Nat.mod_lt _ (Nat.succ_pos _)
  have hsum : (backoff.currentAttempt + 1).toNat = pauses.length % (n.toNat + 1) + 1 := by
    rw [UInt32.toNat_add, hcount]
    apply Nat.mod_eq_of_lt
    rw [UInt32.toNat_one]
    omega
  have hcan : backoff.canAttempt = true ↔ pauses.length % (n.toNat + 1) + 1 ≤ n.toNat := by
    simp only [BackoffCounter.canAttempt, hmax, decide_eq_true_eq, UInt32.le_iff_toNat_le, hsum]
  have hnext : (pauses.length + 1) % (n.toNat + 1) =
      if pauses.length % (n.toNat + 1) + 1 ≤ n.toNat then pauses.length % (n.toNat + 1) + 1 else 0 := by
    rw [Nat.add_mod]
    split_ifs with hroom
    · rw [Nat.mod_eq_of_lt (by omega : 1 < n.toNat + 1), Nat.mod_eq_of_lt (by omega)]
    · have hfull : pauses.length % (n.toNat + 1) = n.toNat := by omega
      rw [hfull, Nat.add_mod_mod, Nat.mod_self]
  unfold pause circle Counts
  rw [List.length_append, List.length_singleton, hnext]
  by_cases hroom : backoff.canAttempt = true
  · have hawait : backoff.awaitAttempt = { backoff with currentAttempt := backoff.currentAttempt + 1 } := by
      simp [BackoffCounter.awaitAttempt, hroom]
    rw [if_pos hroom, if_pos hroom, if_pos (hcan.mp hroom), if_neg (Nat.succ_ne_zero _), hawait]
    exact ⟨congrArg some hsum, hmax, hsum⟩
  · rw [if_neg hroom, if_neg hroom, if_neg (mt hcan.mpr hroom)]
    exact ⟨rfl, hmax, rfl⟩

theorem backoff_joins {f : FSM} {next : JoinNext} (h : (Node.joins f next).stage.backoff = some backoff) :
    next = .discover backoff ∨ (∃ identity, next = .connect backoff identity) ∨
      (∃ identity, next = .follow backoff identity) ∨ next = .attempt backoff := by
  cases next with
  | attempt backoff =>
    simp only [Node.joins] at h
    split at h
    · cases h
      simp
    · cases h
  | _ => simp_all [Node.joins, Stage.backoff]

theorem joinConnected_backoff {f : FSM} {leaderIdentity : NodeIdentity} {re : Except ClientError Unit}
    {found : BackoffCounter} (h : (Node.joins f (joinConnected backoff leaderIdentity re)).stage.backoff = some found) :
    backoff = found := by
  have hnext := backoff_joins h
  unfold joinConnected at hnext
  split at hnext <;> simp at hnext <;> exact hnext

theorem joinFollowed_backoff {f : FSM} {re : Except ClientError Unit} {found : BackoffCounter}
    (h : (Node.joins f (joinFollowed backoff re)).stage.backoff = some found) : backoff = found := by
  have hnext := backoff_joins h
  unfold joinFollowed at hnext
  split at hnext <;> simp at hnext <;> exact hnext

theorem answered_backoff {node : Node} {answer : Except Error Unit} :
    (node.answered answer).stage.backoff = some backoff → node.stage.backoff = some backoff := by
  unfold Node.answered
  split
  · rename_i hstage
    rw [hstage]
    split
    · exact id
    · split_ifs
      · exact id
      · intro h
        cases h
  · split <;> exact fun h => by cases h
  · exact id

theorem Paced.keep {node : Node} (hs : s.Paced identity log n) (hnode : s.node.step e = some node)
    (hpaused : s.paused e = s.pauses)
    (hbackoff : ∀ backoff, node.stage.backoff = some backoff → s.node.stage.backoff = some backoff) :
    Paced identity log n ⟨node, s.paused e⟩ := by
  refine ⟨Node.sound_step hs.sound hnode, ?_, ?_, hpaused ▸ hs.circles⟩
  · rw [moves_options (Node.moves hs.sound hnode)]
    exact hs.options
  · intro backoff h
    rw [hpaused]
    exact hs.counts backoff (hbackoff backoff h)

theorem paced_started (hs : s.Paced identity log n) (hstage : s.node.stage = .dispatch) :
    Paced identity log n ⟨Node.dispatch s.node.fsm, s.paused (.input .started)⟩ := by
  have hpaused : s.paused (.input .started) = [] := by simp [paused, hstage]
  rw [hpaused]
  refine ⟨Node.sound_dispatch hs.sound.placed, ?_, ?_, by simp [Circles]⟩
  · rw [(StartRun.dispatch_fsm s.node.fsm).1]
    exact hs.options
  · intro backoff h
    unfold Node.dispatch at h
    split at h
    · cases h
      exact ⟨hs.options, by simp [BackoffCounter.new]⟩
    · cases h
    · cases h
    · cases h

theorem paced_discovered (hlt : n.toNat < 2 ^ 32 - 1) (hs : s.Paced identity log n)
    (hstage : s.node.stage = .discovering backoff) (re : Option (Except Error (Option LeaderState))) :
    Paced identity log n ⟨Node.joins s.node.fsm (joinDiscovered backoff re), s.paused (.input (.discovered re))⟩ := by
  have hnode : s.node.step (.input (.discovered re)) = some (Node.joins s.node.fsm (joinDiscovered backoff re)) := by
    simp [Node.step, Node.input, hstage]
  have hcounts := hs.counts backoff (by rw [hstage]; rfl)
  by_cases htransient : ∃ err, re = some (.error err) ∧ isTransient err = true
  · obtain ⟨err, rfl, herr⟩ := htransient
    have hpaused : s.paused (.input (.discovered (some (.error err)))) = s.pauses ++ [pause backoff] := by
      simp [paused, hstage, herr]
    have hjoins : joinDiscovered backoff (some (.error err)) =
        .discover (if backoff.canAttempt then backoff.awaitAttempt else backoff.reset) := by
      simp only [joinDiscovered, herr, if_true]
      split_ifs <;> rfl
    obtain ⟨hpause, hnext⟩ := counts_pause hlt hcounts
    rw [hpaused]
    refine ⟨Node.sound_step hs.sound hnode, ?_, ?_, circles_append hs.circles hpause⟩
    · dsimp only
      rw [moves_options (Node.moves hs.sound hnode)]
      exact hs.options
    · intro found h
      rw [hjoins] at h
      cases h
      exact hnext
  · have hpaused : s.paused (.input (.discovered re)) = s.pauses := by
      unfold paused
      rw [hstage]
      split
      · rename_i hdispatch _
        cases hdispatch
      · rename_i herr
        cases herr
        split_ifs with htrue
        · exact absurd ⟨_, rfl, htrue⟩ htransient
        · rfl
      · rfl
    apply hs.keep hnode hpaused
    intro found h
    have hnext := backoff_joins h
    have hsame : backoff = found := by
      unfold joinDiscovered at hnext
      split at hnext
      · simp at hnext
      · split at hnext <;> simp at hnext
        exact hnext
      · simpa using hnext
      · rw [if_neg (fun htrue => htransient ⟨_, rfl, htrue⟩)] at hnext
        simp at hnext
    rw [hstage, hsame]
    rfl

theorem paced_step (hlt : n.toNat < 2 ^ 32 - 1) (hs : s.Paced identity log n) (h : s.step e = some t) :
    t.Paced identity log n := by
  obtain ⟨node, hnode, rfl⟩ := Option.map_eq_some_iff.mp h
  cases e with
  | answered answer =>
    have hpaused : s.paused (.answered answer) = s.pauses := by
      unfold paused
      split <;> first | rfl | contradiction
    obtain ⟨_, _, rfl⟩ := Option.map_eq_some_iff.mp hnode
    exact hs.keep hnode hpaused (fun _ => answered_backoff)
  | input i =>
    have hinput := hnode
    simp only [Node.step] at hinput
    unfold Node.input at hinput
    split at hinput <;> cases hinput <;> rename_i hstage
    · exact paced_started hs hstage
    · exact paced_discovered hlt hs hstage _
    · apply hs.keep hnode (by simp [paused, hstage])
      intro found hfound
      rw [hstage, joinConnected_backoff hfound]
      rfl
    · apply hs.keep hnode (by simp [paused, hstage])
      intro found hfound
      rw [hstage, joinFollowed_backoff hfound]
      rfl
    · apply hs.keep hnode (by simp [paused, hstage])
      intro found hfound
      rename_i input
      cases hturn : s.node.fsm.followerTurn input <;> rw [hturn] at hfound <;> cases hfound
    · apply hs.keep hnode (by simp [paused, hstage])
      intro found hfound
      rename_i acc a
      cases hturn : s.node.fsm.leaderTurn acc a <;> rw [hturn] at hfound <;> cases hfound
    · apply hs.keep hnode (by simp [paused, hstage])
      intro found hfound
      cases hfound

/-- In one `join` the pauses go round: the attempts 1 to `n` are waited for, and after the next transient
error there is none. Whatever else `join` does leaves the circle where it is. -/
theorem join_paced {group : String} {options : S2cOptions} (hmax : options.retry.maxAttempts = some n)
    (hlt : n.toNat < 2 ^ 32 - 1) (h : Reachable step (start (FSM.new group options identity log)) s) :
    Circles n s.pauses := by
  have hstart : (start (FSM.new group options identity log)).Paced identity log n :=
    ⟨Node.sound_new group options identity log, hmax, by simp [start, Stage.backoff], by simp [start, Circles]⟩
  have hs : s.Paced identity log n := invariant (fun _ _ _ => paced_step hlt) hstart h
  exact hs.circles

theorem join_paced_sample : ∃ s, exec step (start sampleNode)
    (.input .started :: List.replicate 5 (.input (.discovered (some (.error (.generic "S3" "timeout")))))) = some s ∧
    s.pauses = [some 1, some 2, some 3, none, some 1] ∧ Circles 3 s.pauses := by
  have hruns : (exec step (start sampleNode) (.input .started ::
      List.replicate 5 (.input (.discovered (some (.error (.generic "S3" "timeout"))))))).map PauseRun.pauses =
        some [some 1, some 2, some 3, none, some 1] := by decide
  obtain ⟨s, hs, hpauses⟩ := Option.map_eq_some_iff.mp hruns
  exact ⟨s, hs, hpauses, join_paced (n := 3) rfl (by decide) ⟨_, hs⟩⟩

end PauseRun

end S2c
