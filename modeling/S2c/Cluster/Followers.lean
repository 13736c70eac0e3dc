import S2c.Cluster.Moves
import S2c.Fsm.Accounting

namespace S2c

open Wire Loop Machine

def S2cMessageEnvelope.followIdentity (msg : S2cMessageEnvelope) : Option NodeIdentity :=
  match msg.s2cMessage.body with
  | some (.follow follow) => follow.nodeIdentity
  | _ => none

def Arrivals.follows (a : Arrivals) : List NodeIdentity := a.due.filterMap S2cMessageEnvelope.followIdentity

structure FollowedRun where
  node : Node
  asked : List NodeIdentity

namespace FollowedRun

def start (f : FSM) : FollowedRun := ⟨⟨f, .dispatch⟩, []⟩

def taken (s : FollowedRun) (e : NodeEvent) : List NodeIdentity :=
  match s.node.stage, e with
  | .leading acc, .input (.turn a) =>
    match s.node.fsm.leaderTurn acc a with
    | .panicked => []
    | _ => a.follows
  | _, _ => []

def step (s : FollowedRun) (e : NodeEvent) : Option FollowedRun :=
  (s.node.step e).map (fun n => ⟨n, s.asked ++ s.taken e⟩)

structure Registered (s : FollowedRun) : Prop where
  once : s.node.fsm.followers.Nodup
  members : ∀ n, n ∈ s.node.fsm.followers ↔ n ∈ s.asked

structure Followed (identity : NodeIdentity) (log : S2cLog) (s : FollowedRun) : Prop where
  sound : s.node.Sound identity log
  followers : s.node.fsm.followers = s.asked

variable {s t : FollowedRun} {e : NodeEvent} {identity : NodeIdentity} {log : S2cLog}

theorem followers_handleDue {f f' : FSM} {acc acc' : List StateRequest} {msg : S2cMessageEnvelope}
    (h : FSM.handleDue (f, acc) msg = some (f', acc')) :
    f'.followers = f.followers ++ msg.followIdentity.toList := by
  unfold FSM.handleDue at h
  unfold S2cMessageEnvelope.followIdentity
  split at h
  · rename_i hbody
    cases h
    simp [hbody]
  · rename_i follow hbody
    obtain ⟨n, hn, hs⟩ := Option.map_eq_some_iff.mp h
    cases hs
    simp [hbody, hn]
  · rename_i body _ hfollow hbody
    cases h
    rw [hbody]
    cases body with
    | follow follow => exact absurd rfl (hfollow follow)
    | _ => simp
  · rename_i hbody
    cases h
    simp [hbody]

theorem followers_due {f f' : FSM} {acc acc' : List StateRequest} {due : List S2cMessageEnvelope}
    (h : due.foldlM FSM.handleDue (f, acc) = some (f', acc')) :
    f'.followers = f.followers ++ due.filterMap S2cMessageEnvelope.followIdentity := by
  induction due generalizing f acc with
  | nil =>
    cases h
    simp
  | cons msg due ih =>
    rw [List.foldlM_cons] at h
    obtain ⟨⟨f₁, acc₁⟩, hmsg, hdue⟩ := Option.bind_eq_some_iff.mp h
    rw [ih hdue, followers_handleDue hmsg, List.append_assoc, List.filterMap_cons]
    cases msg.followIdentity <;> simp

theorem taken_eq_nil (hturn : ∀ a acc, e = .input (.turn a) → s.node.stage = .leading acc →
    s.node.fsm.leaderTurn acc a = .panicked) : s.taken e = [] := by
  unfold taken
  split
  · rename_i acc a hstage
    rw [hturn a acc rfl hstage]
  · rfl

theorem taken_turn {a : Arrivals} {acc : List StateRequest} (hstage : s.node.stage = .leading acc)
    (hturn : s.node.fsm.leaderTurn acc a ≠ .panicked) : s.taken (.input (.turn a)) = a.follows := by
  unfold taken
  rw [hstage]
  dsimp only
  split
  · contradiction
  · rfl

theorem followers_step (hs : s.Followed identity log) (h : s.step e = some t) : t.Followed identity log := by
  obtain ⟨n, hn, rfl⟩ := Option.map_eq_some_iff.mp h
  refine ⟨Node.sound_step hs.sound hn, ?_⟩
  have hmoves := Node.moves hs.sound hn
  dsimp only
  rw [← hs.followers]
  generalize n.fsm = f at hmoves
  cases hmoves with
  | still e _ hturn => rw [taken_eq_nil hturn, List.append_nil]
  | settled e state commitIndex epoch _ hturn _ _ =>
    rw [taken_eq_nil (fun a _ he => absurd he (hturn a)), List.append_nil]
  | missed hstage hroom => rw [taken_eq_nil (by simp), List.append_nil]
  | gaveUp hstage hspent => rw [taken_eq_nil (by simp), List.append_nil]
  | received hstage msg =>
    obtain ⟨missedHeartbeats, syncQueue, hkeeps⟩ := s.node.fsm.followerReceived_keeps msg.s2cMessage
    rw [taken_eq_nil (by simp), List.append_nil, hkeeps]
  | turned a acc acc' f hstage hdue hturn =>
    rw [taken_turn hstage hturn, followers_due hdue]
    rfl

theorem registered_iff_nodup (hs : s.Followed identity log) : s.Registered ↔ s.asked.Nodup := by
  constructor
  · intro h
    rw [← hs.followers]
    exact h.once
  · intro h
    rw [← hs.followers] at h
    refine ⟨h, ?_⟩
    intro n
    rw [hs.followers]

theorem followers_along_run (group : String) (options : S2cOptions) (identity : NodeIdentity) (log : S2cLog)
    (es : List NodeEvent) : Always step Registered (start (FSM.new group options identity log)) es ↔
      Along step (fun s e => (s.asked ++ s.taken e).Nodup) (start (FSM.new group options identity log)) es := by
  have hstart : (start (FSM.new group options identity log)).Followed identity log :=
    ⟨Node.sound_new group options identity log, rfl⟩
  apply always_iff_along (J := Followed identity log) _ _ hstart
  · exact (registered_iff_nodup hstart).mpr List.nodup_nil
  · intro s e t hs _ h
    exact followers_step hs h
  · intro s e t hs _ h
    rw [registered_iff_nodup (followers_step hs h)]
    obtain ⟨n, _, rfl⟩ := Option.map_eq_some_iff.mp h
    rfl

def followedTwice : Arrivals where
  first := some ⟨⟨"c1", some (.follow ⟨0, some ⟨"n2", "h2", 1, "a"⟩, "g"⟩), none⟩, ⟨"n2", "h2", 1, "a"⟩⟩
  locals := []
  remotes := [⟨⟨"c2", some (.follow ⟨0, some ⟨"n2", "h2", 1, "a"⟩, "g"⟩), none⟩, ⟨"n2", "h2", 1, "a"⟩⟩]
  elapsedNanos := 0

theorem followers_fails : ¬Always step Registered (start sampleNode)
    [.input .started, .input (.discovered (some (.ok none))), .answered (.ok ()), .input .started,
      .input (.turn followedTwice)] := by
  intro h
  have hregistered := h _ (List.prefix_refl _) _ rfl
  have honce := hregistered.once
  revert honce
  decide

end FollowedRun

end S2c
