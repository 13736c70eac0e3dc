import S2c.Cluster.Leaders

namespace S2c

open Wire Loop Machine

structure Shaped (entries : UInt64 → Option Bytes) : Prop where
  gapless : ∃ n, ∀ k : UInt64, entries k ≠ none ↔ 1 ≤ k.toNat ∧ k.toNat ≤ n
  decodes : ∀ k payload, entries k = some payload →
    ∃ leaderState, parseLeaderState payload = some leaderState ∧ leaderState.commitIndex = k
  increasing : ∀ j k payload payload' leaderState leaderState', entries j = some payload →
    entries k = some payload' → parseLeaderState payload = some leaderState →
    parseLeaderState payload' = some leaderState' → j < k → leaderState.epoch < leaderState'.epoch

namespace Cluster

variable {ι : Type} {C : Cluster ι} {s t : ClusterState ι}

theorem Safe.shaped (h : C.Safe s) : Shaped (C.entries s.store) := by
  constructor
  · by_cases hempty : C.entries s.store 1 = none
    · refine ⟨0, fun k => ?_⟩
      constructor
      · intro hk
        obtain ⟨payload, hentry⟩ := Option.ne_none_iff_exists'.mp hk
        obtain ⟨rfl, _⟩ := h.entry k payload hentry
        exact absurd hempty hk
      · omega
    · refine ⟨1, fun k => ?_⟩
      constructor
      · intro hk
        obtain ⟨payload, hentry⟩ := Option.ne_none_iff_exists'.mp hk
        obtain ⟨rfl, _⟩ := h.entry k payload hentry
        exact ⟨Nat.le_refl 1, Nat.le_refl 1⟩
      · rintro ⟨hlow, hhigh⟩
        have hk : k = 1 := UInt64.toNat_inj.mp (Nat.le_antisymm hhigh hlow)
        rw [hk]
        exact hempty
  · intro k payload hentry
    obtain ⟨rfl, i, hparse⟩ := h.entry k payload hentry
    exact ⟨C.firstLeader i, hparse, rfl⟩
  · intro j k payload payload' leaderState leaderState' hj hk _ _ hlt
    obtain ⟨rfl, _⟩ := h.entry j payload hj
    obtain ⟨rfl, _⟩ := h.entry k payload' hk
    exact absurd hlt (by decide)

theorem Safe.unique (h : C.Safe s) {i j : ι} (hi : (s.nodes i).fsm.state = .leader)
    (hj : (s.nodes j).fsm.state = .leader) : i = j := by
  obtain ⟨payload, hentry, hparse⟩ := h.leader i hi
  obtain ⟨payload', hentry', hparse'⟩ := h.leader j hj
  obtain rfl := Option.some.inj (hentry.symm.trans hentry')
  have hsame := congrArg LeaderState.nodeIdentity (Option.some.inj (hparse.symm.trans hparse'))
  exact C.distinct (Option.some.inj hsame)

variable [DecidableEq ι]

theorem leader_safety (hs : C.Starts s) (h : Reachable C.step s t) :
    (∀ i, (t.nodes i).fsm.state = .leader → ∃ payload leaderState,
      C.entries t.store (t.nodes i).fsm.commitIndex = some payload ∧
      parseLeaderState payload = some leaderState ∧
      leaderState.commitIndex = (t.nodes i).fsm.commitIndex ∧
      leaderState.epoch = (t.nodes i).fsm.epoch ∧
      leaderState.nodeIdentity = some (C.identity i)) ∧
    ∀ i j, (t.nodes i).fsm.state = .leader → (t.nodes j).fsm.state = .leader →
      (t.nodes i).fsm.epoch = (t.nodes j).fsm.epoch → i = j := by
  have hsafe := safe_of_reachable hs h
  constructor
  · intro i hi
    obtain ⟨payload, hentry, hparse⟩ := hsafe.leader i hi
    obtain ⟨hindex, hepoch⟩ := (hsafe.sound i).placed.leader hi
    refine ⟨payload, C.firstLeader i, ?_, hparse, ?_, ?_, rfl⟩
    · rw [hindex]
      exact hentry
    · rw [hindex]
      rfl
    · rw [hepoch]
      rfl
  · intro i j hi hj _
    exact hsafe.unique hi hj

theorem extends_step {e : ClusterEvent ι} (h : C.step s e = some t) :
    WriteOnce.Extends (C.entries s.store) (C.entries t.store) := by
  cases e with
  | input i input =>
    obtain ⟨n, _, rfl⟩ := Option.map_eq_some_iff.mp h
    exact WriteOnce.Extends.refl _
  | put i fate =>
    obtain ⟨⟨p, payload⟩, _, rfl⟩ := Option.map_eq_some_iff.mp h
    exact extends_putOpts s.store p payload fate
  | lost i store source =>
    obtain ⟨_, _, rfl⟩ := Option.map_eq_some_iff.mp h
    exact WriteOnce.Extends.refl _
  | answered i =>
    obtain ⟨_, _, rfl⟩ := Option.map_eq_some_iff.mp h
    exact WriteOnce.Extends.refl _
  | crash i =>
    cases h
    exact WriteOnce.Extends.refl _
  | land request =>
    simp only [step] at h
    split_ifs at h
    cases h
    exact extends_putOpts s.store _ _ .served

theorem log_shape (hs : C.Starts s) (h : Reachable C.step s t) : Shaped (C.entries t.store) ∧
    ∀ u, Reachable C.step t u → WriteOnce.Extends (C.entries t.store) (C.entries u.store) := by
  refine ⟨(safe_of_reachable hs h).shaped, ?_⟩
  intro u hu
  exact WriteOnce.extends_of_reachable (fun s => C.entries s.store) (fun _ _ _ => extends_step) hu

end Cluster

def samplePair : Cluster Bool where
  group := "g"
  encoding := PathEncoding.escape
  s2cOptions _ := S2cOptions.default
  logOptions _ := S2cOptions.default
  identity i := if i then sampleNode.nodeIdentity else FSM.otherNode.nodeIdentity
  distinct := by
    intro i j h
    revert h
    cases i <;> cases j <;> decide

def samplePair.start : ClusterState Bool := ⟨samplePair.fresh, ∅, fun _ => none, []⟩

def samplePair.attempting : ClusterState Bool :=
  ⟨Function.update samplePair.fresh true ⟨sampleNode, .attempting (BackoffCounter.new S2cRetryOptions.default)
    sampleAttempt sampleNode.startAttempting⟩, ∅, fun _ => none, []⟩

def samplePair.granted : ClusterState Bool :=
  { samplePair.attempting with
    store := sampleStore, answers := Function.update (fun _ => none) true (some (.ok ())) }

def samplePair.elected : ClusterState Bool :=
  ⟨Function.update samplePair.fresh true ⟨sampleLeader, .dispatch⟩, sampleStore, fun _ => none, []⟩

namespace Cluster

theorem starts_sample : samplePair.Starts samplePair.start :=
  ⟨fun _ => rfl, fun _ => Std.ExtTreeMap.getElem?_empty, rfl, fun _ => rfl⟩

theorem put_sample : samplePair.step samplePair.attempting (.put true .served) = some samplePair.granted := by
  have hindex : sampleAttempt.commitIndex = 1 := rfl
  have hlog : sampleNode.s2cLog = sampleLog := rfl
  simp [step, samplePair.attempting, ClusterState.unanswered, Node.request, Node.putting, ObjectStore.putOpts,
    hindex, hlog, samplePair.granted, sampleStore]

theorem answered_sample : samplePair.step samplePair.granted (.answered true) = some samplePair.elected := by
  have hput : sampleNode.attemptPut sampleAttempt sampleNode.startAttempting (.ok ()) =
      .leave sampleLeader := rfl
  have hstate : sampleLeader.state = .leader := rfl
  simp [step, samplePair.granted, samplePair.attempting, Node.answered, hput, hstate, samplePair.elected]

theorem reachable_granted : Reachable samplePair.step samplePair.start samplePair.granted := by
  have hattempt : sampleNode.attempt = some sampleAttempt := by decide
  let discovering : ClusterState Bool :=
    ⟨Function.update samplePair.fresh true
      ⟨sampleNode, .discovering (BackoffCounter.new S2cRetryOptions.default)⟩, ∅, fun _ => none, []⟩
  have hstarted : samplePair.step samplePair.start (.input true .started) = some discovering := rfl
  have hdiscovered : samplePair.step discovering (.input true (.discovered (some (.ok none)))) =
      some samplePair.attempting := by
    simp [step, discovering, samplePair.attempting, Node.input, joinDiscovered, Node.joins, hattempt]
  refine ⟨[.input true .started, .input true (.discovered (some (.ok none))), .put true .served], ?_⟩
  simp only [exec_cons, hstarted, hdiscovered, put_sample, Option.bind_some, exec_nil]

theorem reachable_sample : Reachable samplePair.step samplePair.start samplePair.elected :=
  reachable_granted.trans (Reachable.single answered_sample)

theorem leader_safety_sample : ∃ payload leaderState,
    samplePair.entries sampleStore 1 = some payload ∧ parseLeaderState payload = some leaderState ∧
    leaderState.commitIndex = 1 ∧ leaderState.epoch = 1 ∧
    leaderState.nodeIdentity = some sampleNode.nodeIdentity :=
  (leader_safety starts_sample reachable_sample).1 true rfl

theorem log_shape_sample : Shaped (samplePair.entries sampleStore) :=
  (log_shape starts_sample reachable_sample).1

end Cluster

end S2c
