import S2c.Cluster.Moves

namespace S2c

open Wire Loop Machine

/-- A run of a node, with the timeouts since it last heard from its leader or entered `FOLLOWER`,
the counter as it stood at that entry, and whether it has heard from its leader in this term. -/
structure WatchRun where
  node : Node
  silent : ℕ
  entered : UInt32
  heard : Bool

def S2cMessageEnvelope.replicates (msg : S2cMessageEnvelope) : Bool :=
  match msg.s2cMessage.body with
  | some (.replicateRequest _) => true
  | _ => false

namespace WatchRun

def start (f : FSM) : WatchRun := ⟨⟨f, .dispatch⟩, 0, f.missedHeartbeats, false⟩

def watched (s : WatchRun) (n : Node) (e : NodeEvent) : WatchRun :=
  if n.fsm.state = .follower ∧ s.node.fsm.state ≠ .follower then ⟨n, 0, n.fsm.missedHeartbeats, false⟩
  else
    match e with
    | .input (.heard .timedOut) => { s with node := n, silent := s.silent + 1 }
    | .input (.heard (.received msg)) =>
      if msg.replicates then { s with node := n, silent := 0, heard := true } else { s with node := n }
    | _ => { s with node := n }

def step (s : WatchRun) (e : NodeEvent) : Option WatchRun := (s.node.step e).map (fun n => s.watched n e)

def Patient (s : WatchRun) (e : NodeEvent) : Prop :=
  ∀ t, s.step e = some t → s.node.fsm.state = .follower → t.node.fsm.state = .notJoined →
    t.node.fsm.s2cOptions.maxMissedHeartbeats.toNat ≤ t.silent

def Counting (s : WatchRun) (e : NodeEvent) : Prop :=
  s.node.stage = .follower → e = .input (.heard .timedOut) →
    s.node.fsm.s2cOptions.maxMissedHeartbeats ≤ s.node.fsm.missedHeartbeats + 1 →
      s.heard = true ∨ s.entered = 0 ∨ s.entered.toNat = 2 ^ 32 - 1 ∨
        s.node.fsm.s2cOptions.maxMissedHeartbeats ≤ 1

/-- The counter is that of the last entry, or 0, and the timeouts since; after an entry with a counter
at its limit there has been none. -/
structure Watched (identity : NodeIdentity) (log : S2cLog) (s : WatchRun) : Prop where
  sound : s.node.Sound identity log
  count : s.node.fsm.missedHeartbeats.toNat =
    ((if s.heard then 0 else s.entered.toNat) + s.silent) % 2 ^ 32
  entered : s.heard = false → s.entered = 0 ∨ s.node.fsm.s2cOptions.maxMissedHeartbeats ≤ s.entered
  outside : s.node.fsm.state ≠ .follower → s.node.fsm.missedHeartbeats = 0 ∨
    s.node.fsm.s2cOptions.maxMissedHeartbeats ≤ s.node.fsm.missedHeartbeats
  first : s.node.fsm.state = .follower → s.heard = false → s.entered ≠ 0 → s.entered.toNat ≠ 2 ^ 32 - 1 →
    1 < s.node.fsm.s2cOptions.maxMissedHeartbeats → s.silent = 0

variable {s t : WatchRun} {e : NodeEvent} {identity : NodeIdentity} {log : S2cLog}

theorem watched_start (group : String) (options : S2cOptions) (identity : NodeIdentity) (log : S2cLog) :
    (start (FSM.new group options identity log)).Watched identity log where
  sound := Node.sound_new group options identity log
  count := rfl
  entered _ := Or.inl rfl
  outside _ := Or.inl rfl
  first _ _ h := absurd rfl h

theorem watched_eq {n : Node} (henter : n.fsm.state = .follower → s.node.fsm.state = .follower)
    (hheard : ∀ input, e = .input (.heard input) → input = .closed) : s.watched n e = { s with node := n } := by
  unfold watched
  rw [if_neg (fun h => h.2 (henter h.1))]
  split
  · cases hheard _ rfl
  · cases hheard _ rfl
  · rfl

theorem watched_timedOut (hstate : s.node.fsm.state = .follower) (n : Node) :
    s.watched n (.input (.heard .timedOut)) = { s with node := n, silent := s.silent + 1 } := by
  simp [watched, hstate]

theorem watched_received (hstate : s.node.fsm.state = .follower) (n : Node) (msg : S2cMessageEnvelope) :
    s.watched n (.input (.heard (.received msg))) =
      if msg.replicates then { s with node := n, silent := 0, heard := true } else { s with node := n } := by
  simp [watched, hstate]

theorem Watched.of_fsm (hs : s.Watched identity log) {n : Node} (hn : n.Sound identity log)
    (hmissed : n.fsm.missedHeartbeats = s.node.fsm.missedHeartbeats)
    (hoptions : n.fsm.s2cOptions = s.node.fsm.s2cOptions)
    (hstate : n.fsm.state = .follower ↔ s.node.fsm.state = .follower) :
    Watched identity log { s with node := n } where
  sound := hn
  count := by rw [hmissed]; exact hs.count
  entered := by rw [hoptions]; exact hs.entered
  outside := by rw [hmissed, hoptions, ne_eq, hstate]; exact hs.outside
  first := by rw [hoptions, hstate]; exact hs.first

theorem toNat_succ (m : UInt32) : (m + 1).toNat = (m.toNat + 1) % 2 ^ 32 := by
  rw [UInt32.toNat_add]
  rfl

theorem Watched.count_succ (hs : s.Watched identity log) :
    (s.node.fsm.missedHeartbeats + 1).toNat =
      ((if s.heard then 0 else s.entered.toNat) + (s.silent + 1)) % 2 ^ 32 := by
  rw [toNat_succ, hs.count, ← Nat.add_assoc]
  omega

theorem followerReceived_missed (f : FSM) (msg : S2cMessageEnvelope) :
    (f.followerReceived msg.s2cMessage).1.missedHeartbeats = if msg.replicates then 0 else f.missedHeartbeats := by
  unfold FSM.followerReceived S2cMessageEnvelope.replicates
  cases msg.s2cMessage.body with
  | none => rfl
  | some body => cases body <;> rfl

theorem watched_step (hs : s.Watched identity log) (h : s.step e = some t) : t.Watched identity log := by
  obtain ⟨n, hn, rfl⟩ := Option.map_eq_some_iff.mp h
  have hsound := Node.sound_step hs.sound hn
  have hmoves := Node.moves hs.sound hn
  generalize hfsm : n.fsm = f at hmoves
  cases hmoves with
  | still e hheard _ =>
    rw [watched_eq (by simp [hfsm]) hheard]
    exact hs.of_fsm hsound (by rw [hfsm]) (by rw [hfsm]) (by rw [hfsm])
  | settled e state commitIndex epoch hheard _ hfrom hstate =>
    by_cases henter : state = .follower
    · subst henter
      have hwatched : s.watched n e = ⟨n, 0, s.node.fsm.missedHeartbeats, false⟩ := by
        simp [watched, hfsm, hfrom]
      have hnot : s.node.fsm.state ≠ .follower := by simp [hfrom]
      have hlt := s.node.fsm.missedHeartbeats.toNat_lt
      rw [hwatched]
      refine ⟨hsound, ?_, ?_, ?_, ?_⟩
      · simp only [hfsm, Bool.false_eq_true, if_false]
        omega
      · intro _
        simpa [hfsm] using hs.outside hnot
      · simp [hfsm]
      · intros
        rfl
    · rw [watched_eq (by simp [hfsm, henter]) (fun input he => absurd he (hheard input))]
      exact hs.of_fsm hsound (by rw [hfsm]) (by rw [hfsm]) (by simp [hfsm, henter, hfrom])
  | missed hstage hroom =>
    have hstate : s.node.fsm.state = .follower := hs.sound.state_of hstage rfl
    rw [watched_timedOut hstate]
    refine ⟨hsound, ?_, ?_, ?_, ?_⟩
    · rw [hfsm]
      exact hs.count_succ
    · rw [hfsm]
      exact hs.entered
    · simp [hfsm, hstate]
    · rw [hfsm]
      intro _ (hheard : s.heard = false) hne (hlast : s.entered.toNat ≠ 2 ^ 32 - 1) hmax
      exfalso
      -- the first timeout of the term would have been the one to give up
      have hzero := hs.first hstate hheard hne hlast hmax
      have hcount := hs.count_succ
      have hentered := (hs.entered hheard).resolve_left hne
      have hlt := s.entered.toNat_lt
      rw [UInt32.lt_iff_toNat_lt, hcount, hzero] at hroom
      rw [UInt32.le_iff_toNat_le] at hentered
      simp only [hheard, Bool.false_eq_true, if_false] at hroom
      omega
  | gaveUp hstage hspent =>
    have hstate : s.node.fsm.state = .follower := hs.sound.state_of hstage rfl
    rw [watched_timedOut hstate]
    refine ⟨hsound, ?_, ?_, ?_, ?_⟩
    · rw [hfsm]
      exact hs.count_succ
    · rw [hfsm]
      exact hs.entered
    · rw [hfsm]
      intro _
      exact Or.inr hspent
    · simp [hfsm]
  | received hstage msg =>
    have hstate : s.node.fsm.state = .follower := hs.sound.state_of hstage rfl
    have hmissed := followerReceived_missed s.node.fsm msg
    obtain ⟨missedHeartbeats, syncQueue, hkeeps⟩ := s.node.fsm.followerReceived_keeps msg.s2cMessage
    rw [hkeeps] at hfsm hmissed
    rw [watched_received hstate]
    cases hreplicates : msg.replicates with
    | true =>
      rw [hreplicates] at hmissed
      rw [if_pos rfl]
      refine ⟨hsound, ?_, by simp, ?_, by simp⟩
      · rw [hfsm, hmissed]
        rfl
      · simp [hfsm, hstate]
    | false =>
      rw [hreplicates] at hmissed
      rw [if_neg (by decide)]
      exact hs.of_fsm hsound (by rw [hfsm, hmissed]; rfl) (by rw [hfsm]) (by rw [hfsm])
  | turned a acc acc' f hstage hdue _ =>
    obtain ⟨⟨followers, rfl⟩, _⟩ := FSM.foldlM_handleDue_some hdue
    rw [watched_eq (by simp [hfsm]) (by simp)]
    exact hs.of_fsm hsound (by rw [hfsm]) (by rw [hfsm]) (by rw [hfsm])

theorem toNat_one_le_iff (m : UInt32) : m ≤ 1 ↔ m.toNat ≤ 1 := UInt32.le_iff_toNat_le

theorem patient_gaveUp (hs : s.Watched identity log) (hstate : s.node.fsm.state = .follower)
    (hspent : s.node.fsm.s2cOptions.maxMissedHeartbeats ≤ s.node.fsm.missedHeartbeats + 1) :
    s.node.fsm.s2cOptions.maxMissedHeartbeats.toNat ≤ s.silent + 1 ↔
      s.heard = true ∨ s.entered = 0 ∨ s.entered.toNat = 2 ^ 32 - 1 ∨
        s.node.fsm.s2cOptions.maxMissedHeartbeats ≤ 1 := by
  have hcount := hs.count_succ
  rw [UInt32.le_iff_toNat_le, hcount] at hspent
  have hmod := Nat.mod_le
  rw [toNat_one_le_iff]
  cases hheard : s.heard with
  | true =>
    simp only [hheard, if_true] at hspent
    refine iff_of_true ?_ (Or.inl rfl)
    omega
  | false =>
    simp only [hheard, Bool.false_eq_true, if_false] at hspent
    simp only [Bool.false_eq_true, false_or]
    constructor
    · intro hle
      by_contra hno
      push Not at hno
      obtain ⟨hne, hlast, hmax⟩ := hno
      have hzero := hs.first hstate hheard hne hlast (UInt32.lt_iff_toNat_lt.mpr hmax)
      omega
    · rintro (hzero | hlast | hmax)
      · rw [hzero, UInt32.toNat_zero] at hspent
        omega
      · rw [hlast] at hspent
        omega
      · omega

theorem watched_node (n : Node) : (s.watched n e).node = n := by
  unfold watched
  split_ifs
  · rfl
  · split
    · rfl
    · split_ifs <;> rfl
    · rfl

theorem patient_iff_watched {n : Node} (h : s.node.step e = some n) : s.Patient e ↔
    (s.node.fsm.state = .follower → n.fsm.state = .notJoined →
      n.fsm.s2cOptions.maxMissedHeartbeats.toNat ≤ (s.watched n e).silent) := by
  have hstep : s.step e = some (s.watched n e) := by rw [step, h, Option.map_some]
  unfold Patient
  rw [hstep]
  simp only [Option.some.injEq, forall_eq', watched_node]

theorem patient_iff (hs : s.Watched identity log) (h : s.step e = some t) : s.Patient e ↔ s.Counting e := by
  obtain ⟨n, hn, rfl⟩ := Option.map_eq_some_iff.mp h
  have hmoves := Node.moves hs.sound hn
  rw [patient_iff_watched hn]
  generalize hfsm : n.fsm = f at hmoves
  cases hmoves with
  | still e hheard _ =>
    refine iff_of_true ?_ ?_
    · intro hfollower hleft
      cases hfollower.symm.trans hleft
    · intro _ he
      cases hheard _ he
  | settled e state commitIndex epoch hheard _ hfrom _ =>
    refine iff_of_true ?_ ?_
    · intro hfollower
      cases hfrom.symm.trans hfollower
    · intro _ he
      exact absurd he (hheard _)
  | missed hstage hroom =>
    refine iff_of_true ?_ ?_
    · intro hfollower hleft
      cases hfollower.symm.trans hleft
    · intro _ _ hspent
      rw [UInt32.lt_iff_toNat_lt] at hroom
      rw [UInt32.le_iff_toNat_le] at hspent
      omega
  | gaveUp hstage hspent =>
    have hstate : s.node.fsm.state = .follower := hs.sound.state_of hstage rfl
    rw [watched_timedOut hstate, patient_gaveUp hs hstate hspent]
    constructor
    · intro hcounts _ _ _
      exact hcounts hstate rfl
    · intro hcounting _ _
      exact hcounting hstage rfl hspent
  | received hstage msg =>
    obtain ⟨missedHeartbeats, syncQueue, hkeeps⟩ := s.node.fsm.followerReceived_keeps msg.s2cMessage
    refine iff_of_true ?_ ?_
    · rw [hkeeps]
      intro hfollower hleft
      cases hfollower.symm.trans hleft
    · intro _ he
      cases he
  | turned a acc acc' f hstage hdue _ =>
    obtain ⟨⟨followers, rfl⟩, _⟩ := FSM.foldlM_handleDue_some hdue
    refine iff_of_true ?_ ?_
    · intro hfollower hleft
      cases hfollower.symm.trans hleft
    · intro _ he
      cases he

theorem patient_along_run (group : String) (options : S2cOptions) (identity : NodeIdentity) (log : S2cLog)
    (es : List NodeEvent) : Along step Patient (start (FSM.new group options identity log)) es ↔
      Along step Counting (start (FSM.new group options identity log)) es := by
  apply along_congr (J := Watched identity log) _ _ (watched_start group options identity log)
  · intro s e t hs h
    exact watched_step hs h
  · intro s e t hs h
    exact patient_iff hs h

def twoTerms : List NodeEvent :=
  let joining : List NodeEvent := [.input .started, .input (.discovered (some (.ok (some FSM.otherState)))),
    .input (.connected (.ok ())), .input (.followed (.ok ())), .input .started]
  joining ++ List.replicate 10 (.input (.heard .timedOut)) ++ joining

theorem patient_fails : ¬Along step Patient (start sampleNode) (twoTerms ++ [.input (.heard .timedOut)]) := by
  intro h
  have hpatient := Along.of_exec h rfl rfl
  have hsilent := hpatient _ rfl rfl rfl
  revert hsilent
  decide

end WatchRun

end S2c
