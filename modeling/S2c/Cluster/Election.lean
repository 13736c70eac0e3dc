import S2c.Cluster.Heartbeats
import S2c.Cluster.Safety
import S2c.Fsm.Flush

namespace S2c

open Wire Loop Machine

namespace Node

variable {n : Node} {identity : NodeIdentity} {log : S2cLog}

theorem input_timedOut (hstage : n.stage = .follower) : n.input (.heard .timedOut) = some
    (if n.fsm.s2cOptions.maxMissedHeartbeats ≤ n.fsm.missedHeartbeats + 1 then
      ⟨{ n.fsm with missedHeartbeats := n.fsm.missedHeartbeats + 1, state := .notJoined }, .dispatch⟩
    else ⟨{ n.fsm with missedHeartbeats := n.fsm.missedHeartbeats + 1 }, .follower⟩) := by
  simp only [input, hstage, FSM.followerTurn]
  split_ifs <;> rfl

def GivesUp (n : Node) : Prop :=
  ∃ inputs n', exec input n inputs = some n' ∧ n'.stage = .dispatch ∧ n'.fsm.state = .notJoined

theorem givesUp_of_missed (m : ℕ) (hstage : n.stage = .follower)
    (hroom : n.fsm.missedHeartbeats.toNat < n.fsm.s2cOptions.maxMissedHeartbeats.toNat)
    (hm : n.fsm.s2cOptions.maxMissedHeartbeats.toNat ≤ n.fsm.missedHeartbeats.toNat + m) : n.GivesUp := by
  induction m generalizing n with
  | zero => omega
  | succ m ih =>
    have hmax := n.fsm.s2cOptions.maxMissedHeartbeats.toNat_lt
    have hnext := WatchRun.toNat_succ n.fsm.missedHeartbeats
    have hinput := input_timedOut hstage
    by_cases hspent : n.fsm.s2cOptions.maxMissedHeartbeats ≤ n.fsm.missedHeartbeats + 1
    · rw [if_pos hspent] at hinput
      exact ⟨[.heard .timedOut], _, by rw [exec_cons, hinput]; rfl, rfl, rfl⟩
    · rw [if_neg hspent] at hinput
      rw [UInt32.le_iff_toNat_le] at hspent
      obtain ⟨inputs, n', hexec, hn'⟩ := ih (n := ⟨{ n.fsm with missedHeartbeats := n.fsm.missedHeartbeats + 1 },
        .follower⟩) rfl (by dsimp only; omega) (by dsimp only; omega)
      exact ⟨.heard .timedOut :: inputs, n', by rw [exec_cons, hinput]; exact hexec, hn'⟩

theorem givesUp (hstage : n.stage = .follower) : n.GivesUp := by
  have hinput := input_timedOut hstage
  by_cases hspent : n.fsm.s2cOptions.maxMissedHeartbeats ≤ n.fsm.missedHeartbeats + 1
  · rw [if_pos hspent] at hinput
    exact ⟨[.heard .timedOut], _, by rw [exec_cons, hinput]; rfl, rfl, rfl⟩
  · rw [if_neg hspent] at hinput
    rw [UInt32.le_iff_toNat_le, not_le] at hspent
    obtain ⟨inputs, n', hexec, hn'⟩ := givesUp_of_missed n.fsm.s2cOptions.maxMissedHeartbeats.toNat
      (n := ⟨{ n.fsm with missedHeartbeats := n.fsm.missedHeartbeats + 1 }, .follower⟩) rfl hspent
      (Nat.le_add_left _ _)
    exact ⟨.heard .timedOut :: inputs, n', by rw [exec_cons, hinput]; exact hexec, hn'⟩

theorem answered_stage (hended : n.stage ≠ .ended) (answer : Except Error Unit) :
    (n.answered answer).stage ≠ .ended := by
  unfold answered
  split
  · split
    · simp
    · split_ifs <;> simp
  · split <;> simp
  · exact hended

def Attempts (n : Node) : Prop :=
  ∃ inputs n' backoff a s, exec input n inputs = some n' ∧ n'.stage = .attempting backoff a s

theorem Attempts.of_exec {n' : Node} {inputs : List NodeInput} (h : exec input n inputs = some n')
    (hn' : n'.Attempts) : n.Attempts := by
  obtain ⟨inputs', m, backoff, a, s, hexec, hstage⟩ := hn'
  exact ⟨inputs ++ inputs', m, backoff, a, s, by rw [exec_append, h]; exact hexec, hstage⟩

theorem attempts_of_input {i : NodeInput} {f : FSM} {backoff : BackoffCounter}
    (hi : n.input i = some (joins f (.attempt backoff))) (hf : f.attempt ≠ none) : n.Attempts := by
  obtain ⟨a, ha⟩ := Option.ne_none_iff_exists'.mp hf
  have hjoins : joins f (.attempt backoff) = ⟨f, .attempting backoff a f.startAttempting⟩ := by
    simp only [joins, ha]
  refine ⟨[i], ⟨f, .attempting backoff a f.startAttempting⟩, backoff, a, f.startAttempting, ?_, rfl⟩
  rw [exec_cons, hi, hjoins]
  rfl

theorem attempts_of_discovering {backoff : BackoffCounter} (hstage : n.stage = .discovering backoff)
    (hattempt : n.fsm.attempt ≠ none) : n.Attempts := by
  have hinput : n.input (.discovered (some (.ok none))) = some (joins n.fsm (.attempt backoff)) := by
    simp only [input, hstage, joinDiscovered]
  exact attempts_of_input hinput hattempt

theorem attempts_of_notJoined (hstage : n.stage = .dispatch) (hstate : n.fsm.state = .notJoined)
    (hattempt : n.fsm.attempt ≠ none) : n.Attempts := by
  have hinput : exec input n [.started] =
      some ⟨n.fsm, .discovering (BackoffCounter.new n.fsm.s2cOptions.retry)⟩ := by
    simp [exec_cons, input, hstage, dispatch, hstate]
  exact .of_exec hinput (attempts_of_discovering rfl hattempt)

theorem attempts_of_follower (hn : n.Sound identity log) (hstage : n.stage = .follower)
    (hattempt : ∀ f : FSM, f.Placed identity log → f.state ≠ .leader → f.attempt ≠ none) : n.Attempts := by
  obtain ⟨inputs, n', hexec, hstage', hstate⟩ := givesUp hstage
  have hn' : n'.Sound identity log := invariant (fun _ _ _ => sound_input) hn ⟨inputs, hexec⟩
  exact .of_exec hexec (attempts_of_notJoined hstage' hstate (hattempt _ hn'.placed (by simp [hstate])))

theorem attempts (hn : n.Sound identity log) (hended : n.stage ≠ .ended) (hstopped : n.fsm.state ≠ .stopped)
    (hleader : n.fsm.state ≠ .leader)
    (hattempt : ∀ f : FSM, f.Placed identity log → f.state ≠ .leader → f.attempt ≠ none) : n.Attempts := by
  have hown := hattempt n.fsm hn.placed hleader
  cases hstage : n.stage with
  | dispatch =>
    cases hstate : n.fsm.state with
    | notJoined => exact attempts_of_notJoined hstage hstate hown
    | follower =>
      have hinput : exec input n [.started] = some ⟨n.fsm, .follower⟩ := by
        simp [exec_cons, input, hstage, dispatch, hstate]
      have hn' : Sound identity log ⟨n.fsm, .follower⟩ := invariant (fun _ _ _ => sound_input) hn ⟨_, hinput⟩
      exact .of_exec hinput (attempts_of_follower hn' rfl hattempt)
    | leader => exact absurd hstate hleader
    | stopped => exact absurd hstate hstopped
  | discovering backoff => exact attempts_of_discovering hstage hown
  | connecting backoff leaderIdentity =>
    have hinput : n.input (.connected (.error .timeout)) = some (joins n.fsm (.attempt backoff)) := by
      simp only [input, hstage, joinConnected]
    exact attempts_of_input hinput hown
  | following backoff leaderIdentity =>
    have hinput : n.input (.followed (.error .timeout)) = some (joins n.fsm (.attempt backoff)) := by
      simp only [input, hstage, joinFollowed]
    exact attempts_of_input hinput hown
  | attempting backoff a s => exact ⟨[], n, backoff, a, s, rfl, hstage⟩
  | follower => exact attempts_of_follower hn hstage hattempt
  | leading acc => exact absurd (hn.state_of hstage rfl) hleader
  | flushing acc payload appending => exact absurd (hn.state_of hstage rfl) hleader
  | ended => exact absurd hstage hended

end Node

def ClusterEvent.undisturbed {ι : Type} [DecidableEq ι] (i : ι) : ClusterEvent ι → Bool
  | .input j _ => j = i
  | .put j fate => j = i ∧ fate = .served
  | .answered j => j = i
  | _ => false

def ClusterState.Elected {ι : Type} (s : ClusterState ι) (i : ι) : Prop :=
  (s.nodes i).fsm.state = .leader ∨ s.answers i = some (.ok ())

namespace Cluster

variable {ι : Type} {C : Cluster ι} [DecidableEq ι] {s t u : ClusterState ι} {e : ClusterEvent ι}
  {es : List (ClusterEvent ι)} {i : ι}

omit [DecidableEq ι] in
theorem entries_harmless {store : ObjectStore} (htaken : C.entries store 1 ≠ none) {request : Path × Bytes}
    (hrequest : C.Harmless store request) (fate : Fate) :
    C.entries (store.putOpts request.1 request.2 fate).1 = C.entries store := by
  obtain ⟨payload, hentry⟩ := Option.ne_none_iff_exists'.mp htaken
  rw [hrequest.1]
  rcases entries_putOpts store 1 request.2 fate with hsame | hcreate
  · exact hsame
  · rw [hcreate, WriteOnce.create_taken _ hentry]

theorem entries_step (hsafe : C.Safe s) (htaken : C.entries s.store 1 ≠ none) (h : C.step s e = some t) :
    C.entries t.store = C.entries s.store := by
  cases e with
  | input i input =>
    obtain ⟨n, _, rfl⟩ := Option.map_eq_some_iff.mp h
    rfl
  | put i fate =>
    obtain ⟨request, hunanswered, rfl⟩ := Option.map_eq_some_iff.mp h
    exact entries_harmless htaken (hsafe.harmless (ClusterState.request_of_unanswered hunanswered).2) fate
  | lost i store source =>
    obtain ⟨request, _, rfl⟩ := Option.map_eq_some_iff.mp h
    rfl
  | answered i =>
    obtain ⟨answer, _, rfl⟩ := Option.map_eq_some_iff.mp h
    rfl
  | crash i =>
    cases h
    rfl
  | land request =>
    simp only [step] at h
    split_ifs at h with hmem
    cases h
    exact entries_harmless htaken (hsafe.adrift request hmem) .served

theorem elected_step (hsafe : C.Safe s) (htaken : C.entries s.store 1 ≠ none) (h : C.step s e = some t)
    (hi : t.Elected i) : s.Elected i ∧ e ≠ .crash i := by
  cases e with
  | input j input =>
    obtain ⟨n, hn, rfl⟩ := Option.map_eq_some_iff.mp h
    refine ⟨hi.imp_left ?_, by simp⟩
    intro hlead
    rcases (Function.pred_update (fun _ n => n.fsm.state = .leader) s.nodes j n i).mp hlead with
      ⟨rfl, hnew⟩ | ⟨_, hled⟩
    · exact Node.leader_of_input (hsafe.sound i) hn hnew
    · exact hled
  | put j fate =>
    obtain ⟨⟨p, payload⟩, hunanswered, rfl⟩ := Option.map_eq_some_iff.mp h
    refine ⟨hi.imp_right ?_, by simp⟩
    intro hok
    rcases (Function.pred_update (fun _ answer => answer = some (.ok ())) s.answers j _ i).mp hok with
      ⟨rfl, hnew⟩ | ⟨_, hwas⟩
    · -- a put that is answered `Ok` has found the index free
      exact absurd (hsafe.free_of_ok (ClusterState.request_of_unanswered hunanswered).2 (Option.some.inj hnew)) htaken
    · exact hwas
  | lost j store source =>
    obtain ⟨request, _, rfl⟩ := Option.map_eq_some_iff.mp h
    refine ⟨hi.imp_right ?_, by simp⟩
    intro hok
    rcases (Function.pred_update (fun _ answer => answer = some (.ok ())) s.answers j _ i).mp hok with
      ⟨rfl, hnew⟩ | ⟨_, hwas⟩
    · cases hnew
    · exact hwas
  | answered j =>
    obtain ⟨answer, hanswer, rfl⟩ := Option.map_eq_some_iff.mp h
    refine ⟨?_, by simp⟩
    by_cases hij : i = j
    · subst hij
      simp only [ClusterState.Elected, Function.update_self] at hi
      rcases hi with hlead | hok
      · exact (Node.leader_of_answered hlead).imp_right (fun ⟨_, _, _, _, hok⟩ => hok ▸ hanswer)
      · cases hok
    · simpa only [ClusterState.Elected, Function.update_of_ne hij] using hi
  | crash j =>
    cases h
    by_cases hij : i = j
    · subst hij
      simp only [ClusterState.Elected, Function.update_self] at hi
      rcases hi with hlead | hok
      · cases hlead
      · cases hok
    · simp only [ClusterState.Elected, Function.update_of_ne hij] at hi
      refine ⟨hi, ?_⟩
      intro hcrash
      cases hcrash
      exact hij rfl
  | land request =>
    simp only [step] at h
    split_ifs at h
    cases h
    exact ⟨hi, by simp⟩

theorem settled_exec (hsafe : C.Safe s) (htaken : C.entries s.store 1 ≠ none) (h : exec C.step s es = some t) :
    C.entries t.store = C.entries s.store ∧ ∀ i, t.Elected i → s.Elected i ∧ ∀ e ∈ es, e ≠ .crash i := by
  induction es generalizing s with
  | nil =>
    cases h
    exact ⟨rfl, fun i hi => ⟨hi, by simp⟩⟩
  | cons e es ih =>
    obtain ⟨m, hm, hes⟩ := Option.bind_eq_some_iff.mp h
    have hentries := entries_step hsafe htaken hm
    obtain ⟨hrest, helected⟩ := ih (safe_step hsafe hm) (by rwa [hentries]) hes
    refine ⟨hrest.trans hentries, ?_⟩
    intro i hi
    obtain ⟨hmid, hcrash⟩ := helected i hi
    obtain ⟨hwas, he⟩ := elected_step hsafe htaken hm hmid
    exact ⟨hwas, List.forall_mem_cons.mpr ⟨he, hcrash⟩⟩

/-- Once the first entry is there nobody is elected any more: who leads then has led all along, or its
`Ok` was on its way already. -/
theorem leads_no_more (hs : C.Starts s) (hreach : Reachable C.step s t) (htaken : C.entries t.store 1 ≠ none)
    (h : exec C.step t es = some u) : C.entries u.store = C.entries t.store ∧
    ∀ i, (u.nodes i).fsm.state = .leader →
      ((t.nodes i).fsm.state = .leader ∨ t.answers i = some (.ok ())) ∧ ∀ e ∈ es, e ≠ .crash i := by
  obtain ⟨hentries, helected⟩ := settled_exec (safe_of_reachable hs hreach) htaken h
  exact ⟨hentries, fun i hi => helected i (Or.inl hi)⟩

theorem leads_no_more_sample : ∃ u, exec samplePair.step samplePair.granted [.answered true, .crash true] = some u ∧
    samplePair.entries u.store = samplePair.entries sampleStore ∧ ∀ i, (u.nodes i).fsm.state ≠ .leader := by
  have htaken : samplePair.entries samplePair.granted.store 1 ≠ none := FlushRun.elected_sample.taken
  obtain ⟨u, hu⟩ : ∃ u, samplePair.step samplePair.elected (.crash true) = some u := ⟨_, rfl⟩
  have hexec : exec samplePair.step samplePair.granted [.answered true, .crash true] = some u := by
    rw [exec_cons, answered_sample, Option.bind_some, exec_cons, hu]
    rfl
  obtain ⟨hsame, hleaders⟩ := leads_no_more starts_sample reachable_granted htaken hexec
  refine ⟨u, hexec, hsame, ?_⟩
  intro i hi
  obtain ⟨hwas, hcrash⟩ := hleaders i hi
  cases i with
  | true => exact hcrash (.crash true) (by simp) rfl
  | false => rcases hwas with hled | hok <;> contradiction

def CanLead (C : Cluster ι) (s : ClusterState ι) (i : ι) : Prop :=
  ∃ es t, (∀ e ∈ es, ClusterEvent.undisturbed i e = true) ∧ exec C.step s es = some t ∧
    (t.nodes i).fsm.state = .leader

omit [DecidableEq ι] in
theorem attempt_fresh {f : FSM} (h : f.Placed (C.identity i) (C.log i)) (hf : f.state ≠ .leader) :
    f.attempt = (C.fresh i).fsm.attempt := by
  have hfresh : (C.fresh i).fsm.attemptTarget = (1, 1) := rfl
  have hidentity : (C.fresh i).fsm.nodeIdentity = C.identity i := rfl
  simp only [FSM.attempt, FSM.attemptEntry, h.attemptTarget hf, h.nodeIdentity, hfresh, hidentity]

theorem leads_of_ok (hsafe : C.Safe s) (hleader : (s.nodes i).fsm.state ≠ .leader)
    (hok : s.answers i = some (.ok ())) :
    ∃ t, C.step s (.answered i) = some t ∧ (t.nodes i).fsm.state = .leader := by
  refine ⟨_, by rw [step, hok]; rfl, ?_⟩
  dsimp only
  rw [Function.update_self]
  have hputting := hsafe.waiting i (by simp [hok])
  cases hstage : (s.nodes i).stage with
  | attempting backoff a as =>
    rw [Node.answered, hstage]
    rfl
  | flushing acc payload appending => exact absurd ((hsafe.sound i).state_of hstage rfl) hleader
  | _ => exact absurd (by simp only [Node.putting, hstage]) hputting

theorem leads_of_put (hsafe : C.Safe s) {backoff : BackoffCounter} {a : Attempt} {as : FSM.Attempting}
    (hstage : (s.nodes i).stage = .attempting backoff a as) (hanswers : s.answers i = none)
    (hfree : C.entries s.store 1 = none) :
    ∃ t, exec C.step s [.put i .served, .answered i] = some t ∧ (t.nodes i).fsm.state = .leader := by
  have hsound := hsafe.sound i
  have hstate : (s.nodes i).fsm.state = .notJoined := hsound.state_of hstage rfl
  obtain ⟨hindex, _⟩ := hsound.placed.attempt (by simp [hstate]) (hsound.attempting _ _ _ hstage)
  have hrequest : s.unanswered i = some (C.entryPath 1, a.payload) := by
    rw [ClusterState.unanswered_of_none hanswers]
    simp only [Node.request, Node.putting, hstage, hindex, Option.map_some, hsound.placed.s2cLog]
    rfl
  have habsent : C.entryPath 1 ∉ s.store := by
    rw [Std.ExtTreeMap.mem_iff_isSome_getElem?, show s.store[C.entryPath 1]? = none from hfree]
    simp
  obtain ⟨m, hm⟩ : ∃ m, C.step s (.put i .served) = some m := ⟨_, by rw [step, hrequest]; rfl⟩
  have hput := hm
  rw [step, hrequest, Option.map_some, Option.some.injEq] at hput
  obtain ⟨t, ht, hlead⟩ := leads_of_ok (i := i) (safe_step hsafe hm) (by simp [← hput, hstate])
    (by simp [← hput, ObjectStore.putOpts, habsent])
  exact ⟨t, by rw [exec_cons, hm, Option.bind_some, exec_cons, ht]; rfl, hlead⟩

theorem canLead_of_step (h : C.step s e = some t) (he : ClusterEvent.undisturbed i e = true) (ht : C.CanLead t i) :
    C.CanLead s i := by
  obtain ⟨es, u, hes, hexec, hlead⟩ := ht
  exact ⟨e :: es, u, List.forall_mem_cons.mpr ⟨he, hes⟩, by rw [exec_cons, h]; exact hexec, hlead⟩

theorem canLead_of_unanswered (hsafe : C.Safe s) (hanswers : s.answers i = none) (hended : (s.nodes i).stage ≠ .ended)
    (hstopped : (s.nodes i).fsm.state ≠ .stopped) (hleader : (s.nodes i).fsm.state ≠ .leader)
    (hattempt : (C.fresh i).fsm.attempt ≠ none) (hfree : C.entries s.store 1 = none) : C.CanLead s i := by
  have hown : ∀ f : FSM, f.Placed (C.identity i) (C.log i) → f.state ≠ .leader → f.attempt ≠ none := by
    intro f hf hstate hnone
    exact hattempt ((attempt_fresh hf hstate).symm.trans hnone)
  obtain ⟨inputs, n, backoff, a, as, hexec, hstage⟩ := Node.attempts (hsafe.sound i) hended hstopped hleader hown
  let view (n : Node) : ClusterState ι := { s with nodes := Function.update s.nodes i n }
  have hview : view (s.nodes i) = s := by
    simp only [view, Function.update_eq_self]
  have hrun : exec C.step s (inputs.map (.input i)) = some (view n) := by
    have hmap : exec C.step (view (s.nodes i)) (inputs.map (.input i)) =
        (exec Node.input (s.nodes i) inputs).map view := by
      apply exec_map view
      intro n input _
      simp [step, view]
    rw [hview, hexec] at hmap
    exact hmap
  have hsafe' : C.Safe (view n) := invariant (fun _ _ _ => safe_step) hsafe ⟨_, hrun⟩
  obtain ⟨t, ht, hlead⟩ := leads_of_put hsafe' (i := i) (by simpa [view] using hstage) hanswers hfree
  refine ⟨inputs.map (.input i) ++ [.put i .served, .answered i], t, ?_, ?_, hlead⟩
  · intro e he
    rcases List.mem_append.mp he with he | he
    · obtain ⟨input, _, rfl⟩ := List.mem_map.mp he
      simp [ClusterEvent.undisturbed]
    · rcases List.mem_pair.mp he with rfl | rfl <;> simp [ClusterEvent.undisturbed]
  · rw [exec_append, hrun]
    exact ht

theorem canLead_of_free (hsafe : C.Safe s) (hended : (s.nodes i).stage ≠ .ended)
    (hstopped : (s.received i).fsm.state ≠ .stopped) (hleader : (s.nodes i).fsm.state ≠ .leader)
    (hattempt : (C.fresh i).fsm.attempt ≠ none) (hfree : C.entries s.store 1 = none) : C.CanLead s i := by
  cases hanswer : s.answers i with
  | none =>
    rw [ClusterState.received, hanswer] at hstopped
    exact canLead_of_unanswered hsafe hanswer hended hstopped hleader hattempt hfree
  | some answer =>
    rw [ClusterState.received, hanswer] at hstopped
    obtain ⟨t, ht⟩ : ∃ t, C.step s (.answered i) = some t := ⟨_, by rw [step, hanswer]; rfl⟩
    have hanswered := ht
    rw [step, hanswer, Option.map_some, Option.some.injEq] at hanswered
    apply canLead_of_step ht (by simp [ClusterEvent.undisturbed])
    by_cases hlead : (t.nodes i).fsm.state = .leader
    · exact ⟨[], t, by simp, rfl, hlead⟩
    · apply canLead_of_unanswered (safe_step hsafe ht) (by simp [← hanswered]) _ _ hlead hattempt
      · simpa [← hanswered] using hfree
      · simpa [← hanswered] using Node.answered_stage hended answer
      · simpa [← hanswered] using hstopped

theorem canLead_iff (hs : C.Starts s) (hreach : Reachable C.step s t) (hended : (t.nodes i).stage ≠ .ended)
    (hstopped : (t.received i).fsm.state ≠ .stopped) (hleader : (t.nodes i).fsm.state ≠ .leader)
    (hattempt : (C.fresh i).fsm.attempt ≠ none) :
    C.CanLead t i ↔ C.entries t.store 1 = none ∨ t.answers i = some (.ok ()) := by
  have hsafe := safe_of_reachable hs hreach
  constructor
  · rintro ⟨es, u, _, hexec, hlead⟩
    by_contra hneither
    obtain ⟨htaken, hok⟩ := not_or.mp hneither
    rcases ((settled_exec hsafe htaken hexec).2 i (Or.inl hlead)).1 with hled | hheard
    · exact hleader hled
    · exact hok hheard
  · rintro (hfree | hok)
    · exact canLead_of_free hsafe hended hstopped hleader hattempt hfree
    · obtain ⟨u, hu, hlead⟩ := leads_of_ok hsafe hleader hok
      exact canLead_of_step hu (by simp [ClusterEvent.undisturbed]) ⟨[], u, by simp, rfl, hlead⟩

theorem canLead_iff_sample :
    samplePair.CanLead samplePair.granted true ∧ ¬samplePair.CanLead samplePair.granted false := by
  have hattempt (i : Bool) : (samplePair.fresh i).fsm.attempt ≠ none := by
    cases i <;> decide
  have htaken : samplePair.entries samplePair.granted.store 1 ≠ none := FlushRun.elected_sample.taken
  constructor
  · exact (canLead_iff starts_sample reachable_granted (by intro h; cases h) (by intro h; cases h)
      (by intro h; cases h) (hattempt true)).mpr (Or.inr rfl)
  · intro hcan
    rcases (canLead_iff starts_sample reachable_granted (by intro h; cases h) (by intro h; cases h)
      (by intro h; cases h) (hattempt false)).mp hcan with hfree | hok
    · exact htaken hfree
    · cases hok

end Cluster

end S2c
