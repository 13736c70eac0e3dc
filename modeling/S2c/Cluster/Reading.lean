import S2c.Cluster.Safety
import S2c.Fsm.Lookup

namespace S2c

open Wire Loop Machine

/-- A cluster whose nodes discover the leader by what the store answers them, request by request. -/
structure ReadingState (ι : Type) where
  cluster : ClusterState ι
  lookups : ι → Lookup

/-- The errors of a listing come before its objects, of which only the first is looked at; it gives
`given` of them before it ends. -/
inductive ReadingEvent (ι : Type) where
  | cluster (e : ClusterEvent ι)
  | listed (i : ι) (faults : List Error) (given : ℕ)
  | got (i : ι) (fate : ReadFate)

def ClusterEvent.discovers {ι : Type} : ClusterEvent ι → Bool
  | .input _ (.discovered _) => true
  | _ => false

structure Node.Apart (n : Node) : Prop where
  state : n.fsm.state ≠ .follower
  connecting : ∀ backoff leaderIdentity, n.stage ≠ .connecting backoff leaderIdentity
  following : ∀ backoff leaderIdentity, n.stage ≠ .following backoff leaderIdentity

namespace Node

variable {n n' : Node} {i : NodeInput} {identity : NodeIdentity} {log : S2cLog}

theorem apart_dispatch {f : FSM} (hf : f.state ≠ .follower) : (dispatch f).Apart := by
  unfold dispatch
  split
  · exact ⟨hf, by simp, by simp⟩
  · exact absurd ‹_› hf
  · exact ⟨hf, by simp, by simp⟩
  · exact ⟨hf, by simp, by simp⟩

theorem apart_discovered {f : FSM} (hf : f.state ≠ .follower) (backoff : BackoffCounter)
    {re : Option (Except Error (Option LeaderState))} (hre : ∀ leaderState, re ≠ some (.ok (some leaderState))) :
    (joins f (joinDiscovered backoff re)).Apart := by
  unfold joinDiscovered
  split
  · exact ⟨hf, by simp [joins], by simp [joins]⟩
  · exact absurd rfl (hre _)
  · simp only [joins]
    split <;> exact ⟨hf, by simp, by simp⟩
  · split_ifs <;> exact ⟨hf, by simp [joins], by simp [joins]⟩

theorem apart_input (hn : n.Sound identity log) (h : n.Apart)
    (hre : ∀ leaderState, i ≠ .discovered (some (.ok (some leaderState)))) (hi : n.input i = some n') : n'.Apart := by
  unfold input at hi
  split at hi <;> cases hi <;> rename_i hstage
  · exact apart_dispatch h.state
  · apply apart_discovered h.state
    rintro leaderState rfl
    exact hre leaderState rfl
  · exact absurd hstage (h.connecting _ _)
  · exact absurd hstage (h.following _ _)
  · exact absurd (hn.state_of hstage rfl) h.state
  · rename_i acc a
    rcases n.fsm.leaderTurn_cases acc a with ⟨followers, hturn⟩ | ⟨followers, payload, hturn, _⟩ | hturn <;>
      rw [hturn] <;> exact ⟨h.state, by simp [leads], by simp [leads]⟩
  · exact ⟨h.state, by simp, by simp⟩

theorem apart_answered (h : n.Apart) (answer : Except Error Unit) : (n.answered answer).Apart := by
  unfold answered
  split
  · split
    · exact ⟨h.state, by simp, by simp⟩
    · rename_i f hput
      have hf : f.state ≠ .follower := by
        rcases FSM.attemptPut_leave hput with ⟨_, rfl⟩ | ⟨_, rfl⟩ | rfl
        · simp
        · exact h.state
        · simp
      split_ifs <;> exact ⟨hf, by simp, by simp⟩
  · split <;> exact ⟨h.state, by simp, by simp⟩
  · exact h

end Node

namespace Cluster

variable {ι : Type} (C : Cluster ι)

def listPath : Path := C.encoding.path (KeysResolver.new C.group).logPrefix

def OnlyFirst (store : ObjectStore) : Prop :=
  ∀ p ∈ store, prefixMatch C.listPath p = true → p = C.entryPath 1

variable [DecidableEq ι]

def lookedUp (s : ReadingState ι) (i : ι) : FSM.LookupTurn → Option (ReadingState ι)
  | .again l => some { s with lookups := Function.update s.lookups i l }
  | .leave re => (C.step s.cluster (.input i (.discovered re))).map (fun cluster =>
      ⟨cluster, Function.update s.lookups i (C.fresh i).fsm.startLookup⟩)

def lookupsAfter (lookups : ι → Lookup) : ClusterEvent ι → ι → Lookup
  | .crash i => Function.update lookups i (C.fresh i).fsm.startLookup
  | _ => lookups

def readingStep (s : ReadingState ι) : ReadingEvent ι → Option (ReadingState ι)
  | .cluster e =>
    if e.discovers then none
    else (C.step s.cluster e).map (fun cluster => ⟨cluster, C.lookupsAfter s.lookups e⟩)
  | .listed i faults given =>
    match (s.cluster.nodes i).stage, s.lookups i with
    | .discovering _, .listing backoff =>
      let f := (s.cluster.nodes i).fsm
      C.lookedUp s i (f.listed backoff (faults.map .error ++ (f.s2cLog.listing s.cluster.store).take given))
    | _, _ => none
  | .got i fate =>
    match (s.cluster.nodes i).stage, s.lookups i with
    | .discovering _, .getting backoff head c =>
      let f := (s.cluster.nodes i).fsm
      C.lookedUp s i (FSM.got backoff head c (s.cluster.store.answer (f.s2cLog.entryPath head) fate))
    | _, _ => none

structure ReadingStarts (s : ReadingState ι) : Prop where
  cluster : C.Starts s.cluster
  unlisted : s.cluster.store.list C.listPath = []
  lookups : ∀ i, s.lookups i = (C.fresh i).fsm.startLookup

/-- Whoever reads the log asks for an entry that is not there, so nobody finds a leader. -/
structure Leaderless (s : ReadingState ι) : Prop where
  safe : C.Safe s.cluster
  onlyFirst : C.OnlyFirst s.cluster.store
  getting : ∀ i backoff head c, s.lookups i = .getting backoff head c → head = KeysResolver.invert 1
  apart : ∀ i, (s.cluster.nodes i).Apart

variable {C} {s t : ReadingState ι} {i : ι}

theorem lookedUp_reachable {turn : FSM.LookupTurn} (h : C.lookedUp s i turn = some t) :
    Reachable C.step s.cluster t.cluster := by
  cases turn with
  | again l =>
    cases h
    exact .refl _
  | leave re =>
    obtain ⟨cluster, hstep, rfl⟩ := Option.map_eq_some_iff.mp h
    exact .single hstep

theorem readingStep_reachable {e : ReadingEvent ι} (h : C.readingStep s e = some t) :
    Reachable C.step s.cluster t.cluster := by
  unfold readingStep at h
  split at h
  · split_ifs at h
    obtain ⟨cluster, hstep, rfl⟩ := Option.map_eq_some_iff.mp h
    exact .single hstep
  · split at h
    · exact lookedUp_reachable h
    · cases h
  · split at h
    · exact lookedUp_reachable h
    · cases h

theorem reachable_of_reading (h : Reachable C.readingStep s t) : Reachable C.step s.cluster t.cluster :=
  reachable_view ReadingState.cluster (fun _ _ _ => readingStep_reachable) h

omit [DecidableEq ι] in
theorem OnlyFirst.putOpts {store : ObjectStore} (h : C.OnlyFirst store) {request : Path × Bytes}
    (hrequest : C.Harmless store request) (fate : Fate) :
    C.OnlyFirst (store.putOpts request.1 request.2 fate).1 := by
  intro p hp hlisted
  rcases Groups.mem_putOpts hp with hp | rfl
  · exact h p hp hlisted
  · exact hrequest.1

theorem OnlyFirst.step {s t : ClusterState ι} {e : ClusterEvent ι} (h : C.OnlyFirst s.store) (hsafe : C.Safe s)
    (hstep : C.step s e = some t) : C.OnlyFirst t.store := by
  cases e with
  | input i input =>
    obtain ⟨n, _, rfl⟩ := Option.map_eq_some_iff.mp hstep
    exact h
  | put i fate =>
    obtain ⟨request, hunanswered, rfl⟩ := Option.map_eq_some_iff.mp hstep
    exact h.putOpts (hsafe.harmless (ClusterState.request_of_unanswered hunanswered).2) fate
  | lost i store source =>
    obtain ⟨_, _, rfl⟩ := Option.map_eq_some_iff.mp hstep
    exact h
  | answered i =>
    obtain ⟨_, _, rfl⟩ := Option.map_eq_some_iff.mp hstep
    exact h
  | crash i =>
    cases hstep
    exact h
  | land request =>
    simp only [Cluster.step] at hstep
    split_ifs at hstep with hmem
    cases hstep
    exact h.putOpts (hsafe.adrift request hmem) .served

omit [DecidableEq ι] in
theorem apart_fresh (i : ι) : (C.fresh i).Apart := by
  constructor <;> simp [fresh, FSM.new]

theorem apart_update {nodes : ι → Node} {n : Node} (h : ∀ i, (nodes i).Apart) (hn : n.Apart) (i j : ι) :
    (Function.update nodes i n j).Apart := by
  by_cases hj : j = i
  · subst hj
    simpa using hn
  · simpa [hj] using h j

theorem apart_step {s t : ClusterState ι} {e : ClusterEvent ι} (hsafe : C.Safe s) (h : ∀ i, (s.nodes i).Apart)
    (he : ∀ i leaderState, e ≠ .input i (.discovered (some (.ok (some leaderState)))))
    (hstep : C.step s e = some t) : ∀ i, (t.nodes i).Apart := by
  cases e with
  | input i input =>
    obtain ⟨n, hn, rfl⟩ := Option.map_eq_some_iff.mp hstep
    apply apart_update h
    apply Node.apart_input (hsafe.sound i) (h i) _ hn
    rintro leaderState rfl
    exact he i leaderState rfl
  | put i fate =>
    obtain ⟨_, _, rfl⟩ := Option.map_eq_some_iff.mp hstep
    exact h
  | lost i store source =>
    obtain ⟨_, _, rfl⟩ := Option.map_eq_some_iff.mp hstep
    exact h
  | answered i =>
    obtain ⟨answer, _, rfl⟩ := Option.map_eq_some_iff.mp hstep
    exact apart_update h (Node.apart_answered (h i) answer) i
  | crash i =>
    cases hstep
    exact apart_update h (apart_fresh i) i
  | land request =>
    simp only [Cluster.step] at hstep
    split_ifs at hstep
    cases hstep
    exact h

omit [DecidableEq ι] in
theorem path_log (i : ι) : (C.log i).encoding.path (C.log i).keyResolver.logPrefix = C.listPath := rfl

omit [DecidableEq ι] in
theorem head_of_listing (h : C.Leaderless s) {faults : List Error} {given : ℕ} {head : UInt64}
    (hhead : (C.log i).getHead (faults.map .error ++ ((C.log i).listing s.cluster.store).take given) =
      some (.ok (some head))) : head = KeysResolver.invert 1 := by
  obtain ⟨location, hmem, hparse⟩ := FSM.getHead_location hhead
  have hlisting : .ok location ∈ (C.log i).listing s.cluster.store := by
    rcases List.mem_append.mp hmem with hfault | hlisting
    · obtain ⟨_, _, heq⟩ := List.mem_map.mp hfault
      cases heq
    · exact List.mem_of_mem_take hlisting
  obtain ⟨found, hfound, heq⟩ := List.mem_map.mp hlisting
  cases heq
  have hstored := Std.ExtTreeMap.mem_keys.mp (List.mem_filter.mp hfound).1
  have hprefix := Groups.mem_listing hlisting
  rw [path_log] at hprefix
  have hfirst : location = (C.log i).entryPath 1 := h.onlyFirst location hstored hprefix
  rw [hfirst, S2cLog.filename_entryPath, Option.bind_some, parseU64_numeral] at hparse
  exact (Option.some.inj hparse).symm

omit [DecidableEq ι] in
theorem get_invert (h : C.Leaderless s) (fate : ReadFate) (bytes : Bytes) :
    s.cluster.store.answer ((C.log i).entryPath (KeysResolver.invert 1)) fate ≠ .ok (.ok bytes) := by
  have habsent : s.cluster.store[(C.log i).entryPath (KeysResolver.invert 1)]? = none := by
    cases hentry : s.cluster.store[(C.log i).entryPath (KeysResolver.invert 1)]? with
    | none => rfl
    | some payload =>
      obtain ⟨hone, _⟩ := h.safe.entry (KeysResolver.invert 1) payload hentry
      exact absurd hone (by decide)
  cases fate <;> simp [ObjectStore.answer, ObjectStore.get, habsent, Except.map]

theorem Leaderless.lookedUp (h : C.Leaderless s) {turn : FSM.LookupTurn}
    (hagain : ∀ backoff head c, turn = .again (.getting backoff head c) → head = KeysResolver.invert 1)
    (hleave : ∀ leaderState, turn ≠ .leave (some (.ok (some leaderState))))
    (hstep : C.lookedUp s i turn = some t) : C.Leaderless t := by
  cases turn with
  | again l =>
    cases hstep
    refine ⟨h.safe, h.onlyFirst, ?_, h.apart⟩
    intro j backoff head c hj
    by_cases hij : j = i
    · subst hij
      simp only [Function.update_self] at hj
      exact hagain backoff head c (congrArg Turn.again hj)
    · simp only [Function.update_of_ne hij] at hj
      exact h.getting j backoff head c hj
  | leave re =>
    obtain ⟨cluster, hcluster, rfl⟩ := Option.map_eq_some_iff.mp hstep
    refine ⟨safe_step h.safe hcluster, h.onlyFirst.step h.safe hcluster, ?_, apart_step h.safe h.apart ?_ hcluster⟩
    · intro j backoff head c hj
      by_cases hij : j = i
      · subst hij
        simp only [Function.update_self] at hj
        cases hj
      · simp only [Function.update_of_ne hij] at hj
        exact h.getting j backoff head c hj
    · intro j leaderState heq
      cases heq
      exact hleave leaderState rfl

theorem leaderless_step {e : ReadingEvent ι} (h : C.Leaderless s) (hstep : C.readingStep s e = some t) :
    C.Leaderless t := by
  unfold readingStep at hstep
  split at hstep
  · rename_i e
    split_ifs at hstep with hdiscovers
    obtain ⟨cluster, hcluster, rfl⟩ := Option.map_eq_some_iff.mp hstep
    refine ⟨safe_step h.safe hcluster, h.onlyFirst.step h.safe hcluster, ?_, apart_step h.safe h.apart ?_ hcluster⟩
    · intro j backoff head c hj
      unfold lookupsAfter at hj
      split at hj
      · rename_i i
        by_cases hij : j = i
        · subst hij
          simp only [Function.update_self] at hj
          cases hj
        · simp only [Function.update_of_ne hij] at hj
          exact h.getting j backoff head c hj
      · exact h.getting j backoff head c hj
    · rintro j leaderState rfl
      exact hdiscovers rfl
  · rename_i i faults given
    split at hstep
    · have hlog : (s.cluster.nodes i).fsm.s2cLog = C.log i := (h.safe.sound i).placed.s2cLog
      apply h.lookedUp _ _ hstep
      · intro backoff head c hagain
        rcases FSM.listed_again hagain with ⟨_, heq⟩ | ⟨_, _, _, heq, hhead⟩
        · cases heq
        · cases heq
          rw [hlog] at hhead
          exact head_of_listing h hhead
      · intro leaderState
        exact FSM.listed_leave
    · cases hstep
  · rename_i i fate
    split at hstep
    · rename_i stage backoff head c hstage hlookup
      have hlog : (s.cluster.nodes i).fsm.s2cLog = C.log i := (h.safe.sound i).placed.s2cLog
      obtain rfl := h.getting i backoff head c hlookup
      apply h.lookedUp _ _ hstep
      · intro backoff' head' c' hagain
        rcases FSM.got_again hagain with ⟨_, heq⟩ | ⟨_, heq⟩
        · cases heq
        · cases heq
          rfl
      · intro leaderState hleave
        obtain ⟨bytes, hbytes⟩ := FSM.got_leave hleave
        rw [hlog] at hbytes
        exact get_invert h fate bytes hbytes
    · cases hstep

omit [DecidableEq ι] in
theorem leaderless_starts (hs : C.ReadingStarts s) : C.Leaderless s := by
  refine ⟨safe_starts hs.cluster, ?_, ?_, ?_⟩
  · intro p hp hlisted
    have hmem : p ∈ s.cluster.store.list C.listPath :=
      List.mem_filter.mpr ⟨Std.ExtTreeMap.mem_keys.mpr hp, hlisted⟩
    rw [hs.unlisted] at hmem
    cases hmem
  · intro i backoff head c hi
    rw [hs.lookups i] at hi
    cases hi
  · intro i
    rw [hs.cluster.1 i]
    exact apart_fresh i

/-- The first leader of an empty log is never followed: no node gets as far as connecting to it. -/
theorem never_followed (hs : C.ReadingStarts s) (h : Reachable C.readingStep s t) :
    (∀ i, (t.cluster.nodes i).Apart) ∧
    ∀ i j, (t.cluster.nodes i).fsm.state = .leader → (t.cluster.nodes j).fsm.state = .leader → i = j := by
  have hleaderless : C.Leaderless t := invariant (fun _ _ _ => leaderless_step) (leaderless_starts hs) h
  refine ⟨hleaderless.apart, ?_⟩
  intro i j
  exact hleaderless.safe.unique

end Cluster

def samplePair.reading (cluster : ClusterState Bool) : ReadingState Bool :=
  ⟨cluster, fun i => (samplePair.fresh i).fsm.startLookup⟩

namespace Cluster

theorem readingStarts_sample : samplePair.ReadingStarts (samplePair.reading samplePair.start) :=
  ⟨starts_sample, sampleLog.unlisted_empty, fun _ => rfl⟩

theorem reading_sample : Reachable samplePair.readingStep (samplePair.reading samplePair.start)
    (samplePair.reading samplePair.elected) := by
  let backoff := BackoffCounter.new S2cRetryOptions.default
  let discovering : ClusterState Bool :=
    ⟨Function.update samplePair.fresh true ⟨sampleNode, .discovering backoff⟩, ∅, fun _ => none, []⟩
  have hattempt : sampleNode.attempt = some sampleAttempt := by decide
  have hempty : sampleNode.listed backoff ((sampleLog.listing ∅).take 1) = .leave (some (.ok none)) := by
    rw [FSM.listed, S2cLog.listing, sampleLog.unlisted_empty]
    rfl
  have hdiscovered : samplePair.step discovering (.input true (.discovered (some (.ok none)))) =
      some samplePair.attempting := by
    simp [step, discovering, samplePair.attempting, backoff, Node.input, joinDiscovered, Node.joins, hattempt]
  have hstarted : samplePair.readingStep (samplePair.reading samplePair.start) (.cluster (.input true .started)) =
      some (samplePair.reading discovering) := rfl
  have hlisted : samplePair.readingStep (samplePair.reading discovering) (.listed true [] 1) =
      some (samplePair.reading samplePair.attempting) := by
    have hlook : samplePair.readingStep (samplePair.reading discovering) (.listed true [] 1) =
        samplePair.lookedUp (samplePair.reading discovering) true
          (sampleNode.listed backoff ((sampleLog.listing ∅).take 1)) := rfl
    rw [hlook, hempty, lookedUp]
    simp only [samplePair.reading, hdiscovered, Option.map_some, Function.update_eq_self_iff.mpr]
  have hcluster {s t : ClusterState Bool} {e : ClusterEvent Bool} (he : e = .put true .served ∨ e = .answered true)
      (h : samplePair.step s e = some t) :
      samplePair.readingStep (samplePair.reading s) (.cluster e) = some (samplePair.reading t) := by
    have hstep : samplePair.readingStep (samplePair.reading s) (.cluster e) =
        (samplePair.step s e).map samplePair.reading := by
      rcases he with rfl | rfl <;> rfl
    rw [hstep, h, Option.map_some]
  have hput := Reachable.single (hcluster (.inl rfl) put_sample)
  have hanswered := Reachable.single (hcluster (.inr rfl) answered_sample)
  exact (Reachable.single hstarted).trans ((Reachable.single hlisted).trans (hput.trans hanswered))

theorem never_followed_sample : (samplePair.elected.nodes false).Apart :=
  (never_followed readingStarts_sample reading_sample).1 false

end Cluster

end S2c
