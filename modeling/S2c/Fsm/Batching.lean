import S2c.Fsm.Accounting

namespace S2c

open Machine

theorem leaderTurn_receiving {f f' : FSM} {acc acc' : List StateRequest} {a : Arrivals}
    (h : f.leaderTurn acc a = .receiving f' acc') : acc'.length ≤ f.s2cOptions.batchMinCount.toNat := by
  unfold FSM.leaderTurn at h
  cases hdue : a.due.foldlM FSM.handleDue (f, acc) with
  | none =>
    rw [hdue] at h
    cases h
  | some s =>
    obtain ⟨g, taken⟩ := s
    obtain ⟨⟨followers, rfl⟩, _⟩ := FSM.foldlM_handleDue_some hdue
    rw [hdue] at h
    dsimp only at h
    split_ifs at h with hflush
    · cases hpayload : flushPayload taken with
      | none =>
        rw [hpayload] at h
        cases h
      | some payload =>
        rw [hpayload] at h
        cases h
    · cases h
      simp only [FSM.flushDue, decide_eq_true_eq] at hflush
      omega

structure BatchRun where
  run : LeaderRun
  handed : List (List StateRequest)

namespace BatchRun

def start (f : FSM) : BatchRun := ⟨LeaderRun.start f, []⟩

def handing (t : LeaderRun) : LeaderEvent → List (List StateRequest)
  | .turn _ =>
    match t.stage with
    | .appending acc _ => [acc]
    | _ => []
  | _ => []

def step (s : BatchRun) (e : LeaderEvent) : Option BatchRun :=
  (s.run.step e).map (fun run => ⟨run, s.handed ++ handing run e⟩)

/-- What the loop took is what it handed over, batch after batch, and then its accumulator. -/
def Batched (s : BatchRun) : Prop :=
  match s.run.stage with
  | .receiving acc => s.run.stored.Sublist s.handed ∧ s.handed.flatten ++ acc = s.run.taken ∧
      acc.length ≤ s.run.fsm.s2cOptions.batchMinCount.toNat
  | .appending acc payload => ∃ before, s.handed = before ++ [acc] ∧ s.run.stored.Sublist before ∧
      s.handed.flatten = s.run.taken ∧ flushPayload acc = some payload
  | .ended => s.run.stored.Sublist s.handed ∧ s.handed.flatten <+: s.run.taken

structure Kept (o : S2cOptions) (s : BatchRun) : Prop where
  batched : s.Batched
  options : s.run.fsm.s2cOptions = o

variable {s t : BatchRun} {e : LeaderEvent} {o : S2cOptions} {f : FSM}

theorem kept_turn {acc : List StateRequest} {a : Arrivals} {run : LeaderRun} (hs : s.Kept o)
    (hstage : s.run.stage = .receiving acc) (hrun : run = s.run.turned a (s.run.fsm.leaderTurn acc a)) :
    Kept o ⟨run, s.handed ++ handing run (.turn a)⟩ := by
  obtain ⟨hbatched, hoptions⟩ := hs
  rw [Batched, hstage] at hbatched
  obtain ⟨hstored, htaken, _⟩ := hbatched
  have hprefix : s.handed.flatten ++ (acc ++ a.requests) = s.run.taken ++ a.requests := by
    rw [← List.append_assoc, htaken]
  rcases s.run.fsm.leaderTurn_cases acc a with ⟨followers, hturn⟩ | ⟨followers, payload, hturn, hpayload⟩ | hturn
  · have hlength := leaderTurn_receiving hturn
    rw [hrun, hturn]
    refine ⟨?_, hoptions⟩
    simp only [Batched, LeaderRun.turned, handing, List.append_nil]
    exact ⟨hstored, hprefix, hlength⟩
  · rw [hrun, hturn]
    refine ⟨⟨s.handed, ?_⟩, hoptions⟩
    simp only [LeaderRun.turned, handing, List.flatten_append, List.flatten_singleton]
    exact ⟨trivial, hstored, hprefix, hpayload⟩
  · rw [hrun, hturn]
    refine ⟨?_, hoptions⟩
    simp only [Batched, LeaderRun.turned, handing, List.append_nil]
    exact ⟨hstored, acc ++ a.requests, hprefix⟩

theorem kept_step (hs : s.Kept o) (h : s.step e = some t) : t.Kept o := by
  obtain ⟨run, hrun, rfl⟩ := Option.map_eq_some_iff.mp h
  cases hstage : s.run.stage with
  | receiving acc =>
    cases e with
    | turn a =>
      simp only [LeaderRun.step, hstage, Option.some.injEq] at hrun
      exact kept_turn hs hstage hrun.symm
    | closed =>
      obtain ⟨hbatched, hoptions⟩ := hs
      rw [Batched, hstage] at hbatched
      obtain ⟨hstored, htaken, _⟩ := hbatched
      simp only [LeaderRun.step, hstage, Option.some.injEq] at hrun
      subst hrun
      refine ⟨?_, hoptions⟩
      simp only [Batched, handing, List.append_nil]
      exact ⟨hstored, acc, htaken⟩
    | appended re => simp [LeaderRun.step, hstage] at hrun
  | appending acc payload =>
    obtain ⟨hbatched, hoptions⟩ := hs
    rw [Batched, hstage] at hbatched
    obtain ⟨before, hhanded, hstored, htaken, _⟩ := hbatched
    cases e with
    | turn a => simp [LeaderRun.step, hstage] at hrun
    | closed => simp [LeaderRun.step, hstage] at hrun
    | appended re =>
      cases re with
      | ok _ =>
        simp only [LeaderRun.step, hstage, Option.some.injEq] at hrun
        subst hrun
        refine ⟨?_, hoptions⟩
        simp only [Batched, handing, List.append_nil, List.length_nil, Nat.zero_le, and_true]
        rw [hhanded]
        exact ⟨hstored.append (List.Sublist.refl [acc]), hhanded ▸ htaken⟩
      | error e =>
        simp only [LeaderRun.step, hstage, Option.some.injEq] at hrun
        subst hrun
        refine ⟨?_, hoptions⟩
        simp only [Batched, handing, List.append_nil, List.length_nil, Nat.zero_le, and_true]
        rw [hhanded]
        exact ⟨hstored.trans (List.sublist_append_left before [acc]), hhanded ▸ htaken⟩
  | ended => cases e <;> simp [LeaderRun.step, hstage] at hrun

theorem kept_start (f : FSM) : (start f).Kept f.s2cOptions := by
  refine ⟨?_, rfl⟩
  exact ⟨List.Sublist.refl _, rfl, Nat.zero_le _⟩

/-- The batches that are handed over, in their order, are the requests in the order in which they
were taken: each once, and between two turns no more than `batch_min_count` wait. -/
theorem batched_in_order (h : Reachable step (start f) s) :
    s.run.stored.Sublist s.handed ∧ s.handed.flatten <+: s.run.taken ∧
    (∀ acc, s.run.stage = .receiving acc → s.handed.flatten ++ acc = s.run.taken ∧
      acc.length ≤ f.s2cOptions.batchMinCount.toNat) ∧
    ∀ acc payload, s.run.stage = .appending acc payload → s.handed.flatten = s.run.taken ∧
      s.handed.getLast? = some acc ∧ flushPayload acc = some payload := by
  have hs : s.Kept f.s2cOptions := invariant (fun _ _ _ => kept_step) (kept_start f) h
  obtain ⟨hbatched, hoptions⟩ := hs
  cases hstage : s.run.stage with
  | receiving acc =>
    rw [Batched, hstage] at hbatched
    obtain ⟨hstored, htaken, hlength⟩ := hbatched
    refine ⟨hstored, ⟨acc, htaken⟩, ?_, by simp⟩
    rintro _ ⟨⟩
    exact ⟨htaken, hoptions ▸ hlength⟩
  | appending acc payload =>
    rw [Batched, hstage] at hbatched
    obtain ⟨before, hhanded, hstored, htaken, hpayload⟩ := hbatched
    refine ⟨hhanded ▸ hstored.trans (List.sublist_append_left before [acc]), htaken ▸ List.prefix_refl _,
      by simp, ?_⟩
    rintro _ _ ⟨⟩
    exact ⟨htaken, by rw [hhanded, List.getLast?_concat], hpayload⟩
  | ended =>
    rw [Batched, hstage] at hbatched
    exact ⟨hbatched.1, hbatched.2, by simp, by simp⟩

def laterRequest : StateRequest := ⟨[8, 9], 0, "g", false, false⟩

def laterArrivals : Arrivals where
  first := some ⟨⟨"c2", some (.stateRequest laterRequest), none⟩, ⟨"n3", "h3", 1, "a"⟩⟩
  locals := []
  remotes := []
  elapsedNanos := 2000000001

def twoFlushes : List LeaderEvent :=
  [.turn sampleArrivals, .appended (.error .alreadyExists), .turn laterArrivals, .appended (.ok ())]

theorem batched_in_order_sample : ∃ s, exec step (start sampleLeader) twoFlushes = some s ∧
    s.handed = [[sampleRequest], [laterRequest]] ∧ s.run.stored = [[laterRequest]] ∧
    s.run.stored.Sublist s.handed ∧ s.handed.flatten <+: s.run.taken := by
  have hruns : (exec step (start sampleLeader) twoFlushes).map (fun s => (s.handed, s.run.stored)) =
      some ([[sampleRequest], [laterRequest]], [[laterRequest]]) := by decide
  obtain ⟨s, hs, hboth⟩ := Option.map_eq_some_iff.mp hruns
  obtain ⟨hhanded, hstored⟩ := Prod.mk.inj hboth
  obtain ⟨hsublist, htaken, _⟩ := batched_in_order ⟨_, hs⟩
  exact ⟨s, hs, hhanded, hstored, hsublist, htaken⟩

end BatchRun

end S2c
