import S2c.Fsm.Leader
import S2c.Fsm.Leadership
import S2c.Machine

namespace S2c

open Wire Machine

inductive LeaderStage where
  | receiving (acc : List StateRequest)
  | appending (acc : List StateRequest) (payload : Bytes)
  | ended

/-- A run of `leader_loop`, with the requests it took from its channels so far and those of each
batch whose append returned `Ok`. -/
structure LeaderRun where
  fsm : FSM
  stage : LeaderStage
  taken : List StateRequest
  stored : List (List StateRequest)

inductive LeaderEvent where
  | turn (a : Arrivals)
  | closed
  | appended (re : Except Error Unit)

def S2cMessageEnvelope.NamesFollower (msg : S2cMessageEnvelope) : Prop :=
  ∀ follow, msg.s2cMessage.body = some (.follow follow) → follow.nodeIdentity ≠ none

namespace LeaderRun

def start (f : FSM) : LeaderRun := ⟨f, .receiving [], [], []⟩

def pending (s : LeaderRun) : List StateRequest :=
  match s.stage with
  | .receiving acc => acc
  | .appending acc _ => acc
  | .ended => []

def turned (s : LeaderRun) (a : Arrivals) : LeaderTurn → LeaderRun
  | .receiving f acc => { s with fsm := f, stage := .receiving acc, taken := s.taken ++ a.requests }
  | .appending f acc payload =>
    { s with fsm := f, stage := .appending acc payload, taken := s.taken ++ a.requests }
  | .panicked => { s with stage := .ended, taken := s.taken ++ a.requests }

def step (s : LeaderRun) (e : LeaderEvent) : Option LeaderRun :=
  match s.stage, e with
  | .receiving acc, .turn a => some (s.turned a (s.fsm.leaderTurn acc a))
  | .receiving _, .closed => some { s with stage := .ended }
  | .appending acc _, .appended (.ok _) =>
    some { s with stage := .receiving [], stored := s.stored ++ [acc] }
  -- `acc.clear()` runs whatever the append returned
  | .appending _ _, .appended (.error _) => some { s with stage := .receiving [] }
  | _, _ => none

def NoneLost (s : LeaderRun) : Prop :=
  ∀ r, s.taken.count r ≤ s.pending.count r + s.stored.flatten.count r

def Kept (s : LeaderRun) : LeaderEvent → Prop
  | .turn a => s.pending ++ a.requests = [] ∨ ((∀ msg ∈ a.due, msg.NamesFollower) ∧
      (s.fsm.flushDue (s.pending ++ a.requests) a.elapsedNanos = true →
        flushPayload (s.pending ++ a.requests) ≠ none))
  | .closed => s.pending = []
  | .appended re => s.pending = [] ∨ re = .ok ()

def Genuine (s : LeaderRun) : Prop :=
  ∀ r, s.pending.count r + s.stored.flatten.count r ≤ s.taken.count r

end LeaderRun

theorem foldlM_handleDue_isSome (f : FSM) (acc : List StateRequest) (due : List S2cMessageEnvelope) :
    (due.foldlM FSM.handleDue (f, acc)).isSome ↔ ∀ msg ∈ due, msg.NamesFollower := by
  induction due generalizing f acc with
  | nil => simp
  | cons msg due ih =>
    have hmsg : FSM.handleDue (f, acc) msg ≠ none ↔ msg.NamesFollower := by
      unfold FSM.handleDue S2cMessageEnvelope.NamesFollower
      split
      · rename_i hbody
        simp [hbody]
      · rename_i hbody
        simp [hbody]
      · rename_i hfollow hbody
        simp only [hbody, ne_eq, reduceCtorEq, not_false_eq_true, true_iff]
        intro follow h
        exact absurd (Option.some.inj h) (hfollow follow)
      · rename_i hbody
        simp [hbody]
    rw [List.foldlM_cons, List.forall_mem_cons, ← hmsg]
    cases hs : FSM.handleDue (f, acc) msg with
    | none => simp
    | some s => simpa using ih s.1 s.2

theorem leaderTurn_panicked_iff (f : FSM) (acc : List StateRequest) (a : Arrivals) :
    f.leaderTurn acc a ≠ .panicked ↔ (∀ msg ∈ a.due, msg.NamesFollower) ∧
      (f.flushDue (acc ++ a.requests) a.elapsedNanos = true → flushPayload (acc ++ a.requests) ≠ none) := by
  rw [← foldlM_handleDue_isSome f acc]
  unfold FSM.leaderTurn
  cases hdue : a.due.foldlM FSM.handleDue (f, acc) with
  | none => simp
  | some s =>
    obtain ⟨f', acc'⟩ := s
    obtain ⟨⟨followers, rfl⟩, rfl⟩ := FSM.foldlM_handleDue_some hdue
    have hrequests : a.due.filterMap S2cMessageEnvelope.stateRequest = a.requests := rfl
    have hsame : FSM.flushDue { f with followers := followers } = f.flushDue := rfl
    dsimp only
    rw [hrequests, hsame]
    by_cases hflush : f.flushDue (acc ++ a.requests) a.elapsedNanos = true
    · cases flushPayload (acc ++ a.requests) <;> simp [hflush]
    · simp [hflush]

namespace LeaderRun

variable {s t : LeaderRun} {e : LeaderEvent}

theorem step_receiving {acc : List StateRequest} {a : Arrivals} (hs : s.stage = .receiving acc)
    (h : s.step (.turn a) = some t) : t.taken = s.taken ++ a.requests ∧ t.stored = s.stored ∧
      (s.fsm.leaderTurn acc a ≠ .panicked → t.pending = s.pending ++ a.requests) ∧
      (s.fsm.leaderTurn acc a = .panicked → t.pending = []) := by
  simp only [step, hs, Option.some.injEq] at h
  subst h
  rcases s.fsm.leaderTurn_cases acc a with ⟨followers, hturn⟩ | ⟨followers, payload, hturn, _⟩ | hturn <;>
    simp [turned, hturn, pending, hs]

theorem step_cases (h : s.step e = some t) :
    (∃ a, e = .turn a ∧ t.taken = s.taken ++ a.requests ∧ t.stored = s.stored ∧
      ((s.fsm.leaderTurn s.pending a ≠ .panicked ∧ t.pending = s.pending ++ a.requests) ∨
        (s.fsm.leaderTurn s.pending a = .panicked ∧ t.pending = []))) ∨
    (e = .closed ∧ t.taken = s.taken ∧ t.stored = s.stored ∧ t.pending = []) ∨
    ∃ re, e = .appended re ∧ t.taken = s.taken ∧ t.pending = [] ∧
      t.stored = if re = .ok () then s.stored ++ [s.pending] else s.stored := by
  cases hs : s.stage with
  | receiving acc =>
    cases e with
    | turn a =>
      have hpending : s.pending = acc := by simp [pending, hs]
      obtain ⟨htaken, hstored, hkept, hpanic⟩ := step_receiving hs h
      refine Or.inl ⟨a, rfl, htaken, hstored, ?_⟩
      rw [hpending] at hkept ⊢
      by_cases hturn : s.fsm.leaderTurn acc a = .panicked
      · exact Or.inr ⟨hturn, hpanic hturn⟩
      · exact Or.inl ⟨hturn, hkept hturn⟩
    | closed =>
      simp only [step, hs, Option.some.injEq] at h
      subst h
      exact Or.inr (Or.inl ⟨rfl, rfl, rfl, rfl⟩)
    | appended re => simp [step, hs] at h
  | appending acc payload =>
    cases e with
    | turn a => simp [step, hs] at h
    | closed => simp [step, hs] at h
    | appended re =>
      refine Or.inr (Or.inr ⟨re, rfl, ?_⟩)
      cases re <;> simp only [step, hs, Option.some.injEq] at h <;> subst h <;> simp [pending, hs]
  | ended => cases e <;> simp [step, hs] at h

theorem genuine_step (hs : s.Genuine) (h : s.step e = some t) : t.Genuine := by
  intro r
  have hr := hs r
  rcases step_cases h with ⟨a, rfl, htaken, hstored, ⟨_, hpending⟩ | ⟨_, hpending⟩⟩ |
    ⟨rfl, htaken, hstored, hpending⟩ | ⟨re, rfl, htaken, hpending, hstored⟩
  · rw [htaken, hstored, hpending, List.count_append, List.count_append]
    omega
  · rw [htaken, hstored, hpending, List.count_append, List.count_nil]
    omega
  · rw [htaken, hstored, hpending, List.count_nil]
    omega
  · rw [htaken, hstored, hpending, List.count_nil]
    split_ifs
    · rw [List.flatten_append, List.count_append, List.flatten_singleton]
      omega
    · omega

theorem count_le_iff (rs : List StateRequest) (kept : StateRequest → ℕ) :
    (∀ r, rs.count r + kept r ≤ kept r) ↔ rs = [] := by
  rw [List.eq_nil_iff_forall_not_mem]
  apply forall_congr'
  intro r
  rw [← List.count_eq_zero]
  omega

theorem noneLost_step (hgenuine : s.Genuine) (hs : s.NoneLost) (h : s.step e = some t) :
    t.NoneLost ↔ s.Kept e := by
  have hexact : ∀ r, s.taken.count r = s.pending.count r + s.stored.flatten.count r :=
    fun r => Nat.le_antisymm (hs r) (hgenuine r)
  unfold NoneLost
  rcases step_cases h with ⟨a, rfl, htaken, hstored, ⟨hturn, hpending⟩ | ⟨hturn, hpending⟩⟩ |
    ⟨rfl, htaken, hstored, hpending⟩ | ⟨re, rfl, htaken, hpending, hstored⟩ <;>
    rw [htaken, hstored, hpending]
  · have hkept : s.Kept (.turn a) := Or.inr ((leaderTurn_panicked_iff _ _ _).mp hturn)
    simp only [hkept, iff_true, List.count_append, hexact]
    intro r
    omega
  · have hkept : s.Kept (.turn a) ↔ s.pending ++ a.requests = [] := by
      rw [Kept, ← leaderTurn_panicked_iff]
      simp [hturn]
    rw [hkept, ← count_le_iff _ s.stored.flatten.count]
    apply forall_congr'
    intro r
    rw [List.count_append, List.count_append, List.count_nil, hexact]
    omega
  · change _ ↔ s.pending = []
    rw [← count_le_iff _ s.stored.flatten.count]
    apply forall_congr'
    intro r
    rw [List.count_nil, hexact]
    omega
  · by_cases hok : re = .ok ()
    · simp only [hok, Kept, if_true, or_true, iff_true]
      intro r
      rw [hexact, List.flatten_append, List.count_append, List.flatten_singleton, List.count_nil]
      omega
    · simp only [hok, Kept, if_false, or_false]
      rw [← count_le_iff _ s.stored.flatten.count]
      apply forall_congr'
      intro r
      rw [List.count_nil, hexact]
      omega

theorem noneLost_along_run (f : FSM) (es : List LeaderEvent) :
    Always step NoneLost (start f) es ↔ Along step Kept (start f) es := by
  apply always_iff_along (J := Genuine)
  · intro s e t hs _
    exact genuine_step hs
  · intro s e t
    exact noneLost_step
  · intro r
    exact Nat.le_refl _
  · intro r
    exact Nat.le_refl _

theorem noneLost_fails : ¬Always step NoneLost
    (start sampleLeader)
    [.turn sampleArrivals, .appended (.error .alreadyExists)] := by
  intro h
  have hlost := h _ (List.prefix_refl _) _ rfl sampleRequest
  revert hlost
  decide

end LeaderRun

end S2c
