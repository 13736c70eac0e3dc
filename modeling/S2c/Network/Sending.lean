import S2c.Network.FirstFrame

namespace S2c

open Machine

structure SendingRun {κ : Type} (ident : κ → String) where
  client : S2cClient ident
  queued : List κ
  written : List κ

namespace SendingRun

variable {κ : Type} {ident : κ → String}

def start (ident : κ → String) (maxPendingReqs : ℕ) : SendingRun ident :=
  ⟨S2cClient.new ident maxPendingReqs, [], []⟩

structure InOrder (s : SendingRun ident) : Prop where
  receiver : s.client.calls.receiverClosed = false
  line : (s.written ++ (s.client.drainOut.taken ++ s.client.calls.queue)).Sublist s.queued
  once : s.queued.Nodup
  sent : ∀ k ∈ s.queued, s.client.calls.stages k ≠ .idle ∧ s.client.calls.stages k ≠ .sending

variable {s t : SendingRun ident} {client : S2cClient ident} {k : κ}

theorem inOrder_start (ident : κ → String) (maxPendingReqs : ℕ) : (start ident maxPendingReqs).InOrder :=
  ⟨rfl, List.Sublist.refl _, List.nodup_nil, by simp [start]⟩

theorem InOrder.keep (hs : s.InOrder) (hreceiver : client.calls.receiverClosed = s.client.calls.receiverClosed)
    (hqueue : client.calls.queue = s.client.calls.queue)
    (hstages : ∀ k ∈ s.queued, client.calls.stages k ≠ .idle ∧ client.calls.stages k ≠ .sending)
    (hout : client.drainOut = s.client.drainOut ∨ client.drainOut.taken = []) :
    InOrder { s with client := client } := by
  refine ⟨hreceiver.trans hs.receiver, ?_, hs.once, hstages⟩
  dsimp only
  rw [hqueue]
  rcases hout with hsame | htaken
  · rw [hsame]
    exact hs.line
  · rw [htaken]
    exact ((List.sublist_append_right _ _).append_left _).trans hs.line

variable [DecidableEq κ]

def record (s : SendingRun ident) (e : ClientEvent κ) (client : S2cClient ident) : SendingRun ident :=
  match e with
  | .call k .queued => { s with client := client, queued := s.queued ++ [k] }
  | .drainOut e => { s with client := client, written := s.written ++ FrameRun.begun e client }
  | _ => { s with client := client }

def step (s : SendingRun ident) (e : ClientEvent κ) : Option (SendingRun ident) :=
  (s.client.step e).map (s.record e)

omit [DecidableEq κ] in
theorem InOrder.calls (hs : s.InOrder) (hcalls : client.calls = s.client.calls)
    (hout : client.drainOut = s.client.drainOut ∨ client.drainOut.taken = []) :
    InOrder { s with client := client } := by
  apply hs.keep _ _ _ hout
  · rw [hcalls]
  · rw [hcalls]
  · rw [hcalls]
    exact hs.sent

theorem inOrder_queued (hs : s.InOrder) (hstage : s.client.calls.stages k = .sending) :
    InOrder { s with
      client := { s.client with
        calls := { s.client.calls.enter k .waiting with queue := s.client.calls.queue ++ [k] } }
      queued := s.queued ++ [k] } := by
  have hnew : k ∉ s.queued := by
    intro hk
    exact (hs.sent k hk).2 hstage
  refine ⟨hs.receiver, ?_, ?_, ?_⟩
  · simp only [← List.append_assoc]
    apply List.Sublist.append _ (List.Sublist.refl [k])
    rw [List.append_assoc]
    exact hs.line
  · rw [List.nodup_append]
    refine ⟨hs.once, by simp, ?_⟩
    rintro j hj _ hk rfl
    obtain rfl := List.mem_singleton.mp hk
    exact hnew hj
  · intro j hj
    by_cases hjk : j = k
    · subst hjk
      simp [Calls.enter]
    · have hold : j ∈ s.queued := by simpa [hjk] using hj
      simpa [Calls.enter, hjk] using hs.sent j hold

theorem inOrder_call {step : CallStep} (hs : s.InOrder) (h : s.client.step (.call k step) = some client) :
    (s.record (.call k step) client).InOrder := by
  simp only [S2cClient.step] at h
  split_ifs at h with hadmitted
  obtain ⟨calls, hcalls, rfl⟩ := Option.map_eq_some_iff.mp h
  have henter (stage : CallStage) (hidle : stage ≠ .idle) (hsending : stage = .sending → k ∉ s.queued) :
      ∀ j ∈ s.queued, (s.client.calls.enter k stage).stages j ≠ .idle ∧
        (s.client.calls.enter k stage).stages j ≠ .sending := by
    intro j hj
    by_cases hjk : j = k
    · subst hjk
      rw [Calls.stages_enter_self]
      exact ⟨hidle, fun h => hsending h hj⟩
    · rw [Calls.stages_enter_of_ne hjk]
      exact hs.sent j hj
  cases Calls.called hcalls with
  | unsent _ hclosed => cases hs.receiver.symm.trans hclosed
  | queued hstage => exact inOrder_queued hs hstage
  | added hstage =>
    have hnew : k ∉ s.queued := by
      intro hk
      exact (hs.sent k hk).1 hstage
    exact hs.keep rfl rfl (henter .sending (by simp) (fun _ => hnew)) (Or.inl rfl)
  | answered => exact hs.keep rfl rfl (henter _ (by simp) (by simp)) (Or.inl rfl)
  | discarded => exact hs.keep rfl rfl (henter _ (by simp) (by simp)) (Or.inl rfl)
  | failed hstage step' e =>
    cases step with
    | queued => simp [Calls.step, Calls.call, hstage] at hcalls
    | _ => exact hs.keep rfl rfl (henter _ (by simp) (by simp)) (Or.inl rfl)

theorem inOrder_drainOut {e : DrainOutEvent} (hs : s.InOrder) (h : s.client.outDrain e = some client) :
    (s.record (.drainOut e) client).InOrder := by
  have hsame : client.calls.receiverClosed = s.client.calls.receiverClosed ∧
      client.calls.stages = s.client.calls.stages := by
    cases S2cClient.outDrained h <;> exact ⟨rfl, rfl⟩
  refine ⟨hsame.1.trans hs.receiver, ?_, hs.once, ?_⟩
  · dsimp only [record]
    rw [List.append_assoc]
    rcases FrameRun.outDrain_line h with hline | ⟨hended, hbegun, hqueue⟩
    · rw [hline]
      exact hs.line
    · -- the frame in hand is lost
      rw [hbegun, hended, hqueue]
      exact ((List.sublist_append_right _ _).append_left _).trans hs.line
  · simp only [record, hsame.2]
    exact hs.sent

theorem inOrder_step {e : ClientEvent κ} (hs : s.InOrder) (h : s.step e = some t) : t.InOrder := by
  obtain ⟨client, hclient, rfl⟩ := Option.map_eq_some_iff.mp h
  cases e with
  | call k step => exact inOrder_call hs hclient
  | drainOut e => exact inOrder_drainOut hs hclient
  | connecting e =>
    cases S2cClient.stepped hclient with
    | connecting hlock hconnected =>
      rename_i n k stage re
      have hlocked : ∀ re : S2cClient ident × Connecting, (S2cClient.locked n k re).calls = re.1.calls ∧
          (S2cClient.locked n k re).drainOut = re.1.drainOut := by
        intro re
        unfold S2cClient.locked
        split <;> exact ⟨rfl, rfl⟩
      apply hs.calls
      · rw [(hlocked re).1]
        cases hconnected <;> rfl
      · rw [(hlocked re).2]
        cases hconnected with
        | connectedStored => exact Or.inr rfl
        | spawnedOut => exact Or.inr rfl
        | _ => exact Or.inl rfl
  | drainIn e =>
    cases S2cClient.stepped hclient with
    | drainIn hdrain => cases hdrain <;> exact hs.keep rfl rfl hs.sent (Or.inl rfl)
  | closing e =>
    cases S2cClient.stepped hclient with
    | closing hlock hclosing => cases hclosing <;> exact hs.calls rfl (Or.inl rfl)
  | _ => cases S2cClient.stepped hclient <;> exact hs.calls rfl (Or.inl rfl)

/-- Over all its connections a client begins no frame twice and none out of the order in which the
requests were put on its channel. -/
theorem sent_in_order {maxPendingReqs : ℕ} (h : Reachable step (start ident maxPendingReqs) s) :
    s.queued.Nodup ∧ (s.written ++ (s.client.drainOut.taken ++ s.client.calls.queue)).Sublist s.queued := by
  have hs : s.InOrder := invariant (fun _ _ _ => inOrder_step) (inOrder_start ident maxPendingReqs) h
  exact ⟨hs.once, hs.line⟩

theorem sent_in_order_sample : ∃ s, exec step (start id 2) FrameRun.writtenFirst = some s ∧
    s.queued = ["h", "b", "a"] ∧ s.written.Sublist s.queued := by
  cases hs : exec step (start id 2) FrameRun.writtenFirst with
  | none => cases hs
  | some s =>
    have hsent := (sent_in_order ⟨_, hs⟩).2
    cases hs
    exact ⟨_, rfl, rfl, hsent⟩

end SendingRun

end S2c
