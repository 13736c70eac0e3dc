import S2c.Network.Reconnect

namespace S2c

open Machine

namespace DrainOut

variable {κ : Type}

def taken : DrainOut κ → List κ
  | .handling k => [k]
  | _ => []

def written : DrainOut κ → List κ
  | .writing k => [k]
  | _ => []

end DrainOut

def ConnectStage.ahead : ConnectStage → Bool
  | .waiting => true
  | .opening => true
  | .storingConnected => true
  | .spawningIn => true
  | .spawningOut => true
  | _ => false

structure FrameRun {κ : Type} (ident : κ → String) where
  client : S2cClient ident
  opened : ℕ
  handshake : Option κ
  frames : List κ
  queuedIn : κ → Option ℕ

namespace FrameRun

variable {κ : Type} {ident : κ → String}

def start (ident : κ → String) (maxPendingReqs : ℕ) : FrameRun ident :=
  ⟨S2cClient.new ident maxPendingReqs, 0, none, [], fun _ => none⟩

structure FirstFrame (s : FrameRun ident) : Prop where
  handshake : ∀ k, s.frames.head? = some k → s.handshake = some k
  own : ∀ k ∈ s.frames, s.queuedIn k = some s.opened

def Greeted (s : FrameRun ident) : Prop := ∃ k, s.handshake = some k ∧ s.queuedIn k = some s.opened

/-- A connection is opened on an empty channel, and its handshake is queued before anything else. -/
def Orderly (s : FrameRun ident) : ClientEvent κ → Prop
  | .connecting (.opened (.ok _)) => s.client.calls.queue = []
  | .call k .queued => ¬s.Greeted → s.handshake = some k
  | _ => True

variable [DecidableEq κ]

def record (s : FrameRun ident) (e : ClientEvent κ) (client : S2cClient ident) : FrameRun ident :=
  match e, s.client.rwLock with
  | .connecting (.opened (.ok _)), .connect _ k _ =>
    { s with client := client, opened := s.opened + 1, handshake := some k, frames := [] }
  | .call k .queued, _ =>
    { s with client := client, queuedIn := Function.update s.queuedIn k (some s.opened) }
  | .drainOut .handled, _ => { s with client := client, frames := s.frames ++ client.drainOut.written }
  | _, _ => { s with client := client }

def step (s : FrameRun ident) (e : ClientEvent κ) : Option (FrameRun ident) :=
  (s.client.step e).map (s.record e)

omit [DecidableEq κ] in
def line (s : FrameRun ident) : List κ := s.frames ++ (s.client.drainOut.taken ++ s.client.calls.queue)

structure Greeting (s : FrameRun ident) : Prop where
  silent : ¬s.Greeted → s.line = []
  first : s.Greeted → s.client.drainOut ≠ .ended → s.line.head? = s.handshake
  frames : ∀ k, s.frames.head? = some k → s.handshake = some k
  own : ∀ k ∈ s.line, s.queuedIn k = some s.opened
  admitted : ∀ k, s.queuedIn k ≠ none → s.client.admitted k = true
  ahead : ∀ n k stage, s.client.rwLock = .connect n k stage → stage.ahead = true → s.client.admitted k = false
  greets : ∀ n k stage, s.client.rwLock = .connect n k stage → stage.ahead = true → stage.opened = true →
    s.handshake = some k
  receiver : s.client.calls.receiverClosed = false

variable {s t : FrameRun ident} {client : S2cClient ident} {k : κ}

omit [DecidableEq κ] in
theorem greeting_start (ident : κ → String) (maxPendingReqs : ℕ) : (start ident maxPendingReqs).Greeting := by
  constructor
  · intro _
    rfl
  · rintro ⟨k, hk, _⟩
    cases hk
  · intro k hk
    cases hk
  · intro k hk
    cases hk
  · intro k hk
    exact absurd rfl hk
  · intro n k stage hlock
    cases hlock
  · intro n k stage hlock
    cases hlock
  · rfl

omit [DecidableEq κ] in
theorem Greeting.keep (hs : s.Greeting) (hqueue : client.calls.queue = s.client.calls.queue)
    (hreceiver : client.calls.receiverClosed = s.client.calls.receiverClosed)
    (hadmitted : ∀ j, s.client.admitted j = true → client.admitted j = true)
    (hlock : ∀ n j stage, client.rwLock = .connect n j stage → stage.ahead = true →
      client.admitted j = false ∧ (stage.opened = true → s.handshake = some j))
    (hout : client.drainOut = s.client.drainOut ∨ (¬s.Greeted ∧ client.drainOut.taken = [])) :
    Greeting { s with client := client } := by
  have hline : line { s with client := client } = s.line := by
    rcases hout with hout | ⟨hgreeted, htaken⟩
    · simp only [line, hout, hqueue]
    · have hsilent := hs.silent hgreeted
      simp only [line, List.append_eq_nil_iff] at hsilent ⊢
      rw [hsilent.1, hsilent.2.1, hsilent.2.2, htaken, hqueue, hsilent.2.2]
  constructor
  · rw [hline]
    exact hs.silent
  · rw [hline]
    intro hgreeted hended
    rcases hout with hout | ⟨hnot, _⟩
    · exact hs.first hgreeted (hout ▸ hended)
    · exact absurd hgreeted hnot
  · exact hs.frames
  · rw [hline]
    exact hs.own
  · exact fun j hj => hadmitted j (hs.admitted j hj)
  · exact fun n j stage hl hstage => (hlock n j stage hl hstage).1
  · exact fun n j stage hl hstage => (hlock n j stage hl hstage).2
  · exact hreceiver.trans hs.receiver

omit [DecidableEq κ] in
theorem Greeting.lock (hs : s.Greeting) (hlock : client.rwLock = s.client.rwLock)
    (hadmitted : client.admitted = s.client.admitted) (n : NodeIdentity) (j : κ) (stage : ConnectStage)
    (h : client.rwLock = .connect n j stage) (hstage : stage.ahead = true) :
    client.admitted j = false ∧ (stage.opened = true → s.handshake = some j) := by
  rw [hlock] at h
  rw [hadmitted]
  exact ⟨hs.ahead n j stage h hstage, hs.greets n j stage h hstage⟩

omit [DecidableEq κ] in
theorem Greeting.settled (hs : s.Greeting)
    (hahead : ∀ n j stage, client.rwLock = .connect n j stage → stage.ahead = false)
    (hqueue : client.calls.queue = s.client.calls.queue)
    (hreceiver : client.calls.receiverClosed = s.client.calls.receiverClosed)
    (hadmitted : ∀ j, s.client.admitted j = true → client.admitted j = true)
    (hout : client.drainOut = s.client.drainOut) : Greeting { s with client := client } := by
  apply hs.keep hqueue hreceiver hadmitted _ (Or.inl hout)
  intro n j stage hlock hstage
  cases (hahead n j stage hlock).symm.trans hstage

theorem admitted_update {admitted : κ → Bool} {j k : κ} (hj : admitted j = true) :
    Function.update admitted k true j = true := by
  by_cases hjk : j = k
  · rw [hjk]
    exact Function.update_self ..
  · exact (Function.update_of_ne hjk ..).trans hj

def begun (e : DrainOutEvent) (client : S2cClient ident) : List κ :=
  if e = .handled then client.drainOut.written else []

theorem outDrain_line {c d : S2cClient ident} {e : DrainOutEvent} (h : c.outDrain e = some d) :
    begun e d ++ (d.drainOut.taken ++ d.calls.queue) = c.drainOut.taken ++ c.calls.queue ∨
    (d.drainOut = .ended ∧ begun e d = [] ∧ d.calls.queue = c.calls.queue) := by
  unfold S2cClient.outDrain at h
  split at h <;> rename_i hfrom
  · split_ifs at h
    cases h
    exact Or.inl (by rw [hfrom]; rfl)
  · cases h
    refine Or.inl ?_
    rw [hfrom]
    split_ifs <;> rfl
  · cases h
    refine Or.inl ?_
    rw [hfrom]
    split_ifs <;> rfl
  · cases h
    exact Or.inl (by rw [hfrom]; rfl)
  · split at h
    · cases h
    · rename_i k queue hqueue
      simp only [Calls.step, hqueue, Option.map_some, Option.some.injEq] at h
      subst h
      exact Or.inl (by rw [hfrom, hqueue]; rfl)
  · cases h
    by_cases hrunning : c.clientState.running = true
    · refine Or.inl ?_
      rw [hfrom, if_pos hrunning]
      rfl
    · refine Or.inr ?_
      rw [if_neg hrunning]
      exact ⟨rfl, rfl, rfl⟩
  · cases h
    exact Or.inl (by rw [hfrom]; rfl)
  · cases h
    exact Or.inl (by rw [hfrom]; rfl)
  · cases h
    exact Or.inl (by rw [hfrom]; rfl)
  · split_ifs at h
    cases h
    exact Or.inl (by rw [hfrom]; rfl)
  · split_ifs at h
    cases h
    exact Or.inl (by rw [hfrom]; rfl)
  · split_ifs at h
    cases h
    exact Or.inl (by rw [hfrom]; rfl)
  · split_ifs at h
    cases h
    exact Or.inl (by rw [hfrom]; rfl)
  · cases h

theorem record_drainOut (s : FrameRun ident) (e : DrainOutEvent) (client : S2cClient ident) :
    s.record (.drainOut e) client = { s with client := client, frames := s.frames ++ begun e client } := by
  cases e <;> simp [record, begun]

theorem greeting_drainOut {e : DrainOutEvent} (hs : s.Greeting) (h : s.client.outDrain e = some client) :
    (s.record (.drainOut e) client).Greeting := by
  have hstepped := S2cClient.outDrained h
  have hlive : s.client.drainOut ≠ .ended := hstepped.not_ended
  have hsame : client.rwLock = s.client.rwLock ∧ client.admitted = s.client.admitted ∧
      client.calls.receiverClosed = s.client.calls.receiverClosed := by
    cases hstepped <;> exact ⟨rfl, rfl, rfl⟩
  obtain ⟨hlock, hadmitted, hreceiver⟩ := hsame
  rw [record_drainOut]
  have hline : line { s with client := client, frames := s.frames ++ begun e client } = s.line ∨
      (client.drainOut = .ended ∧ begun e client = [] ∧
        (line { s with client := client, frames := s.frames ++ begun e client }).Sublist s.line) := by
    rcases outDrain_line h with hsame | ⟨hended, hbegun, hqueue⟩
    · refine Or.inl ?_
      simp only [line, List.append_assoc, hsame]
    · refine Or.inr ⟨hended, hbegun, ?_⟩
      simp only [line, hbegun, List.append_nil, hended, DrainOut.taken, List.nil_append, hqueue]
      exact (List.sublist_append_right _ _).append_left _
  have hgreeted : s.line ≠ [] → s.Greeted := fun hne => by_contra (fun hnot => hne (hs.silent hnot))
  constructor
  · intro hnot
    have hsilent := hs.silent hnot
    rcases hline with hline | ⟨_, _, hline⟩
    · rw [hline]
      exact hsilent
    · rw [hsilent] at hline
      exact List.sublist_nil.mp hline
  · intro hyes hended
    rcases hline with hline | ⟨hline, _⟩
    · rw [hline]
      exact hs.first hyes hlive
    · exact absurd hline hended
  · intro k hk
    rcases hline with hline | ⟨_, hbegun, _⟩
    · have hhead : s.line.head? = some k := by
        rw [← hline, line, List.head?_append, hk]
        rfl
      have hne : s.line ≠ [] := by
        intro hnil
        rw [hnil] at hhead
        cases hhead
      rw [← hs.first (hgreeted hne) hlive]
      exact hhead
    · apply hs.frames
      simpa [hbegun] using hk
  · intro k hk
    apply hs.own
    rcases hline with hline | ⟨_, _, hline⟩
    · rwa [hline] at hk
    · exact hline.subset hk
  · intro j hj
    rw [hadmitted]
    exact hs.admitted j hj
  · exact fun n j stage hl hstage => (hs.lock hlock hadmitted n j stage hl hstage).1
  · exact fun n j stage hl hstage => (hs.lock hlock hadmitted n j stage hl hstage).2
  · exact hreceiver.trans hs.receiver

theorem greeting_queued (hs : s.Greeting) (horderly : ¬s.Greeted → s.handshake = some k)
    (hadmitted : s.client.admitted k = true) {calls : Calls ident}
    (hqueue : calls.queue = s.client.calls.queue ++ [k]) (hreceiver : calls.receiverClosed = false) :
    Greeting { s with
      client := { s.client with calls := calls }, queuedIn := Function.update s.queuedIn k (some s.opened) } := by
  have hline : line { s with
      client := { s.client with calls := calls }, queuedIn := Function.update s.queuedIn k (some s.opened) } =
      s.line ++ [k] := by
    simp only [line, hqueue, List.append_assoc]
  have hgreeted : Greeted { s with
      client := { s.client with calls := calls }, queuedIn := Function.update s.queuedIn k (some s.opened) } := by
    by_cases hyes : s.Greeted
    · obtain ⟨h, hhandshake, hh⟩ := hyes
      refine ⟨h, hhandshake, ?_⟩
      by_cases hhk : h = k
      · rw [hhk]
        exact Function.update_self ..
      · exact (Function.update_of_ne hhk ..).trans hh
    · exact ⟨k, horderly hyes, Function.update_self ..⟩
  constructor
  · exact absurd hgreeted
  · intro _ hended
    rw [hline]
    by_cases hyes : s.Greeted
    · have hfirst := hs.first hyes hended
      obtain ⟨h, hhandshake, _⟩ := hyes
      rw [hhandshake] at hfirst
      rw [List.head?_append, hfirst]
      exact hhandshake.symm
    · rw [hs.silent hyes]
      exact (horderly hyes).symm
  · exact hs.frames
  · rw [hline]
    intro j hj
    by_cases hjk : j = k
    · rw [hjk]
      exact Function.update_self ..
    · refine (Function.update_of_ne hjk ..).trans (hs.own j ?_)
      simpa [hjk] using hj
  · intro j hj
    by_cases hjk : j = k
    · rw [hjk]
      exact hadmitted
    · exact hs.admitted j (by rwa [← Function.update_of_ne hjk (some s.opened) s.queuedIn])
  · exact hs.ahead
  · exact hs.greets
  · exact hreceiver

theorem greeting_call {step : CallStep} (hs : s.Greeting) (horderly : s.Orderly (.call k step))
    (h : s.client.step (.call k step) = some client) : (s.record (.call k step) client).Greeting := by
  simp only [S2cClient.step] at h
  split_ifs at h with hadmitted
  obtain ⟨calls, hcalls, rfl⟩ := Option.map_eq_some_iff.mp h
  have hkeep (hqueue : calls.queue = s.client.calls.queue)
      (hreceiver : calls.receiverClosed = s.client.calls.receiverClosed) :
      Greeting { s with client := { s.client with calls := calls } } :=
    hs.keep hqueue hreceiver (fun _ hj => hj) (hs.lock rfl rfl) (Or.inl rfl)
  cases Calls.called hcalls with
  | unsent _ hclosed => cases hs.receiver.symm.trans hclosed
  | queued => exact greeting_queued hs horderly hadmitted rfl hs.receiver
  | added => exact hkeep rfl rfl
  | answered => exact hkeep rfl rfl
  | discarded => exact hkeep rfl rfl
  | failed hstage step' e =>
    cases step with
    | queued => simp [Calls.step, Calls.call, hstage] at hcalls
    | _ => exact hkeep rfl rfl

omit [DecidableEq κ] in
theorem greeting_opened {n : NodeIdentity} (hs : s.Greeting) (hdrained : s.client.Drained)
    (hlock : s.client.rwLock = .connect n k .opening) (hempty : s.client.calls.queue = [])
    (connection : Option String) :
    Greeting { s with
      client := { s.client with connection := connection, rwLock := .connect n k .storingConnected }
      opened := s.opened + 1, handshake := some k, frames := [] } := by
  have hunadmitted := hs.ahead n k _ hlock rfl
  have hline : line { s with
      client := { s.client with connection := connection, rwLock := .connect n k .storingConnected }
      opened := s.opened + 1, handshake := some k, frames := [] } = [] := by
    simp [line, hdrained.2, DrainOut.taken, hempty]
  constructor
  · intro _
    exact hline
  · rintro ⟨j, hj, hqueued⟩ _
    cases hj
    have hqueuedIn : s.queuedIn k ≠ none := fun hnone => by cases hnone.symm.trans hqueued
    have hadmitted := hs.admitted k hqueuedIn
    cases hunadmitted.symm.trans hadmitted
  · intro j hj
    cases hj
  · rw [hline]
    intro j hj
    cases hj
  · exact hs.admitted
  · intro n' j stage hl _
    cases hl
    exact hunadmitted
  · intro n' j stage hl _ _
    cases hl
    rfl
  · exact hs.receiver

omit [DecidableEq κ] in
theorem Greeting.not_greeted (hs : s.Greeting) {n : NodeIdentity} {stage : ConnectStage}
    (hlock : s.client.rwLock = .connect n k stage) (hahead : stage.ahead = true) (hopened : stage.opened = true) :
    ¬s.Greeted := by
  rintro ⟨j, hj, hqueued⟩
  have hk := hs.greets n k stage hlock hahead hopened
  obtain rfl : j = k := Option.some.inj (hj.symm.trans hk)
  have hadmitted := hs.admitted j (by simp [hqueued])
  cases (hs.ahead n j stage hlock hahead).symm.trans hadmitted

theorem greeting_connecting {n : NodeIdentity} {stage : ConnectStage} {e : ConnectEvent}
    {re : S2cClient ident × Connecting} (hs : s.Greeting) (htracked : s.client.Tracked)
    (horderly : s.Orderly (.connecting e)) (hlock : s.client.rwLock = .connect n k stage)
    (h : S2cClient.Connected s.client n k stage e re) :
    (s.record (.connecting e) (S2cClient.locked n k re)).Greeting := by
  cases h with
  | opened =>
    have hrecord : s.record (.connecting (.opened (.ok ())))
        (S2cClient.locked n k ({ s.client with connection := some n.addr }, .at .storingConnected)) =
      { s with
        client := { s.client with connection := some n.addr, rwLock := .connect n k .storingConnected }
        opened := s.opened + 1, handshake := some k, frames := [] } := by
      simp only [record, hlock]
      rfl
    rw [hrecord]
    exact greeting_opened hs (htracked.opening n k _ hlock (Or.inl rfl)) hlock horderly _
  | waited hdrained =>
    refine hs.keep rfl rfl (fun _ hj => hj) ?_ (Or.inl rfl)
    intro n' j stage' hl _
    cases hl
    exact ⟨hs.ahead n k _ hlock rfl, nofun⟩
  | connectedStored =>
    refine hs.keep rfl rfl (fun _ hj => hj) ?_ (Or.inr ⟨hs.not_greeted hlock rfl rfl, rfl⟩)
    intro n' j stage' hl _
    cases hl
    exact ⟨hs.ahead n k _ hlock rfl, fun _ => hs.greets n k _ hlock rfl rfl⟩
  | spawnedIn =>
    refine hs.keep rfl rfl (fun _ hj => hj) ?_ (Or.inl rfl)
    intro n' j stage' hl _
    cases hl
    exact ⟨hs.ahead n k _ hlock rfl, fun _ => hs.greets n k _ hlock rfl rfl⟩
  | spawnedOut =>
    refine hs.keep rfl rfl (fun _ => admitted_update) ?_ (Or.inr ⟨hs.not_greeted hlock rfl rfl, rfl⟩)
    intro n' j stage' hl hahead
    cases hl
    cases hahead
  | _ =>
    refine hs.settled ?_ rfl rfl (fun _ hj => hj) rfl
    intro n' j stage' hl
    cases hl <;> rfl

theorem connect_admitted {c d : S2cClient ident} {n : NodeIdentity} (h : c.step (.connect n k) = some d) :
    c.admitted k = false := by
  simp only [S2cClient.step] at h
  split at h
  · split_ifs at h with hadmitted
    simpa using hadmitted
  · cases h

theorem send_admitted {c d : S2cClient ident} (h : c.step (.send k) = some d) :
    c.rwLock = .free ∧ ∃ admitted, d = { c with admitted := admitted } ∧
      ∀ j, c.admitted j = true → admitted j = true := by
  simp only [S2cClient.step] at h
  split at h
  · rename_i hfree
    split_ifs at h
    split at h
    · cases h
      exact ⟨hfree, _, rfl, fun _ => admitted_update⟩
    · cases h
      exact ⟨hfree, c.admitted, rfl, fun _ hj => hj⟩
  · cases h

theorem greeting_step {e : ClientEvent κ} (hs : s.Greeting) (htracked : s.client.Tracked) (horderly : s.Orderly e)
    (h : s.step e = some t) : t.Greeting := by
  obtain ⟨client, hclient, rfl⟩ := Option.map_eq_some_iff.mp h
  cases e with
  | connect n k =>
    have hunadmitted := connect_admitted hclient
    have hnew (stage : ConnectStage) (hclosed : stage.opened = false) (client : S2cClient ident)
        (hlock : client.rwLock = .connect n k stage) (hadmitted : client.admitted k = false) (n' : NodeIdentity)
        (j : κ) (stage' : ConnectStage) (hl : client.rwLock = .connect n' j stage') (_ : stage'.ahead = true) :
        client.admitted j = false ∧ (stage'.opened = true → s.handshake = some j) := by
      cases hlock.symm.trans hl
      exact ⟨hadmitted, fun hopened => absurd hopened (by simp [hclosed])⟩
    cases S2cClient.stepped hclient with
    | refused => exact hs
    | reopened => exact hs.keep rfl rfl (fun _ hj => hj) (hnew .opening rfl _ rfl hunadmitted) (Or.inl rfl)
    | connect => exact hs.keep rfl rfl (fun _ hj => hj) (hnew .waiting rfl _ rfl hunadmitted) (Or.inl rfl)
  | connecting e =>
    cases S2cClient.stepped hclient with
    | connecting hlock hstep => exact greeting_connecting hs htracked horderly hlock hstep
  | send k =>
    obtain ⟨hfree, admitted, rfl, hadmitted⟩ := send_admitted hclient
    refine hs.settled ?_ rfl rfl hadmitted rfl
    intro n j stage hl
    cases hfree.symm.trans hl
  | call k step => exact greeting_call hs horderly hclient
  | close =>
    cases S2cClient.stepped hclient with
    | closeRefused => exact hs
    | close => exact hs.settled nofun rfl rfl (fun _ hj => hj) rfl
  | closing e =>
    cases S2cClient.stepped hclient with
    | closing hlock hstep =>
      cases hstep <;> exact hs.settled nofun rfl rfl (fun _ hj => hj) rfl
  | drainIn e =>
    have hstep := S2cClient.inDrained hclient
    cases hstep <;> exact hs.keep rfl rfl (fun _ hj => hj) (hs.lock rfl rfl) (Or.inl rfl)
  | drainOut e => exact greeting_drainOut hs hclient

omit [DecidableEq κ] in
theorem Greeting.firstFrame (hs : s.Greeting) : s.FirstFrame := by
  refine ⟨hs.frames, ?_⟩
  intro k hk
  exact hs.own k (List.mem_append_left _ hk)

theorem tracked_step (htracked : s.client.Tracked) {e : ClientEvent κ} (h : s.step e = some t) :
    t.client.Tracked := by
  obtain ⟨client, hclient, rfl⟩ := Option.map_eq_some_iff.mp h
  have hsame : (s.record e client).client = client := by
    unfold record
    split <;> rfl
  rw [hsame]
  exact S2cClient.tracked_step htracked hclient

theorem firstFrame_along_run {maxPendingReqs : ℕ} {es : List (ClientEvent κ)}
    (h : Along step Orderly (start ident maxPendingReqs) es) :
    Always step FirstFrame (start ident maxPendingReqs) es := by
  intro pre hpre t ht
  have hboth : t.client.Tracked ∧ t.Greeting := by
    refine invariant_along (I := fun s => s.client.Tracked ∧ s.Greeting) ?_ ?_ (h.of_prefix hpre) ht
    · rintro s e t ⟨htracked, hs⟩ horderly hstep
      exact ⟨tracked_step htracked hstep, greeting_step hs htracked horderly hstep⟩
    · exact ⟨S2cClient.tracked_new ident maxPendingReqs, greeting_start ident maxPendingReqs⟩
  exact hboth.2.firstFrame

def oneRequest : List (ClientEvent String) :=
  S2cClient.connectedReady ++ [.send "a", .call "a" .added, .call "a" .queued, .drainOut .checked,
    .drainOut .throttleLoaded, .drainOut .received, .drainOut .handled]

theorem firstFrame_along_sample :
    (∃ s, exec step (start id 1) oneRequest = some s ∧ s.handshake = some "h" ∧ s.frames = ["h", "a"]) ∧
      Always step FirstFrame (start id 1) oneRequest := by
  refine ⟨⟨_, rfl, rfl, rfl⟩, firstFrame_along_run ?_⟩
  unfold oneRequest S2cClient.connectedReady S2cClient.handshakeSent S2cClient.handshakeAnswered
  repeat
    refine (along_cons rfl).mpr ⟨?_, ?_⟩
    · first
      | exact trivial
      | exact rfl
      | exact fun _ => rfl
      | exact fun hnot => absurd ⟨_, rfl, rfl⟩ hnot
  exact trivial

def leftInChannel : List (ClientEvent String) :=
  S2cClient.connectedReady ++ [.send "b", .call "b" .added, .call "b" .queued, .send "a", .call "a" .added,
    .call "a" .queued, .drainIn .checked, .drainOut .checked, .drainOut .throttleLoaded, .drainOut .received,
    .drainOut .handled, .drainOut (.written false), .drainOut .notConnectedStored,
    .drainIn (.read (.ok ⟨"c", none, none⟩)), .drainIn .handled]

def writtenFirst : List (ClientEvent String) :=
  leftInChannel ++ [.connect S2cClient.server "h2", .connecting .waited, .connecting (.opened (.ok ())),
    .connecting .connectedStored, .connecting .spawnedIn, .connecting .spawnedOut, .drainOut .started,
    .drainOut .checked, .drainOut .throttleLoaded, .drainOut .received, .drainOut .handled]

theorem firstFrame_fails : (∃ s, exec step (start id 2) writtenFirst = some s ∧ s.handshake = some "h2" ∧
    s.frames = ["a"]) ∧ ¬Always step FirstFrame (start id 2) writtenFirst := by
  refine ⟨⟨_, rfl, rfl, rfl⟩, ?_⟩
  intro h
  have hfirst := h _ (List.prefix_refl _) _ rfl
  have hsame : "h2" = "a" := Option.some.inj (hfirst.handshake "a" rfl)
  revert hsame
  decide

end FrameRun

end S2c
