import S2c.Network.Reconnect

namespace S2c

open Machine

def RwLock.spawning {κ : Type} : RwLock κ → Bool
  | .connect _ _ .spawningIn => true
  | .connect _ _ .spawningOut => true
  | _ => false

namespace S2cClient

variable {κ : Type} {ident : κ → String} [DecidableEq κ] {c t : S2cClient ident} {e : ClientEvent κ} {k : κ}
  {m : S2cMessage}

def process (c : S2cClient ident) : Option (S2cClient ident) :=
  (c.inDrain .handled).bind (fun c =>
    match c.drainIn with
    | .responding _ => c.inDrain .responded
    | _ => some c)

omit [DecidableEq κ] in
structure Answered (c : S2cClient ident) (k : κ) (m : S2cMessage) : Prop where
  removed : c.calls.inflightRequests.senders m.correlationId = none
  outcome : c.calls.inflightRequests.slots k = .filled (.ok m) ∨
    ∃ err, c.calls.inflightRequests.slots k = .filled (.error err)

omit [DecidableEq κ] in
theorem not_answered (hk : c.calls.inflightRequests.senders m.correlationId = some k) : ¬c.Answered k m := by
  intro h
  cases h.removed.symm.trans hk

theorem process_error {err : S2cError} (hrunning : c.clientState.running = true) (hfrom : c.drainIn = .handling m)
    (herror : m.error = some err) :
    ∃ t, c.process = some t ∧ t.drainIn = .checking ∧ t.calls = c.calls := by
  have hhandled : ∃ throttle, c.inDrain .handled = some { c with throttle := throttle, drainIn := .checking } := by
    simp only [inDrain, hfrom, hrunning, herror, if_true]
    cases err with
    | slowDownError => exact ⟨true, rfl⟩
    | _ => exact ⟨c.throttle, rfl⟩
  obtain ⟨throttle, hhandled⟩ := hhandled
  refine ⟨{ c with throttle := throttle, drainIn := .checking }, ?_, rfl, rfl⟩
  rw [process, hhandled, Option.bind_some]

theorem process_reply (hrunning : c.clientState.running = true) (hfrom : c.drainIn = .handling m)
    (herror : m.error = none) :
    ∃ t, c.process = some t ∧ t.drainIn = .checking ∧
      t.calls.inflightRequests = c.calls.inflightRequests.respond m := by
  simp [process, inDrain, hfrom, hrunning, herror, Calls.step]

theorem process_iff (hrunning : c.clientState.running = true) (hfrom : c.drainIn = .handling m)
    (hk : c.calls.inflightRequests.senders m.correlationId = some k) :
    ∃ t, c.process = some t ∧ t.drainIn = .checking ∧ (t.Answered k m ↔ m.error = none) := by
  cases herror : m.error with
  | some err =>
    obtain ⟨t, ht, hto, hcalls⟩ := process_error hrunning hfrom herror
    exact ⟨t, ht, hto, iff_of_false (not_answered (hcalls ▸ hk)) nofun⟩
  | none =>
    obtain ⟨t, ht, hto, hcalls⟩ := process_reply hrunning hfrom herror
    refine ⟨t, ht, hto, iff_of_true ⟨?_, .inl ?_⟩ rfl⟩
    · simp [hcalls, InflightRequests.respond, Pending.settle]
    · have hident : ident k = m.correlationId := c.calls.inflightRequests.own _ _ hk
      have hregistered : c.calls.inflightRequests.Registered k := by rwa [Pending.Registered, hident]
      simp [hcalls, InflightRequests.respond, Pending.slots_settle, hregistered, hident]

def requestSent : List (ClientEvent String) :=
  connectedReady ++ [.send "a", .call "a" .added, .call "a" .queued, .drainIn .checked]

def notLeader : S2cMessage := ⟨"a", none, some .notLeaderError⟩

def followed : S2cMessage := ⟨"a", some .followResponse, none⟩

theorem process_iff_sample : ∃ c, exec step (new id 1) (requestSent ++ [.drainIn (.read (.ok followed))]) = some c ∧
    ∃ t, c.process = some t ∧ t.drainIn = .checking ∧ (t.Answered "a" followed ↔ followed.error = none) :=
  ⟨_, rfl, process_iff rfl rfl rfl⟩

theorem process_fails : ∃ c t, exec step (new id 1) (requestSent ++ [.drainIn (.read (.ok notLeader))]) = some c ∧
    c.clientState = .ready ∧ c.drainIn = .handling notLeader ∧
    c.calls.inflightRequests.senders notLeader.correlationId = some "a" ∧ c.process = some t ∧
    t.drainIn = .checking ∧ t.calls.inflightRequests.senders notLeader.correlationId = some "a" ∧
    t.calls.inflightRequests.slots "a" = .empty ∧ ¬t.Answered "a" notLeader := by
  refine ⟨_, _, rfl, rfl, rfl, rfl, rfl, rfl, rfl, rfl, ?_⟩
  exact not_answered rfl

def Unattended (c : S2cClient ident) : Prop :=
  c.drainIn = .cancelling ∨ c.drainIn = .storing ∨ (c.drainIn = .ended ∧ c.drainOut ≠ .ended)

/-- `drain_in` ends through its error branch, or with no request registered; and no request is
registered between its `fail_all` and the end of the connection. -/
def Attended (c : S2cClient ident) : ClientEvent κ → Prop
  | .call _ .added => ¬c.Unattended
  | .drainIn .checked => c.clientState.running = true ∨ c.calls.inflightRequests.Vacant
  | .drainIn .handled => c.clientState.running = true ∨ c.calls.inflightRequests.Vacant
  | .drainIn .dropped => c.calls.inflightRequests.Vacant
  | _ => True

structure Resolved (c : S2cClient ident) : Prop where
  vacant : c.calls.inflightRequests.Vacant
  completed : ∀ k, (c.calls.stages k).pending = true → c.calls.inflightRequests.slots k ≠ .empty

def Resolves (c : S2cClient ident) (e : ClientEvent κ) : Prop :=
  ∀ t, c.step e = some t → ¬c.Drained → t.Drained → t.Resolved

structure Attending (c : S2cClient ident) : Prop where
  vacant : c.Unattended → c.calls.inflightRequests.Vacant
  spawning : c.rwLock.spawning = true → c.drainOut = .unspawned
  accounted : c.calls.Accounted

omit [DecidableEq κ] in
theorem attending_new (ident : κ → String) (maxPendingReqs : ℕ) : (new ident maxPendingReqs).Attending :=
  ⟨fun _ _ => rfl, nofun, Calls.accounted_new ident maxPendingReqs⟩

omit [DecidableEq κ] in
theorem Attending.locked (hc : c.Attending) (hlock : t.rwLock.spawning = false) (hin : t.drainIn = c.drainIn)
    (hout : t.drainOut = c.drainOut) (hcalls : t.calls = c.calls) : t.Attending := by
  constructor
  · unfold Unattended
    rw [hin, hout, hcalls]
    exact hc.vacant
  · rw [hlock]
    exact nofun
  · rw [hcalls]
    exact hc.accounted

omit [DecidableEq κ] in
theorem Attending.background (hc : c.Attending) (hlock : t.rwLock = c.rwLock)
    (hout : c.drainOut = .unspawned → t.drainOut = .unspawned)
    (hvacant : t.Unattended → t.calls.inflightRequests.Vacant) (hcalls : t.calls.Accounted) : t.Attending := by
  refine ⟨hvacant, ?_, hcalls⟩
  rw [hlock]
  exact fun hspawning => hout (hc.spawning hspawning)

theorem attending_connecting {n : NodeIdentity} {stage : ConnectStage} {e : ConnectEvent}
    {re : S2cClient ident × Connecting} (hc : c.Attending) (hlock : c.rwLock = .connect n k stage)
    (h : Connected c n k stage e re) : (locked n k re).Attending := by
  have hspawning : c.rwLock.spawning = true → c.drainOut = .unspawned := hc.spawning
  rw [hlock] at hspawning
  cases h with
  | connectedStored =>
    refine ⟨?_, fun _ => rfl, hc.accounted⟩
    rintro (h | h | ⟨h, _⟩) <;> cases h
  | spawnedIn =>
    refine ⟨?_, fun _ => hspawning rfl, hc.accounted⟩
    rintro (h | h | ⟨h, _⟩) <;> cases h
  | spawnedOut =>
    refine ⟨?_, nofun, hc.accounted⟩
    rintro (h | h | ⟨h, _⟩)
    · exact hc.vacant (.inl h)
    · exact hc.vacant (.inr (.inl h))
    · exact hc.vacant (.inr (.inr ⟨h, by simp [hspawning rfl]⟩))
  | _ => exact hc.locked rfl rfl rfl rfl

theorem vacant_call {s : CallStep} {calls : Calls ident} (h : c.calls.call k s = some calls) (hs : s ≠ .added)
    (hc : c.calls.inflightRequests.Vacant) : calls.inflightRequests.Vacant := by
  cases Calls.called h with
  | added => exact absurd rfl hs
  | discarded => exact hc.settle
  | _ => exact hc

theorem attending_call {s : CallStep} {calls : Calls ident} (hc : c.Attending) (hkept : c.Attended (.call k s))
    (h : c.calls.call k s = some calls) : Attending { c with calls := calls } := by
  refine ⟨?_, hc.spawning, Calls.accounted_call hc.accounted h⟩
  intro hunattended
  have hs : s ≠ .added := by
    rintro rfl
    exact hkept hunattended
  exact vacant_call h hs (hc.vacant hunattended)

theorem attending_inDrained {e : DrainInEvent} (hc : c.Attending) (hkept : c.Attended (.drainIn e))
    (h : InDrained c e t) : t.Attending := by
  have hout : t.drainOut = c.drainOut := by cases h <;> rfl
  apply hc.background h.background.rwLock (fun hunspawned => hout.trans hunspawned)
  · intro hunattended
    cases h with
    | stopped _ he hrunning =>
      rcases he with rfl | rfl <;> exact (hkept.resolve_left (by simp [hrunning]))
    | failedAll => exact Pending.vacant_settle_all
    | cancelled hfrom => exact hc.vacant (.inl hfrom)
    | notConnectedStored hfrom => exact hc.vacant (.inr (.inl hfrom))
    | dropped => exact hkept
    | _ => rcases hunattended with h | h | ⟨h, _⟩ <;> cases h
  · cases h with
    | responded => exact hc.accounted.settle (by simp)
    | failedAll => exact hc.accounted.settle (by simp)
    | _ => exact hc.accounted

omit [DecidableEq κ] in
theorem attending_outDrained {e : DrainOutEvent} (hc : c.Attending) (h : OutDrained c e t) : t.Attending := by
  have hin : t.drainIn = c.drainIn ∧ t.calls.inflightRequests = c.calls.inflightRequests := by
    cases h <;> exact ⟨rfl, rfl⟩
  have hfrom : c.drainOut ≠ .ended ∧ c.drainOut ≠ .unspawned := by
    cases h with
    | notConnectedStored hfrom => simp [hfrom]
    | stopped _ _ _ hfrom => exact hfrom
    | moved _ _ hfrom => exact ⟨hfrom.1, hfrom.2.1⟩
    | dropped _ hfrom => exact ⟨hfrom.1, hfrom.2.1⟩
  apply hc.background h.background.rwLock (fun hunspawned => absurd hunspawned hfrom.2)
  · unfold Unattended
    rw [hin.1, hin.2]
    rintro (h | h | ⟨h, _⟩)
    · exact hc.vacant (.inl h)
    · exact hc.vacant (.inr (.inl h))
    · exact hc.vacant (.inr (.inr ⟨h, hfrom.1⟩))
  · cases h <;> exact hc.accounted

theorem attending_step (hc : c.Attending) (hkept : c.Attended e) (h : c.step e = some t) : t.Attending := by
  cases stepped h with
  | refused => exact hc
  | reopened => exact hc.locked rfl rfl rfl rfl
  | connect => exact hc.locked rfl rfl rfl rfl
  | connecting hlock hstep => exact attending_connecting hc hlock hstep
  | send => exact ⟨hc.vacant, hc.spawning, hc.accounted⟩
  | call k s calls hcall => exact attending_call hc hkept hcall
  | closeRefused => exact hc
  | close => exact hc.locked rfl rfl rfl rfl
  | closing _ hstep => cases hstep <;> exact hc.locked rfl rfl rfl rfl
  | drainIn hstep => exact attending_inDrained hc hkept hstep
  | drainOut hstep => exact attending_outDrained hc hstep

theorem vacant_of_ended (hc : c.Attending) (hkept : c.Attended e) (h : c.step e = some t)
    (hlive : ¬c.Drained) (hended : t.Drained) : t.calls.inflightRequests.Vacant := by
  cases stepped h with
  | connecting _ hstep =>
    cases hstep with
    | connectedStored => cases hended.1
    | spawnedIn => cases hended.1
    | spawnedOut => cases hended.2
    | _ => exact absurd hended hlive
  | closing _ hstep => cases hstep <;> exact absurd hended hlive
  | drainIn hstep =>
    cases hstep with
    | stopped _ he hrunning =>
      rcases he with rfl | rfl <;> exact hkept.resolve_left (by simp [hrunning])
    | notConnectedStored hfrom => exact hc.vacant (.inr (.inl hfrom))
    | dropped => exact hkept
    | _ => cases hended.1
  | drainOut hstep =>
    have hin : c.drainIn = .ended ∧ t.calls.inflightRequests = c.calls.inflightRequests := by
      cases hstep <;> exact ⟨hended.1, rfl⟩
    rw [hin.2]
    exact hc.vacant (.inr (.inr ⟨hin.1, hstep.not_ended⟩))
  | _ => exact absurd hended hlive

theorem resolves_step (hc : c.Attending) (hkept : c.Attended e) : c.Resolves e := by
  intro t h hlive hended
  have hvacant := vacant_of_ended hc hkept h hlive hended
  refine ⟨hvacant, fun k hk => ?_⟩
  apply ((attending_step hc hkept h).accounted k hk).resolve_left
  simp [Pending.Registered, hvacant _]

theorem resolves_along {maxPendingReqs : ℕ} {es : List (ClientEvent κ)}
    (h : Along step Attended (new ident maxPendingReqs) es) : Along step Resolves (new ident maxPendingReqs) es :=
  h.mono (fun _ _ _ hc hkept hstep => ⟨attending_step hc hkept hstep, resolves_step hc hkept⟩)
    (attending_new ident maxPendingReqs)

def handshakeRefused : List (ClientEvent String) :=
  [.connect server "h", .connecting .waited, .connecting (.opened (.ok ())), .connecting .connectedStored,
    .connecting .spawnedIn, .connecting .spawnedOut, .call "h" .added, .drainIn .started] ++ readError ++
    [.drainOut .dropped]

theorem resolves_along_sample : ∃ t, exec step (new id 1) handshakeRefused = some t ∧ t.Drained ∧
    (t.calls.inflightRequests.slots "h" =
      .filled (.error (.io (.io "UnexpectedEof" "unexpected end of file")))) ∧
    Along step Resolves (new id 1) handshakeRefused := by
  refine ⟨_, rfl, ⟨rfl, rfl⟩, rfl, resolves_along ?_⟩
  unfold handshakeRefused readError
  repeat
    refine (along_cons rfl).mpr ⟨?_, ?_⟩
    · first
      | exact trivial
      | exact .inl rfl
      | rintro (h | h | ⟨h, _⟩) <;> cases h
  exact trivial

def writeError : List (ClientEvent String) :=
  requestSent ++ [.drainOut .checked, .drainOut .throttleLoaded, .drainOut .received, .drainOut .handled,
    .drainOut (.written false), .drainOut .notConnectedStored, .drainIn (.read (.ok ⟨"b", none, none⟩)),
    .drainIn .handled]

theorem resolves_fails : ∃ t, exec step (new id 1) writeError = some t ∧ t.Drained ∧
    t.calls.inflightRequests.senders "a" = some "a" ∧ t.calls.inflightRequests.slots "a" = .empty ∧
    ¬Along step Resolves (new id 1) writeError := by
  refine ⟨_, rfl, ⟨rfl, rfl⟩, rfl, rfl, fun h => ?_⟩
  have hlast : writeError = writeError.dropLast ++ [.drainIn .handled] := rfl
  rw [hlast] at h
  have hresolved := h.of_exec rfl rfl _ rfl (fun hdrained => nomatch hdrained.1) ⟨rfl, rfl⟩
  cases hresolved.vacant "a"

end S2cClient

end S2c
