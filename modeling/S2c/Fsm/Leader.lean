import S2c.Fsm.State

namespace S2c

open Wire

/-- What one turn of `leader_loop` takes from its channels; `first` is `none` when it timed out. -/
structure Arrivals where
  first : Option S2cMessageEnvelope
  locals : List S2cMessageEnvelope
  remotes : List S2cMessageEnvelope
  elapsedNanos : ℕ

def Arrivals.due (a : Arrivals) : List S2cMessageEnvelope := a.first.toList ++ a.locals ++ a.remotes

def S2cMessageEnvelope.stateRequest (msg : S2cMessageEnvelope) : Option StateRequest :=
  match msg.s2cMessage.body with
  | some (.stateRequest stateRequest) => some stateRequest
  | _ => none

def Arrivals.requests (a : Arrivals) : List StateRequest :=
  a.due.filterMap S2cMessageEnvelope.stateRequest

/-- The buffer starts with as many zeros as the encoding is long, and the encoding goes behind
them. `none` where it does not fit. -/
def batchEntry (stateRequest : StateRequest) : Option BatchEntry :=
  let encoded := StateRequest.message.encode stateRequest
  if 2 * encoded.length ≤ Message.isizeMax then
    some { body := List.replicate encoded.length 0 ++ encoded, internal := false }
  else none

def flushPayload (acc : List StateRequest) : Option Bytes :=
  (acc.mapM batchEntry).bind (fun entries => Batch.message.encodeToVec { entries := entries })

inductive LeaderTurn where
  | receiving (f : FSM) (acc : List StateRequest)
  | appending (f : FSM) (acc : List StateRequest) (payload : Bytes)
  | panicked

namespace FSM

def handleDue (s : FSM × List StateRequest) (msg : S2cMessageEnvelope) :
    Option (FSM × List StateRequest) :=
  match msg.s2cMessage.body with
  | some (.stateRequest stateRequest) => some (s.1, s.2 ++ [stateRequest])
  | some (.follow follow) =>
    follow.nodeIdentity.map (fun identity => ({ s.1 with followers := s.1.followers ++ [identity] }, s.2))
  | some _ => some s
  | none => some s

def flushDue (f : FSM) (acc : List StateRequest) (elapsedNanos : ℕ) : Bool :=
  f.s2cOptions.flushIntervalMs.toNat * 1000000 < elapsedNanos ∨ f.s2cOptions.batchMinCount.toNat < acc.length

def leaderTurn (f : FSM) (acc : List StateRequest) (a : Arrivals) : LeaderTurn :=
  match a.due.foldlM handleDue (f, acc) with
  | none => .panicked
  | some (f, acc) =>
    if f.flushDue acc a.elapsedNanos then
      match flushPayload acc with
      | none => .panicked
      | some payload => .appending f acc payload
    else .receiving f acc

theorem handleDue_some {f f' : FSM} {acc acc' : List StateRequest} {msg : S2cMessageEnvelope}
    (h : handleDue (f, acc) msg = some (f', acc')) :
    (∃ followers, f' = { f with followers := followers }) ∧ acc' = acc ++ msg.stateRequest.toList := by
  unfold handleDue at h
  unfold S2cMessageEnvelope.stateRequest
  split at h
  · rename_i stateRequest hbody
    cases h
    exact ⟨⟨f.followers, rfl⟩, by simp [hbody]⟩
  · rename_i follow hbody
    obtain ⟨identity, _, hs⟩ := Option.map_eq_some_iff.mp h
    cases hs
    exact ⟨⟨f.followers ++ [identity], rfl⟩, by simp [hbody]⟩
  · rename_i body hrequest hfollow hbody
    cases h
    refine ⟨⟨f.followers, rfl⟩, ?_⟩
    split
    · rename_i stateRequest hbody'
      exact absurd (Option.some.inj (hbody.symm.trans hbody')) (hrequest stateRequest)
    · simp
  · rename_i hbody
    cases h
    exact ⟨⟨f.followers, rfl⟩, by simp [hbody]⟩

theorem foldlM_handleDue_some {f f' : FSM} {acc acc' : List StateRequest}
    {due : List S2cMessageEnvelope} (h : due.foldlM handleDue (f, acc) = some (f', acc')) :
    (∃ followers, f' = { f with followers := followers }) ∧
      acc' = acc ++ due.filterMap S2cMessageEnvelope.stateRequest := by
  induction due generalizing f acc with
  | nil =>
    cases h
    exact ⟨⟨f'.followers, rfl⟩, by simp⟩
  | cons msg due ih =>
    rw [List.foldlM_cons] at h
    obtain ⟨⟨f₁, acc₁⟩, hmsg, hdue⟩ := Option.bind_eq_some_iff.mp h
    obtain ⟨⟨followers, rfl⟩, rfl⟩ := handleDue_some hmsg
    obtain ⟨⟨followers', rfl⟩, rfl⟩ := ih hdue
    refine ⟨⟨followers', rfl⟩, ?_⟩
    rw [List.filterMap_cons]
    cases msg.stateRequest <;> simp

theorem leaderTurn_cases (f : FSM) (acc : List StateRequest) (a : Arrivals) :
    (∃ followers, f.leaderTurn acc a =
      .receiving { f with followers := followers } (acc ++ a.requests)) ∨
    (∃ followers payload, f.leaderTurn acc a =
      .appending { f with followers := followers } (acc ++ a.requests) payload ∧
        flushPayload (acc ++ a.requests) = some payload) ∨
    f.leaderTurn acc a = .panicked := by
  unfold leaderTurn
  cases hdue : a.due.foldlM handleDue (f, acc) with
  | none => exact Or.inr (Or.inr rfl)
  | some s =>
    obtain ⟨f', acc'⟩ := s
    obtain ⟨⟨followers, rfl⟩, rfl⟩ := foldlM_handleDue_some hdue
    dsimp only
    split_ifs
    · cases hpayload : flushPayload (acc ++ a.due.filterMap S2cMessageEnvelope.stateRequest) with
      | none => exact Or.inr (Or.inr rfl)
      | some payload => exact Or.inr (Or.inl ⟨followers, payload, rfl, hpayload⟩)
    · exact Or.inl ⟨followers, rfl⟩

end FSM

def sampleRequest : StateRequest := ⟨[7], 0, "g", false, false⟩

def sampleArrivals : Arrivals where
  first := some ⟨⟨"c1", some (.stateRequest sampleRequest), none⟩, ⟨"n2", "h2", 1, "a"⟩⟩
  locals := []
  remotes := []
  elapsedNanos := 2000000001

end S2c
