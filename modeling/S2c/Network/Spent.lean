import S2c.Network.FirstFrame

namespace S2c

open Machine

def DrainIn.asleep : DrainIn → Bool
  | .ended => true
  | .unspawned => true
  | .spawned => true
  | _ => false

def DrainOut.asleep {κ : Type} : DrainOut κ → Bool
  | .ended => true
  | .unspawned => true
  | .spawned => true
  | _ => false

namespace S2cClient

variable {κ : Type} {ident : κ → String} [DecidableEq κ] {c t u : S2cClient ident} {k : κ}

theorem calls_outDrain {e : DrainOutEvent} (h : c.outDrain e = some t) :
    t.calls = c.calls ∨ c.calls.step .taken = some t.calls := by
  have hdropped (h : (if c.cancellationToken then some { c with drainOut := .ended } else none) = some t) :
      t.calls = c.calls := by
    split_ifs at h
    cases h
    rfl
  unfold outDrain at h
  split at h
  · split_ifs at h
    cases h
    exact Or.inl rfl
  · cases h
    exact Or.inl rfl
  · cases h
    exact Or.inl rfl
  · cases h
    exact Or.inl rfl
  · split at h
    · cases h
    · obtain ⟨calls, hcalls, rfl⟩ := Option.map_eq_some_iff.mp h
      exact Or.inr hcalls
  · cases h
    exact Or.inl rfl
  · cases h
    exact Or.inl rfl
  · cases h
    exact Or.inl rfl
  · cases h
    exact Or.inl rfl
  · exact Or.inl (hdropped h)
  · exact Or.inl (hdropped h)
  · exact Or.inl (hdropped h)
  · exact Or.inl (hdropped h)
  · cases h

omit [DecidableEq κ] in
theorem calls_locked {n : NodeIdentity} {re : S2cClient ident × Connecting} :
    (locked n k re).calls = re.1.calls ∧ (locked n k re).admitted = re.1.admitted := by
  unfold locked
  split <;> exact ⟨rfl, rfl⟩

/-- To its requests a client is nothing but the steps of `Calls`. -/
theorem calls_step {e : ClientEvent κ} (h : c.step e = some t) : Reachable Calls.step c.calls t.calls := by
  cases stepped h with
  | connecting hlock hconnected =>
    rename_i n k stage e re
    have hcalls : re.1.calls = c.calls := by cases hconnected <;> rfl
    rw [calls_locked.1, hcalls]
    exact .refl _
  | call k s calls hcall => exact .single (e := .call k s) hcall
  | closing hlock hclosing =>
    cases hclosing <;> exact .refl _
  | drainIn hdrain =>
    cases hdrain with
    | responded m => exact .single (e := .respond m) rfl
    | failedAll err => exact .single (e := .failAll (.io err)) rfl
    | _ => exact .refl _
  | drainOut _ =>
    rcases calls_outDrain h with hsame | htaken
    · rw [hsame]
      exact .refl _
    · exact .single htaken
  | _ => exact .refl _

theorem calls_reachable {maxPendingReqs : ℕ} (h : Reachable step (new ident maxPendingReqs) c) : c.calls.Sound := by
  have hcalls : Reachable Calls.step (Calls.new ident maxPendingReqs) c.calls :=
    reachable_view S2cClient.calls (fun _ _ _ => calls_step) h
  exact invariant (fun _ _ _ => Calls.sound_step) (Calls.sound_new ident maxPendingReqs) hcalls

theorem outDrain_asleep {e : DrainOutEvent} (htoken : c.cancellationToken = true) (hasleep : c.drainOut.asleep = true)
    (h : c.outDrain e = some t) : t = { c with drainOut := .ended } := by
  cases hout : c.drainOut with
  | spawned =>
    simp only [outDrain, hout, htoken] at h
    split at h <;> simp_all
  | ended => simp [outDrain, hout] at h
  | unspawned => simp [outDrain, hout] at h
  | _ => simp [hout, DrainOut.asleep] at hasleep

theorem inDrain_asleep {e : DrainInEvent} (htoken : c.cancellationToken = true) (hasleep : c.drainIn.asleep = true)
    (h : c.inDrain e = some t) : t = { c with drainIn := .ended } := by
  cases hin : c.drainIn with
  | spawned =>
    simp only [inDrain, hin, htoken] at h
    split at h <;> simp_all
  | ended => simp [inDrain, hin] at h
  | unspawned => simp [inDrain, hin] at h
  | _ => simp [hin, DrainIn.asleep] at hasleep

/-- What a client whose token is cancelled has become since `c`, when no task was running. -/
structure Spent (c t : S2cClient ident) : Prop where
  token : t.cancellationToken = true
  drainIn : t.drainIn.asleep = true
  drainOut : t.drainOut.asleep = true
  ready : t.clientState = .ready → c.clientState = .ready
  calls : t.calls.Sound
  admitted : ∀ k, c.admitted k = true → t.admitted k = true
  answered : ∀ k m, t.calls.inflightRequests.slots k = .filled (.ok m) → c.admitted k = true
  connecting : ∀ n k stage, t.rwLock = .connect n k stage → c.admitted k = false ∧ stage ≠ .storingReady

omit [DecidableEq κ] in
theorem spent_refl (hcalls : c.calls.Sound) (htoken : c.cancellationToken = true) (hfree : c.rwLock = .free)
    (hdrained : c.Drained) (hadmitted : ∀ k, c.admitted k = false → c.calls.stages k = .idle) : Spent c c := by
  refine ⟨htoken, by simp [hdrained.1, DrainIn.asleep], by simp [hdrained.2, DrainOut.asleep], id, hcalls,
    fun _ => id, ?_, ?_⟩
  · intro k m hslot
    by_contra hk
    have hidle := hadmitted k (by simpa using hk)
    cases (hcalls.idle k hidle).1.symm.trans hslot
  · intro n k stage hlock
    cases hfree.symm.trans hlock

omit [DecidableEq κ] in
theorem Spent.unadmitted (h : Spent c t) (hk : t.admitted k = false) : c.admitted k = false := by
  by_contra hadmitted
  have htrue := h.admitted k (by simpa using hadmitted)
  cases hk.symm.trans htrue

omit [DecidableEq κ] in
theorem Spent.keep (h : Spent c t) (htoken : u.cancellationToken = true) (hin : u.drainIn.asleep = true)
    (hout : u.drainOut.asleep = true) (hready : u.clientState = .ready → t.clientState = .ready)
    (hcalls : u.calls = t.calls) (hadmitted : ∀ k, t.admitted k = true → u.admitted k = true)
    (hlock : ∀ n k stage, u.rwLock = .connect n k stage → c.admitted k = false ∧ stage ≠ .storingReady) :
    Spent c u := by
  refine ⟨htoken, hin, hout, fun hu => h.ready (hready hu), ?_, fun k hk => hadmitted k (h.admitted k hk), ?_, hlock⟩
  · rw [hcalls]
    exact h.calls
  · rw [hcalls]
    exact h.answered

omit [DecidableEq κ] in
theorem Spent.locked {n : NodeIdentity} {re : S2cClient ident × Connecting} (h : Spent c t)
    (hk : c.admitted k = false) (htoken : re.1.cancellationToken = true) (hin : re.1.drainIn.asleep = true)
    (hout : re.1.drainOut.asleep = true) (hready : re.1.clientState = .ready → t.clientState = .ready)
    (hcalls : re.1.calls = t.calls) (hadmitted : ∀ k, t.admitted k = true → re.1.admitted k = true)
    (hstage : ∀ stage, re.2 = .at stage → stage ≠ .storingReady) : Spent c (S2cClient.locked n k re) := by
  unfold S2cClient.locked
  split
  · rename_i stage hre
    refine h.keep htoken hin hout hready hcalls hadmitted ?_
    intro n' k' stage' hlock
    cases hlock
    exact ⟨hk, hstage _ hre⟩
  · refine h.keep htoken hin hout hready hcalls hadmitted ?_
    intro n' k' stage' hlock
    cases hlock
  · refine h.keep htoken hin hout hready hcalls hadmitted ?_
    intro n' k' stage' hlock
    cases hlock

theorem spent_connecting {n : NodeIdentity} {stage : ConnectStage} {e : ConnectEvent}
    {re : S2cClient ident × Connecting} (h : Spent c t) (hlock : t.rwLock = .connect n k stage)
    (hconnected : Connected t n k stage e re) : Spent c (locked n k re) := by
  obtain ⟨hk, hstage⟩ := h.connecting n k stage hlock
  cases hconnected with
  | answered m handshake hcall hbody =>
    -- the handshake's request is a new one, and nobody has answered it
    have hanswered := h.answered k m (h.calls.ok k m hcall)
    cases hk.symm.trans hanswered
  | readyStored => exact absurd rfl hstage
  | connectedStored => exact h.locked hk h.token rfl rfl (by simp) rfl (fun _ => id) (by simp)
  | spawnedIn => exact h.locked hk h.token rfl h.drainOut id rfl (fun _ => id) (by simp)
  | spawnedOut => exact h.locked hk h.token h.drainIn rfl id rfl (fun _ => FrameRun.admitted_update) (by simp)
  | gaveUp => exact h.locked hk h.token h.drainIn h.drainOut (by simp) rfl (fun _ => id) (by simp)
  | notConnectedStored => exact h.locked hk h.token h.drainIn h.drainOut (by simp) rfl (fun _ => id) (by simp)
  | cancelled => exact h.locked hk rfl h.drainIn h.drainOut id rfl (fun _ => id) (by simp)
  | _ => exact h.locked hk h.token h.drainIn h.drainOut id rfl (fun _ => id) (by simp)

theorem spent_step {e : ClientEvent κ} (h : Spent c t) (hstep : t.step e = some u) : Spent c u := by
  cases e with
  | connect n k =>
    have hk := h.unadmitted (FrameRun.connect_admitted hstep)
    have hlock (stage : ConnectStage) (hstage : stage ≠ .storingReady) (n' : NodeIdentity) (k' : κ)
        (stage' : ConnectStage) (heq : RwLock.connect n k stage = .connect n' k' stage') :
        c.admitted k' = false ∧ stage' ≠ .storingReady := by
      cases heq
      exact ⟨hk, hstage⟩
    cases stepped hstep with
    | refused => exact h
    | reopened => exact h.keep h.token h.drainIn h.drainOut id rfl (fun _ => id) (hlock .opening (by simp))
    | connect => exact h.keep h.token h.drainIn h.drainOut id rfl (fun _ => id) (hlock .waiting (by simp))
  | connecting e =>
    cases stepped hstep with
    | connecting hlock hconnected => exact spent_connecting h hlock hconnected
  | send k =>
    obtain ⟨_, admitted, rfl, hadmitted⟩ := FrameRun.send_admitted hstep
    exact h.keep h.token h.drainIn h.drainOut id rfl hadmitted h.connecting
  | call k s =>
    cases stepped hstep with
    | call _ _ calls hcall =>
      refine ⟨h.token, h.drainIn, h.drainOut, h.ready, Calls.sound_call h.calls hcall, h.admitted, ?_, h.connecting⟩
      intro j m hslot
      by_cases hold : t.calls.inflightRequests.slots j = .filled (.ok m)
      · exact h.answered j m hold
      · -- only a response fills a slot
        obtain ⟨hrespond, _⟩ := Calls.filled_step (e := .call k s) hcall hold hslot
        cases hrespond
  | close =>
    cases stepped hstep with
    | closeRefused => exact h
    | close => exact h.keep h.token h.drainIn h.drainOut id rfl (fun _ => id) (by simp)
  | closing e =>
    cases stepped hstep with
    | closing hlock hclosing =>
      cases hclosing with
      | drained => exact h.keep h.token h.drainIn h.drainOut id rfl (fun _ => id) (by simp)
      | cancelled => exact h.keep rfl h.drainIn h.drainOut id rfl (fun _ => id) (by simp)
      | _ => exact h.keep h.token h.drainIn h.drainOut (by simp) rfl (fun _ => id) (by simp)
  | drainIn e =>
    obtain rfl := inDrain_asleep h.token h.drainIn hstep
    exact h.keep h.token rfl h.drainOut id rfl (fun _ => id) h.connecting
  | drainOut e =>
    obtain rfl := outDrain_asleep h.token h.drainOut hstep
    exact h.keep h.token h.drainIn rfl id rfl (fun _ => id) h.connecting

theorem idle_step {e : ClientEvent κ} (h : ∀ k, c.admitted k = false → c.calls.stages k = .idle)
    (hstep : c.step e = some t) : ∀ k, t.admitted k = false → t.calls.stages k = .idle := by
  cases e with
  | call k s =>
    simp only [step] at hstep
    split_ifs at hstep with hk
    obtain ⟨calls, hcall, rfl⟩ := Option.map_eq_some_iff.mp hstep
    intro j hj
    have hjk : j ≠ k := by
      rintro rfl
      cases hk.symm.trans hj
    rw [← h j hj]
    cases Calls.called hcall <;> exact Calls.stages_enter_of_ne hjk
  | send k =>
    obtain ⟨_, admitted, rfl, hadmitted⟩ := FrameRun.send_admitted hstep
    intro j hj
    apply h
    by_contra htrue
    cases hj.symm.trans (hadmitted j (by simpa using htrue))
  | connecting e =>
    cases stepped hstep with
    | connecting hlock hconnected =>
      rw [calls_locked.1, calls_locked.2]
      cases hconnected with
      | spawnedOut =>
        intro j hj
        apply h
        by_contra htrue
        cases hj.symm.trans (FrameRun.admitted_update (by simpa using htrue))
      | _ => exact h
  | drainIn e =>
    cases stepped hstep with
    | drainIn hdrain => cases hdrain <;> exact h
  | drainOut e =>
    cases stepped hstep with
    | drainOut hdrain => cases hdrain <;> exact h
  | closing e =>
    cases stepped hstep with
    | closing hlock hclosing => cases hclosing <;> exact h
  | _ => cases stepped hstep <;> exact h

/-- A client whose token is cancelled never comes back: it is not `Ready` again, writes no frame, and
no request made from then on is answered, however often it connects. -/
theorem spent_for_good {maxPendingReqs : ℕ} (hreach : Reachable step (new ident maxPendingReqs) c)
    (htoken : c.cancellationToken = true) (hfree : c.rwLock = .free) (hdrained : c.Drained)
    (hlater : Reachable step c t) : (t.clientState = .ready → c.clientState = .ready) ∧
    (∀ k, t.drainOut ≠ .writing k) ∧
    ∀ k, c.admitted k = false → ∀ response, t.calls.stages k ≠ .returned (.ok response) := by
  have hidle : ∀ k, c.admitted k = false → c.calls.stages k = .idle :=
    invariant (I := fun c => ∀ k, c.admitted k = false → c.calls.stages k = .idle) (fun _ _ _ => idle_step)
      (fun _ _ => rfl) hreach
  have hspent : Spent c t := invariant (I := fun t => Spent c t) (fun _ _ _ => spent_step)
    (spent_refl (calls_reachable hreach) htoken hfree hdrained hidle) hlater
  refine ⟨hspent.ready, ?_, ?_⟩
  · intro k hwriting
    have hasleep := hspent.drainOut
    rw [hwriting] at hasleep
    cases hasleep
  · intro k hk response hreturned
    have hanswered := hspent.answered k response (hspent.calls.ok k response hreturned)
    cases hk.symm.trans hanswered

def lost : List (ClientEvent String) := connectedReady ++ readError ++ [.drainOut .checked]

def triedAgain : List (ClientEvent String) :=
  [.connect server "h2", .connecting .waited, .connecting (.opened (.ok ())), .connecting .connectedStored,
    .connecting .spawnedIn, .connecting .spawnedOut, .call "h2" .added, .call "h2" .queued, .drainOut .dropped,
    .call "h2" .timedOut, .call "h2" .discarded]

theorem spent_for_good_sample : ∃ t, exec step (new id 1) (lost ++ triedAgain) = some t ∧
    t.clientState = .connected ∧ ∀ response, t.calls.stages "h2" ≠ .returned (.ok response) := by
  cases hs : exec step (new id 1) lost with
  | none => cases hs
  | some c =>
    cases ht : exec step c triedAgain with
    | none =>
      cases hs
      cases ht
    | some t =>
      have hspent := spent_for_good (t := t) ⟨_, hs⟩
      refine ⟨t, by rw [exec_append, hs]; exact ht, ?_, ?_⟩
      · cases hs
        cases ht
        rfl
      · cases hs
        exact (hspent rfl rfl ⟨rfl, rfl⟩ ⟨_, ht⟩).2.2 "h2" rfl

end S2cClient

end S2c
