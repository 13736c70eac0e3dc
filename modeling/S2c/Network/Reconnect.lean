import S2c.Network.Lifecycle

namespace S2c

open Machine

def ConnectStage.opened : ConnectStage → Bool
  | .waiting => false
  | .opening => false
  | _ => true

def ConnectStage.tracks : ConnectStage → Bool
  | .waiting => false
  | .cancelling _ => false
  | .draining _ => false
  | _ => true

namespace S2cClient

section Token

variable {κ : Type}

def cancels : ClientEvent κ → Bool
  | .connecting .cancelled => true
  | .closing .cancelled => true
  | .drainIn .cancelled => true
  | _ => false

def spawns : ClientEvent κ → Bool
  | .connecting .spawnedIn => true
  | .connecting .spawnedOut => true
  | _ => false

end Token

variable {κ : Type} {ident : κ → String} [DecidableEq κ] {c t : S2cClient ident} {e : ClientEvent κ}
  {n : NodeIdentity} {k : κ} {es : List (ClientEvent κ)}

def SpawnsUncancelled (c : S2cClient ident) (e : ClientEvent κ) : Prop :=
  spawns e = true → c.cancellationToken = false

theorem cancellationToken_step (h : c.step e = some t) :
    t.cancellationToken = (c.cancellationToken || cancels e) := by
  cases stepped h with
  | connecting _ hstep => cases hstep <;> simp [locked, cancels]
  | closing _ hstep => cases hstep <;> simp [cancels]
  | drainIn hstep =>
    cases hstep with
    | stopped _ he => rcases he with rfl | rfl <;> simp [cancels]
    | _ => simp [cancels]
  | drainOut hstep => cases hstep <;> simp [cancels]
  | _ => simp [cancels]

theorem spawnsUncancelled_exec (h : exec step c es = some t) :
    Along step SpawnsUncancelled c es ↔ (c.cancellationToken = true → ∀ e ∈ es, spawns e = false) ∧
      es.Pairwise (fun e e' => cancels e = true → spawns e' = false) := by
  induction es generalizing c with
  | nil => simp [Along]
  | cons e es ih =>
    obtain ⟨m, hm, hes⟩ := Option.bind_eq_some_iff.mp h
    rw [along_cons hm, ih hes, cancellationToken_step hm, List.pairwise_cons, List.forall_mem_cons]
    unfold SpawnsUncancelled
    cases c.cancellationToken <;> cases hcancels : cancels e <;> cases spawns e <;> simp_all

theorem spawnsUncancelled_iff {maxPendingReqs : ℕ} (h : exec step (new ident maxPendingReqs) es = some t) :
    Along step SpawnsUncancelled (new ident maxPendingReqs) es ↔
      es.Pairwise (fun e e' => cancels e = true → spawns e' = false) := by
  rw [spawnsUncancelled_exec h]
  simp [new]

theorem spawnsUncancelled_iff_sample : ∃ t, exec step (new id 1) connectedReady = some t ∧
    (Along step SpawnsUncancelled (new id 1) connectedReady ↔
      connectedReady.Pairwise (fun e e' => cancels e = true → spawns e' = false)) :=
  ⟨_, rfl, spawnsUncancelled_iff rfl⟩

def lostAndReconnected : List (ClientEvent String) :=
  connectedReady ++ readError ++ [.drainOut .checked, .connect server "h2", .connecting .waited,
    .connecting (.opened (.ok ())), .connecting .connectedStored, .connecting .spawnedIn]

theorem spawnsUncancelled_fails : ∃ t, exec step (new id 1) lostAndReconnected = some t ∧
    t.rwLock = .connect server "h2" .spawningOut ∧ t.drainIn = .spawned ∧ t.cancellationToken = true ∧
    (∀ e ∈ lostAndReconnected, e ≠ .close) ∧
    ¬Along step SpawnsUncancelled (new id 1) lostAndReconnected := by
  refine ⟨_, rfl, rfl, rfl, rfl, ?_, ?_⟩
  · simp [lostAndReconnected, connectedReady, handshakeSent, handshakeAnswered, readError]
  · intro h
    have hpairs := ((spawnsUncancelled_exec (c := new id 1) rfl).mp h).2
    revert hpairs
    decide

structure Tracked (c : S2cClient ident) : Prop where
  free : c.rwLock = .free → c.trackerClosed = true → c.Drained
  close : c.rwLock = .close .storing → c.trackerClosed = true → c.Drained
  opening : ∀ n k stage, c.rwLock = .connect n k stage → stage = .opening ∨ stage = .storingConnected → c.Drained
  reopened : ∀ n k stage, c.rwLock = .connect n k stage → stage.tracks = true → c.trackerClosed = false

omit [DecidableEq κ] in
theorem Tracked.background (hc : c.Tracked) (h : Background c t) (hdrained : c.Drained → t.Drained) :
    t.Tracked := by
  constructor
  · rw [h.rwLock, h.trackerClosed]
    exact fun hlock htracker => hdrained (hc.free hlock htracker)
  · rw [h.rwLock, h.trackerClosed]
    exact fun hlock htracker => hdrained (hc.close hlock htracker)
  · rw [h.rwLock]
    exact fun n k stage hlock hstage => hdrained (hc.opening n k stage hlock hstage)
  · rw [h.rwLock, h.trackerClosed]
    exact hc.reopened

omit [DecidableEq κ] in
theorem tracked_free (hlock : c.rwLock = .free) (hfree : c.trackerClosed = true → c.Drained) : c.Tracked where
  free _ := hfree
  close h := by cases hlock.symm.trans h
  opening n k stage h := by cases hlock.symm.trans h
  reopened n k stage h := by cases hlock.symm.trans h

omit [DecidableEq κ] in
theorem tracked_new (ident : κ → String) (maxPendingReqs : ℕ) : (new ident maxPendingReqs).Tracked :=
  tracked_free rfl nofun

omit [DecidableEq κ] in
theorem tracked_close {stage : CloseStage} (hlock : c.rwLock = .close stage)
    (hclose : stage = .storing → c.trackerClosed = true → c.Drained) : c.Tracked where
  free h := by cases hlock.symm.trans h
  close h := by
    cases hlock.symm.trans h
    exact hclose rfl
  opening n k stage h := by cases hlock.symm.trans h
  reopened n k stage h := by cases hlock.symm.trans h

omit [DecidableEq κ] in
theorem tracked_locked {re : S2cClient ident × Connecting}
    (hfree : (∀ stage, re.2 ≠ .at stage) → re.1.trackerClosed = true → re.1.Drained)
    (hopening : ∀ stage, re.2 = .at stage → stage = .opening ∨ stage = .storingConnected → re.1.Drained)
    (hopen : ∀ stage, re.2 = .at stage → stage.tracks = true → re.1.trackerClosed = false) :
    (locked n k re).Tracked := by
  obtain ⟨c, stage | _ | _⟩ := re
  · refine ⟨nofun, nofun, ?_, ?_⟩
    · intro n' k' stage' hlock
      cases hlock
      exact hopening stage rfl
    · intro n' k' stage' hlock
      cases hlock
      exact hopen stage rfl
  · exact tracked_free rfl (hfree nofun)
  · exact tracked_free rfl (hfree nofun)

theorem tracked_connecting {stage : ConnectStage} {e : ConnectEvent} {re : S2cClient ident × Connecting}
    (hc : c.Tracked) (hlock : c.rwLock = .connect n k stage) (h : Connected c n k stage e re) :
    (locked n k re).Tracked := by
  have hopening := hc.opening n k stage hlock
  have hopen := hc.reopened n k stage hlock
  apply tracked_locked
  · intro hleaves htracker
    cases h with
    | drained _ hdrained => exact hdrained
    | gaveUp _ htracker' => cases (hopen rfl).symm.trans htracker'
    | refused => exact hopening (.inl rfl)
    | panicked => cases (hopen rfl).symm.trans htracker
    | returned => cases (hopen rfl).symm.trans htracker
    | _ => exact absurd rfl (hleaves _)
  · intro stage' hstage hstages
    cases h with
    | waited hdrained => exact hdrained
    | opened => exact hopening (.inl rfl)
    | _ => cases hstage <;> rcases hstages with h | h <;> cases h
  · intro stage' hstage htracks
    cases h with
    | waited => rfl
    | notConnectedStored => cases hstage; cases htracks
    | cancelled => cases hstage; cases htracks
    | refused => cases hstage
    | panicked => cases hstage
    | returned => cases hstage
    | gaveUp => cases hstage
    | drained => cases hstage
    | _ => exact hopen rfl

omit [DecidableEq κ] in
theorem tracked_closing {stage : CloseStage} {e : CloseEvent} (hc : c.Tracked) (hlock : c.rwLock = .close stage)
    (h : Closing c stage e t) : t.Tracked := by
  cases h with
  | closedAgain htracker => exact tracked_free rfl (fun _ => hc.close hlock htracker)
  | drained hdrained => exact tracked_free rfl (fun _ => hdrained)
  | _ => exact tracked_close rfl nofun

theorem tracked_step (hc : c.Tracked) (h : c.step e = some t) : t.Tracked := by
  cases stepped h with
  | reopened hfree _ _ _ htracker =>
    refine ⟨nofun, nofun, fun _ _ _ _ _ => hc.free hfree htracker, fun _ _ _ _ _ => rfl⟩
  | connect =>
    refine ⟨nofun, nofun, ?_, ?_⟩
    · intro n k stage hlock hstage
      cases hlock
      cases hstage <;> contradiction
    · intro n k stage hlock hstage
      cases hlock
      cases hstage
  | connecting hlock hstep => exact tracked_connecting hc hlock hstep
  | close hfree => exact tracked_close rfl (fun _ => hc.free hfree)
  | closing hlock hstep => exact tracked_closing hc hlock hstep
  | drainIn hstep => exact hc.background hstep.background (fun hd => absurd hd.1 hstep.not_ended)
  | drainOut hstep => exact hc.background hstep.background (fun hd => absurd hd.2 hstep.not_ended)
  | refused => exact hc
  | closeRefused => exact hc
  | send => exact ⟨hc.free, hc.close, hc.opening, hc.reopened⟩
  | call => exact ⟨hc.free, hc.close, hc.opening, hc.reopened⟩

def connectReturns (c : S2cClient ident) : ClientEvent κ → Option (NodeIdentity × Except ClientError Unit)
  | .connect n _ =>
    match c.connect.2 with
    | .returned re => some (n, re)
    | _ => none
  | .connecting e =>
    match c.rwLock with
    | .connect n k stage =>
      match c.connecting n k stage e with
      | some (_, .returned re) => some (n, re)
      | _ => none
    | _ => none
  | _ => none

def Addressed (c : S2cClient ident) : Prop :=
  ∀ n k stage, c.rwLock = .connect n k stage → stage.opened = true → c.connection = some n.addr

omit [DecidableEq κ] in
theorem Addressed.background (hc : c.Addressed) (h : Background c t) : t.Addressed := by
  intro n k stage hlock hstage
  rw [h.connection]
  exact hc n k stage (h.rwLock.symm.trans hlock) hstage

end S2cClient

end S2c
