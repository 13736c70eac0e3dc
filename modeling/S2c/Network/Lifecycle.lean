import S2c.Network.ClientSteps

namespace S2c

open Machine

namespace DrainIn

def live : DrainIn → Bool
  | .ended => false
  | .unspawned => false
  | _ => true

def erring : DrainIn → Bool
  | .failing _ => true
  | .cancelling => true
  | .storing => true
  | _ => false

def polled : DrainIn → Bool
  | .ended => false
  | .unspawned => false
  | .spawned => false
  | .storing => false
  | _ => true

theorem polled_of_erring {d : DrainIn} (herring : d.erring = true) (hstoring : d ≠ .storing) :
    d.polled = true := by
  cases d <;> simp_all [erring, polled]

end DrainIn

def RwLock.draining {κ : Type} : RwLock κ → Bool
  | .connect _ _ (.draining _) => true
  | .close .draining => true
  | _ => false

namespace DrainOut

variable {κ : Type}

def live : DrainOut κ → Bool
  | .ended => false
  | .unspawned => false
  | _ => true

def erring : DrainOut κ → Bool
  | .storing => true
  | _ => false

theorem erring_of_ne {d : DrainOut κ} (h : d ≠ .storing) : d.erring = false := by
  cases d <;> simp_all [erring]

theorem live_of_ne {d : DrainOut κ} (h : d ≠ .ended ∧ d ≠ .unspawned) : d.live = true := by
  cases d <;> simp_all [live]

end DrainOut

namespace S2cClient

variable {κ : Type} {ident : κ → String} {c t : S2cClient ident} {e : ClientEvent κ} {n : NodeIdentity} {k : κ}

def erring (c : S2cClient ident) : Bool := c.drainIn.erring || c.drainOut.erring

structure Alive (c : S2cClient ident) : Prop where
  drainIn : c.drainIn.live = true
  drainOut : c.drainOut.live = true
  uncancelled : c.cancellationToken = false

def QuietAlive (c : S2cClient ident) : Prop := c.erring = false → c.clientState = .ready → c.Alive

def ReadyAlive (c : S2cClient ident) : Prop := c.rwLock = .free → c.QuietAlive

def StoredAlive (c : S2cClient ident) : Prop := ∀ n k, c.rwLock = .connect n k .returning → c.QuietAlive

/-- `connect` does not store `Ready` over a connection that is already lost. -/
def StoresAlive (c : S2cClient ident) : ClientEvent κ → Prop
  | .connecting .readyStored => c.Alive ∨ c.erring = true
  | _ => True

/-- `connect` does not return `Ok` from a connection that is lost and still `Ready`. -/
def ReturnsAlive (c : S2cClient ident) : ClientEvent κ → Prop
  | .connecting .returned => c.clientState = .ready → c.Alive ∨ c.erring = true
  | _ => True

def holdsLock : ClientEvent κ → Bool
  | .connect _ _ => true
  | .connecting _ => true
  | .close => true
  | .closing _ => true
  | _ => false

structure Sound (c : S2cClient ident) : Prop where
  connecting : ∀ n k stage, c.rwLock = .connect n k stage → stage ≠ .returning → c.clientState ≠ .ready
  closing : ∀ stage, c.rwLock = .close stage → stage ≠ .storing → c.clientState ≠ .ready
  token : c.cancellationToken = true → c.drainIn.polled = true → c.rwLock.draining = true

theorem sound_free (hlock : c.rwLock = .free)
    (hpolled : c.cancellationToken = true → c.drainIn.polled = false) : c.Sound where
  connecting n k stage h := by cases hlock.symm.trans h
  closing stage h := by cases hlock.symm.trans h
  token ht h := by cases (hpolled ht).symm.trans h

theorem sound_new (ident : κ → String) (maxPendingReqs : ℕ) : (new ident maxPendingReqs).Sound :=
  sound_free rfl nofun

theorem storedAlive_of_ne (hlock : ∀ n k, c.rwLock ≠ .connect n k .returning) : c.StoredAlive := by
  intro n k hreturning
  exact absurd hreturning (hlock n k)

theorem Sound.not_polled (hc : c.Sound) (hlock : c.rwLock.draining = false) (ht : c.cancellationToken = true) :
    c.drainIn.polled = false := by
  by_contra hpolled
  have hdraining := hc.token ht (Bool.of_not_eq_false hpolled)
  cases hlock.symm.trans hdraining

theorem Background.state_ready (h : Background c t) (ht : t.clientState = .ready) :
    c.clientState = .ready ∧ c.clientState.running = true := by
  rcases h.clientState with hsame | hlost
  · have hready : c.clientState = .ready := hsame.symm.trans ht
    exact ⟨hready, by rw [hready]; rfl⟩
  · cases hlost.symm.trans ht

theorem Sound.background (hc : c.Sound) (h : Background c t)
    (htoken : t.cancellationToken = true → t.drainIn.polled = true →
      c.cancellationToken = true ∧ c.drainIn.polled = true) : t.Sound := by
  constructor
  · intro n k stage hlock hstage hready
    exact hc.connecting n k stage (h.rwLock.symm.trans hlock) hstage (h.state_ready hready).1
  · intro stage hlock hstage hready
    exact hc.closing stage (h.rwLock.symm.trans hlock) hstage (h.state_ready hready).1
  · intro ht hpolled
    rw [h.rwLock]
    exact hc.token (htoken ht hpolled).1 (htoken ht hpolled).2

variable [DecidableEq κ]

theorem sound_inDrained {e : DrainInEvent} (hc : c.Sound) (h : InDrained c e t) : t.Sound := by
  apply hc.background h.background
  cases h <;> simp_all [DrainIn.polled]

omit [DecidableEq κ] in
theorem sound_outDrained {e : DrainOutEvent} (hc : c.Sound) (h : OutDrained c e t) : t.Sound := by
  apply hc.background h.background
  cases h <;> exact fun ht hpolled => ⟨ht, hpolled⟩

omit [DecidableEq κ] in
theorem sound_closing {stage : CloseStage} {e : CloseEvent} (hc : c.Sound) (hlock : c.rwLock = .close stage)
    (h : Closing c stage e t) : t.Sound := by
  have htoken : c.cancellationToken = true → c.drainIn.polled = true → stage = .draining := by
    intro ht hpolled
    have hdraining := hc.token ht hpolled
    rw [hlock] at hdraining
    cases stage with
    | draining => rfl
    | _ => cases hdraining
  cases h with
  | closedAgain _ =>
    apply sound_free rfl
    intro ht
    by_contra hpolled
    cases htoken ht (Bool.of_not_eq_false hpolled)
  | closedStored =>
    refine ⟨nofun, fun _ _ _ h => (nomatch h), fun ht hpolled => ?_⟩
    cases htoken ht hpolled
  | cancelled => exact ⟨nofun, fun _ _ _ => hc.closing _ hlock (by simp), fun _ _ => rfl⟩
  | drained hdrained =>
    apply sound_free rfl
    intro _
    have hended : c.drainIn = .ended := hdrained.1
    rw [hended]
    rfl

omit [DecidableEq κ] in
theorem sound_locked {re : S2cClient ident × Connecting}
    (hstate : ∀ stage, re.2 = .at stage → stage ≠ .returning → re.1.clientState ≠ .ready)
    (htoken : re.1.cancellationToken = true → re.1.drainIn.polled = true → ∃ err, re.2 = .at (.draining err)) :
    (locked n k re).Sound := by
  obtain ⟨c, stage | _ | _⟩ := re
  · refine ⟨?_, nofun, ?_⟩
    · intro n' k' stage' hlock
      cases hlock
      exact hstate stage rfl
    · intro ht hpolled
      obtain ⟨err, herr⟩ := htoken ht hpolled
      cases herr
      rfl
  all_goals
    apply sound_free rfl
    intro ht
    by_contra hpolled
    obtain ⟨err, herr⟩ := htoken ht (Bool.of_not_eq_false hpolled)
    cases herr

theorem sound_connecting {stage : ConnectStage} {e : ConnectEvent} {re : S2cClient ident × Connecting}
    (hc : c.Sound) (hlock : c.rwLock = .connect n k stage) (h : Connected c n k stage e re) :
    (locked n k re).Sound := by
  have hstate := hc.connecting n k stage hlock
  have htoken : c.cancellationToken = true → c.drainIn.polled = true → ∃ err, stage = .draining err := by
    intro ht hpolled
    have hdraining := hc.token ht hpolled
    rw [hlock] at hdraining
    cases stage with
    | draining err => exact ⟨err, rfl⟩
    | _ => cases hdraining
  apply sound_locked
  · intro stage' hstage hreturning
    cases h <;> simp_all
  · intro ht hpolled
    cases h with
    | cancelled err => exact ⟨err, rfl⟩
    | drained _ hdrained =>
      have hended : c.drainIn = .ended := hdrained.1
      simp [hended, DrainIn.polled] at hpolled
    | connectedStored => cases hpolled
    | spawnedIn => cases hpolled
    | _ =>
      obtain ⟨err, herr⟩ := htoken ht hpolled
      cases herr

theorem sound_step (hc : c.Sound) (h : c.step e = some t) : t.Sound := by
  cases stepped h with
  | refused => exact hc
  | reopened hlock n k hstate _ =>
    refine ⟨fun _ _ _ _ _ => by simp [hstate], nofun, fun ht hpolled => ?_⟩
    cases (hc.not_polled (by rw [hlock]; rfl) ht).symm.trans hpolled
  | connect hlock n k hstate =>
    refine ⟨fun _ _ _ _ _ => by simp [hstate], nofun, fun ht hpolled => ?_⟩
    cases (hc.not_polled (by rw [hlock]; rfl) ht).symm.trans hpolled
  | connecting hlock hstep => exact sound_connecting hc hlock hstep
  | send => exact ⟨hc.connecting, hc.closing, hc.token⟩
  | call => exact ⟨hc.connecting, hc.closing, hc.token⟩
  | closeRefused => exact hc
  | close hlock =>
    refine ⟨nofun, fun stage hstage hstoring => ?_, fun ht hpolled => ?_⟩
    · cases hstage
      exact absurd rfl hstoring
    · cases (hc.not_polled (by rw [hlock]; rfl) ht).symm.trans hpolled
  | closing hlock hstep => exact sound_closing hc hlock hstep
  | drainIn hstep => exact sound_inDrained hc hstep
  | drainOut hstep => exact sound_outDrained hc hstep

omit [DecidableEq κ] in
theorem readyAlive_new (ident : κ → String) (maxPendingReqs : ℕ) : (new ident maxPendingReqs).ReadyAlive :=
  nofun

theorem readyAlive_connecting {stage : ConnectStage} {e : ConnectEvent} {re : S2cClient ident × Connecting}
    (hc : c.Sound) (hlock : c.rwLock = .connect n k stage) (h : Connected c n k stage e re) :
    (locked n k re).ReadyAlive ↔ c.ReturnsAlive (.connecting e) := by
  have hstate := hc.connecting n k stage hlock
  cases h with
  | returned =>
    constructor
    · intro halive hready
      by_cases herring : c.erring = true
      · exact .inr herring
      · have hquiet : c.erring = false := by simpa using herring
        have hboth := halive rfl hquiet hready
        exact .inl ⟨hboth.drainIn, hboth.drainOut, hboth.uncancelled⟩
    · intro hreturns _ hquiet hready
      rcases hreturns hready with halive | herring
      · exact ⟨halive.drainIn, halive.drainOut, halive.uncancelled⟩
      · cases herring.symm.trans hquiet
  | refused => exact iff_of_true (fun _ _ hready => absurd hready (hstate (by simp))) trivial
  | panicked => exact iff_of_true (fun _ _ hready => absurd hready (hstate (by simp))) trivial
  | drained => exact iff_of_true (fun _ _ hready => absurd hready (hstate (by simp))) trivial
  | gaveUp => exact iff_of_true nofun trivial
  | _ => exact iff_of_true nofun trivial

theorem storedAlive_connecting {stage : ConnectStage} {e : ConnectEvent} {re : S2cClient ident × Connecting}
    (hstores : c.StoresAlive (.connecting e)) (h : Connected c n k stage e re) : (locked n k re).StoredAlive := by
  cases h with
  | readyStored =>
    intro _ _ _ hquiet _
    rcases hstores with halive | herring
    · exact ⟨halive.drainIn, halive.drainOut, halive.uncancelled⟩
    · cases herring.symm.trans hquiet
  | _ => exact storedAlive_of_ne (by simp [locked])

theorem quietAlive_inDrained {e : DrainInEvent} (hpolled : c.cancellationToken = true → c.drainIn.polled = false)
    (hi : c.QuietAlive) (h : InDrained c e t) : t.QuietAlive := by
  intro herring hready
  obtain ⟨hready', hrunning⟩ := h.background.state_ready hready
  by_cases hbranch : c.erring = true
  · -- the error branch is left by storing `NotConnected`, or by a token that is cancelled elsewhere
    have hin : c.drainIn.erring = true := by
      have hdrainOut : t.drainOut = c.drainOut := by cases h <;> rfl
      simp_all [erring]
    cases h with
    | stopped _ _ hstop => cases hstop.symm.trans hrunning
    | failedAll => cases herring
    | cancelled => cases herring
    | notConnectedStored => cases hready
    | dropped htoken _ hstoring => cases (hpolled htoken).symm.trans (DrainIn.polled_of_erring hin hstoring)
    | replied _ hfrom => cases (hfrom ▸ hin :)
    | handled _ hfrom => cases (hfrom ▸ hin :)
    | responded _ hfrom => cases (hfrom ▸ hin :)
    | _ hfrom => cases (hfrom ▸ hin :)
  · have halive := hi (by simpa using hbranch) hready'
    cases h with
    | stopped _ _ hstop => cases hstop.symm.trans hrunning
    | failed => cases herring
    | failedAll => cases herring
    | cancelled => cases herring
    | notConnectedStored => cases hready
    | dropped htoken => cases halive.uncancelled.symm.trans htoken
    | _ => exact ⟨rfl, halive.drainOut, halive.uncancelled⟩

omit [DecidableEq κ] in
theorem quietAlive_outDrained {e : DrainOutEvent} (hi : c.QuietAlive) (h : OutDrained c e t) : t.QuietAlive := by
  intro herring hready
  obtain ⟨hready', hrunning⟩ := h.background.state_ready hready
  have halive : c.drainOut.erring = false → c.Alive := by
    intro hout
    have hin : c.drainIn.erring = false := by cases h <;> simp_all [erring]
    exact hi (by simp [erring, hin, hout]) hready'
  cases h with
  | stopped _ _ hstop => cases hstop.symm.trans hrunning
  | notConnectedStored => cases hready
  | dropped htoken hfrom =>
    have hout : c.drainOut.erring = false := DrainOut.erring_of_ne hfrom.2.2
    cases (halive hout).uncancelled.symm.trans htoken
  | moved _ _ hfrom _ _ stage hto =>
    have hout : c.drainOut.erring = false := DrainOut.erring_of_ne hfrom.2.2
    exact ⟨(halive hout).drainIn, DrainOut.live_of_ne hto, (halive hout).uncancelled⟩

theorem rwLock_step (h : c.step e = some t) (he : holdsLock e = false) : t.rwLock = c.rwLock := by
  cases stepped h with
  | send => rfl
  | call => rfl
  | drainIn hstep => exact hstep.background.rwLock
  | drainOut hstep => exact hstep.background.rwLock
  | _ => cases he

theorem quietAlive_step (hc : c.Sound) (hlock : c.rwLock.draining = false) (hi : c.QuietAlive)
    (h : c.step e = some t) (he : holdsLock e = false) : t.QuietAlive := by
  have hkeep {s : S2cClient ident} (hin : s.drainIn = c.drainIn) (hout : s.drainOut = c.drainOut)
      (hstate : s.clientState = c.clientState) (htoken : s.cancellationToken = c.cancellationToken) :
      s.QuietAlive := by
    intro herring hready
    have halive := hi (by simpa [erring, hin, hout] using herring) (hstate.symm.trans hready)
    exact ⟨hin ▸ halive.drainIn, hout ▸ halive.drainOut, htoken ▸ halive.uncancelled⟩
  cases stepped h with
  | send => exact hkeep rfl rfl rfl rfl
  | call => exact hkeep rfl rfl rfl rfl
  | drainIn hstep => exact quietAlive_inDrained (hc.not_polled hlock) hi hstep
  | drainOut hstep => exact quietAlive_outDrained hi hstep
  | _ => cases he

omit [DecidableEq κ] in
theorem returnsAlive_of_holdsLock (c : S2cClient ident) (he : holdsLock e = false) : c.ReturnsAlive e := by
  cases e with
  | connecting => cases he
  | _ => trivial

theorem readyAlive_step (hc : c.Sound) (hi : c.ReadyAlive) (h : c.step e = some t) :
    t.ReadyAlive ↔ c.ReturnsAlive e := by
  by_cases he : holdsLock e = true
  · cases stepped h with
    | refused => exact iff_of_true hi trivial
    | connecting hlock hstep => exact readyAlive_connecting hc hlock hstep
    | closeRefused => exact iff_of_true hi trivial
    | closing hlock hstep =>
      cases hstep with
      | drained =>
        have hstate := hc.closing _ hlock (by simp)
        exact iff_of_true (fun _ _ hready => absurd hready hstate) trivial
      | _ => exact iff_of_true nofun trivial
    | reopened => exact iff_of_true nofun trivial
    | connect => exact iff_of_true nofun trivial
    | close => exact iff_of_true nofun trivial
    | _ => cases he
  · have hfree := rwLock_step h (by simpa using he)
    refine iff_of_true ?_ (returnsAlive_of_holdsLock c (by simpa using he))
    intro hlock
    have hlock' : c.rwLock = .free := hfree.symm.trans hlock
    exact quietAlive_step hc (by rw [hlock']; rfl) (hi hlock') h (by simpa using he)

theorem storedAlive_step (hc : c.Sound) (hi : c.StoredAlive) (hstores : c.StoresAlive e) (h : c.step e = some t) :
    t.StoredAlive ∧ c.ReturnsAlive e := by
  by_cases he : holdsLock e = true
  · cases stepped h with
    | refused => exact ⟨hi, trivial⟩
    | closeRefused => exact ⟨hi, trivial⟩
    | connecting hlock hstep =>
      refine ⟨storedAlive_connecting hstores hstep, ?_⟩
      cases hstep with
      | returned =>
        intro hready
        by_cases herring : c.erring = true
        · exact .inr herring
        · exact .inl (hi _ _ hlock (by simpa using herring) hready)
      | _ => trivial
    | closing hlock hstep =>
      refine ⟨storedAlive_of_ne ?_, trivial⟩
      cases hstep <;> simp
    | reopened => exact ⟨storedAlive_of_ne (by simp), trivial⟩
    | connect => exact ⟨storedAlive_of_ne (by simp), trivial⟩
    | close => exact ⟨storedAlive_of_ne (by simp), trivial⟩
    | _ => cases he
  · refine ⟨?_, returnsAlive_of_holdsLock c (by simpa using he)⟩
    intro n k hconnect
    have hlock : c.rwLock = .connect n k .returning := (rwLock_step h (by simpa using he)).symm.trans hconnect
    exact quietAlive_step hc (by rw [hlock]; rfl) (hi n k hlock) h (by simpa using he)

theorem returnsAlive_of_storesAlive {maxPendingReqs : ℕ} {es : List (ClientEvent κ)}
    (h : Along step StoresAlive (new ident maxPendingReqs) es) :
    Along step ReturnsAlive (new ident maxPendingReqs) es := by
  apply Along.mono (I := fun c => c.Sound ∧ c.StoredAlive) _ ⟨sound_new ident maxPendingReqs, nofun⟩ h
  rintro c e t ⟨hc, hi⟩ hstores hstep
  obtain ⟨ht, hreturns⟩ := storedAlive_step hc hi hstores hstep
  exact ⟨⟨sound_step hc hstep, ht⟩, hreturns⟩

theorem readyAlive_iff (ident : κ → String) (maxPendingReqs : ℕ) (es : List (ClientEvent κ)) :
    (Always step ReadyAlive (new ident maxPendingReqs) es ↔
      Along step ReturnsAlive (new ident maxPendingReqs) es) ∧
    (Along step StoresAlive (new ident maxPendingReqs) es →
      Along step ReturnsAlive (new ident maxPendingReqs) es) := by
  refine ⟨?_, returnsAlive_of_storesAlive⟩
  exact always_iff_along (fun _ _ _ hc _ => sound_step hc) (fun _ _ _ => readyAlive_step)
    (sound_new ident maxPendingReqs) (readyAlive_new ident maxPendingReqs)

def server : NodeIdentity := ⟨"n1", "h1", 1, "a"⟩

def handshakeSent : List (ClientEvent String) :=
  [.connect server "h", .connecting .waited, .connecting (.opened (.ok ())), .connecting .connectedStored,
    .connecting .spawnedIn, .connecting .spawnedOut, .call "h" .added, .call "h" .queued, .drainIn .started,
    .drainIn .checked, .drainOut .started, .drainOut .checked, .drainOut .throttleLoaded, .drainOut .received,
    .drainOut .handled, .drainOut (.written true)]

def handshakeReply : S2cMessage := ⟨"h", some (.handshake ⟨"g", none⟩), none⟩

def handshakeAnswered : List (ClientEvent String) :=
  [.drainIn (.read (.ok handshakeReply)), .drainIn .handled, .drainIn .responded, .call "h" .received]

def readError : List (ClientEvent String) :=
  [.drainIn .checked, .drainIn (.read (.error (.io "UnexpectedEof" "unexpected end of file"))), .drainIn .failedAll,
    .drainIn .cancelled, .drainIn .notConnectedStored]

def answeredAndClosed : List (ClientEvent String) :=
  handshakeSent ++ handshakeAnswered ++ readError ++
    [.connecting .handshaken, .connecting .readyStored, .connecting .returned]

theorem readyAlive_fails : ∃ t, exec step (new id 1) answeredAndClosed = some t ∧ t.rwLock = .free ∧
    t.erring = false ∧ t.clientState = .ready ∧ t.drainIn = .ended ∧ t.cancellationToken = true ∧
    ¬Always step ReadyAlive (new id 1) answeredAndClosed := by
  refine ⟨_, rfl, rfl, rfl, rfl, rfl, rfl, ?_⟩
  intro h
  have halive := h answeredAndClosed (List.prefix_refl _) _ rfl rfl rfl rfl
  cases halive.uncancelled

def StaysClosed (c : S2cClient ident) : Prop :=
  c.clientState = .closed ∧ ∀ n k stage, c.rwLock ≠ .connect n k stage

def storesNotConnected : ClientEvent κ → Bool
  | .drainIn .notConnectedStored => true
  | .drainOut .notConnectedStored => true
  | _ => false

omit [DecidableEq κ] in
theorem storesNotConnected_of_ne {e : DrainOutEvent} (he : e ≠ .notConnectedStored) :
    storesNotConnected (.drainOut e : ClientEvent κ) = false := by
  cases e <;> first | rfl | exact absurd rfl he

theorem staysClosed_step (hi : c.StaysClosed) (h : c.step e = some t) :
    t.StaysClosed ↔ storesNotConnected e = false := by
  cases stepped h with
  | refused => exact iff_of_true hi rfl
  | reopened _ _ _ hstate => cases hi.1.symm.trans hstate
  | connect _ _ _ hstate => cases hi.1.symm.trans hstate
  | connecting hlock => exact absurd hlock (hi.2 _ _ _)
  | send => exact iff_of_true hi rfl
  | call => exact iff_of_true hi rfl
  | closeRefused => exact iff_of_true hi rfl
  | close => exact iff_of_true ⟨hi.1, nofun⟩ rfl
  | closing _ hstep =>
    cases hstep with
    | closedAgain => exact iff_of_true ⟨rfl, nofun⟩ rfl
    | closedStored => exact iff_of_true ⟨rfl, nofun⟩ rfl
    | cancelled => exact iff_of_true ⟨hi.1, nofun⟩ rfl
    | drained => exact iff_of_true ⟨hi.1, nofun⟩ rfl
  | drainIn hstep =>
    cases hstep with
    | stopped _ he => rcases he with rfl | rfl <;> exact iff_of_true hi rfl
    | notConnectedStored => exact iff_of_false (fun h => nomatch h.1) nofun
    | _ => exact iff_of_true hi rfl
  | drainOut hstep =>
    cases hstep with
    | stopped _ he => rcases he with rfl | rfl <;> exact iff_of_true hi rfl
    | moved _ he => exact iff_of_true hi (storesNotConnected_of_ne he)
    | notConnectedStored => exact iff_of_false (fun h => nomatch h.1) nofun
    | dropped => exact iff_of_true hi rfl

theorem staysClosed_closing (h : c.step (.closing .closedStored) = some t) : t.StaysClosed := by
  cases stepped h with
  | closing hlock hstep => cases hstep <;> exact ⟨rfl, nofun⟩

theorem staysClosed_iff (h : c.step (.closing .closedStored) = some t) (es : List (ClientEvent κ)) :
    Always step StaysClosed t es ↔ Along step (fun _ e => storesNotConnected e = false) t es :=
  always_iff_along (J := fun _ => True) (fun _ _ _ _ _ _ => trivial) (fun _ _ _ _ => staysClosed_step) trivial
    (staysClosed_closing h)

def connectedReady : List (ClientEvent String) :=
  handshakeSent ++ handshakeAnswered ++ [.connecting .handshaken, .connecting .readyStored, .connecting .returned]

def closeAll : List (ClientEvent String) :=
  [.closing .cancelled, .drainIn .checked, .drainOut .checked, .closing .drained]

theorem staysClosed_iff_sample : ∃ s t, exec step (new id 1) (connectedReady ++ [.close]) = some s ∧
    s.step (.closing .closedStored) = some t ∧
    (Always step StaysClosed t closeAll ↔ Along step (fun _ e => storesNotConnected e = false) t closeAll) := by
  obtain ⟨s, t, hs, ht⟩ : ∃ s t, exec step (new id 1) (connectedReady ++ [.close]) = some s ∧
      s.step (.closing .closedStored) = some t := ⟨_, _, rfl, rfl⟩
  exact ⟨s, t, hs, ht, staysClosed_iff ht closeAll⟩

def closeBetween : List (ClientEvent String) :=
  [.drainIn .notConnectedStored, .drainOut .checked, .closing .cancelled, .closing .drained,
    .connect server "h2", .connecting (.opened (.ok ()))]

theorem staysClosed_fails : ∃ s t u, exec step (new id 1)
      (connectedReady ++ readError.dropLast ++ [.close]) = some s ∧
    s.step (.closing .closedStored) = some t ∧ t.clientState = .closed ∧ exec step t closeBetween = some u ∧
    u.rwLock = .connect server "h2" .storingConnected ∧ ¬Always step StaysClosed t closeBetween := by
  refine ⟨_, _, _, rfl, rfl, rfl, rfl, rfl, ?_⟩
  intro h
  cases (h closeBetween (List.prefix_refl _) _ rfl).1

end S2cClient

end S2c
