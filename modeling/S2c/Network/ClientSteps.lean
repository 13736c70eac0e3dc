import S2c.Network.Client

namespace S2c.S2cClient

variable {κ : Type} {ident : κ → String} [DecidableEq κ] {c t : S2cClient ident} {n : NodeIdentity} {k : κ}

inductive Connected (c : S2cClient ident) (n : NodeIdentity) (k : κ) :
    ConnectStage → ConnectEvent → S2cClient ident × Connecting → Prop where
  | waited (hdrained : c.Drained) :
      Connected c n k .waiting .waited ({ c with trackerClosed := false }, .at .opening)
  | refused (err : ClientError) : Connected c n k .opening (.opened (.error err)) (c, .returned (.error err))
  | opened : Connected c n k .opening (.opened (.ok ()))
      ({ c with connection := some n.addr }, .at .storingConnected)
  | connectedStored : Connected c n k .storingConnected .connectedStored
      ({ c with clientState := .connected, drainIn := .unspawned, drainOut := .unspawned }, .at .spawningIn)
  | spawnedIn : Connected c n k .spawningIn .spawnedIn ({ c with drainIn := .spawned }, .at .spawningOut)
  | spawnedOut : Connected c n k .spawningOut .spawnedOut
      ({ c with drainOut := .spawned, admitted := Function.update c.admitted k true }, .at .handshaking)
  | answered (m : S2cMessage) (h : Handshake) (hcall : c.calls.stages k = .returned (.ok m))
      (hbody : m.body = some (.handshake h)) : Connected c n k .handshaking .handshaken (c, .at .storingReady)
  | panicked : Connected c n k .handshaking .handshaken (c, .panicked)
  | unanswered (err : ClientError) (hcall : c.calls.stages k = .returned (.error err)) :
      Connected c n k .handshaking .handshaken (c, .at (.storingNotConnected err))
  | readyStored : Connected c n k .storingReady .readyStored ({ c with clientState := .ready }, .at .returning)
  | returned : Connected c n k .returning .returned (c, .returned (.ok ()))
  | gaveUp (err : ClientError) (htracker : c.trackerClosed = true) :
      Connected c n k (.storingNotConnected err) .notConnectedStored
        ({ c with clientState := .notConnected }, .returned (.error err))
  | notConnectedStored (err : ClientError) : Connected c n k (.storingNotConnected err) .notConnectedStored
      ({ c with clientState := .notConnected, trackerClosed := true }, .at (.cancelling err))
  | cancelled (err : ClientError) : Connected c n k (.cancelling err) .cancelled
      ({ c with cancellationToken := true }, .at (.draining err))
  | drained (err : ClientError) (hdrained : c.Drained) :
      Connected c n k (.draining err) .drained (c, .returned (.error err))

theorem connected {stage : ConnectStage} {e : ConnectEvent} {re : S2cClient ident × Connecting}
    (h : c.connecting n k stage e = some re) : Connected c n k stage e re := by
  unfold connecting at h
  split at h
  · split_ifs at h with hdrained
    cases h
    exact .waited hdrained
  · cases h
    exact .refused _
  · cases h
    exact .opened
  · cases h
    exact .connectedStored
  · cases h
    exact .spawnedIn
  · cases h
    exact .spawnedOut
  · split at h
    · split at h
      · cases h
        exact .answered _ _ ‹_› ‹_›
      · cases h
        exact .panicked
    · cases h
      exact .unanswered _ ‹_›
    · cases h
  · cases h
    exact .readyStored
  · cases h
    exact .returned
  · split_ifs at h with htracker
    · cases h
      exact .gaveUp _ htracker
    · cases h
      exact .notConnectedStored _
  · cases h
    exact .cancelled _
  · split_ifs at h with hdrained
    cases h
    exact .drained _ hdrained
  · cases h

inductive InDrained (c : S2cClient ident) : DrainInEvent → S2cClient ident → Prop where
  | started (hfrom : c.drainIn = .spawned) (htoken : c.cancellationToken = false) :
      InDrained c .started { c with drainIn := .checking }
  | checked (hfrom : c.drainIn = .checking) : InDrained c .checked { c with drainIn := .reading }
  | stopped (e : DrainInEvent) (he : e = .checked ∨ e = .handled) (hrunning : c.clientState.running = false)
      (hfrom : c.drainIn ≠ .ended) : InDrained c e { c with drainIn := .ended }
  | read (hfrom : c.drainIn = .reading) (m : S2cMessage) :
      InDrained c (.read (.ok m)) { c with drainIn := .handling m }
  | failed (hfrom : c.drainIn = .reading) (err : NetworkError) :
      InDrained c (.read (.error err)) { c with drainIn := .failing err }
  | replied (m : S2cMessage) (hfrom : c.drainIn = .handling m) (herror : m.error ≠ none) (throttle : Bool) :
      InDrained c .handled { c with throttle := throttle, drainIn := .checking }
  | handled (m : S2cMessage) (hfrom : c.drainIn = .handling m) (herror : m.error = none) :
      InDrained c .handled { c with drainIn := .responding m }
  | responded (m : S2cMessage) (hfrom : c.drainIn = .responding m) :
      InDrained c .responded { c with
        calls := { c.calls with inflightRequests := c.calls.inflightRequests.respond m }, drainIn := .checking }
  | failedAll (err : NetworkError) (hfrom : c.drainIn = .failing err) :
      InDrained c .failedAll { c with
        calls := { c.calls with inflightRequests := c.calls.inflightRequests.failAll (.io err) }
        drainIn := .cancelling }
  | cancelled (hfrom : c.drainIn = .cancelling) :
      InDrained c .cancelled { c with cancellationToken := true, drainIn := .storing }
  | notConnectedStored (hfrom : c.drainIn = .storing) :
      InDrained c .notConnectedStored { c with clientState := .notConnected, drainIn := .ended }
  | dropped (htoken : c.cancellationToken = true) (hfrom : c.drainIn ≠ .ended) (hstoring : c.drainIn ≠ .storing) :
      InDrained c .dropped { c with drainIn := .ended }

theorem inDrained {e : DrainInEvent} (h : c.inDrain e = some t) : InDrained c e t := by
  have hdrop : ∀ {stage}, c.drainIn = stage → stage ≠ .ended → stage ≠ .storing →
      (if c.cancellationToken then some { c with drainIn := .ended } else none) = some t →
      InDrained c .dropped t := by
    rintro stage rfl hfrom hstoring ht
    split_ifs at ht with htoken
    cases ht
    exact .dropped htoken hfrom hstoring
  unfold inDrain at h
  split at h
  · split_ifs at h with htoken
    cases h
    exact .started ‹_› (by simpa using htoken)
  · rename_i hfrom
    cases h
    by_cases hrunning : c.clientState.running = true
    · rw [if_pos hrunning]
      exact .checked hfrom
    · rw [if_neg hrunning]
      exact .stopped _ (.inl rfl) (by simpa using hrunning) (by simp [hfrom])
  · cases h
    exact .read ‹_› _
  · cases h
    exact .failed ‹_› _
  · rename_i m hfrom
    split_ifs at h with hrunning
    · split at h
      · cases h
        exact .replied m hfrom (by simp_all) true
      · cases h
        exact .replied m hfrom (by simp_all) c.throttle
      · cases h
        exact .handled m hfrom ‹_›
    · cases h
      exact .stopped _ (.inr rfl) (by simpa using hrunning) (by simp [hfrom])
  · cases h
    exact .responded _ ‹_›
  · cases h
    exact .failedAll _ ‹_›
  · cases h
    exact .cancelled ‹_›
  · cases h
    exact .notConnectedStored ‹_›
  · exact hdrop ‹_› (by simp) (by simp) h
  · exact hdrop ‹_› (by simp) (by simp) h
  · exact hdrop ‹_› (by simp) (by simp) h
  · exact hdrop ‹_› (by simp) (by simp) h
  · cases h

inductive OutDrained (c : S2cClient ident) : DrainOutEvent → S2cClient ident → Prop where
  | stopped (e : DrainOutEvent) (he : e = .checked ∨ e = .handled) (hrunning : c.clientState.running = false)
      (hfrom : c.drainOut ≠ .ended ∧ c.drainOut ≠ .unspawned) : OutDrained c e { c with drainOut := .ended }
  | moved (e : DrainOutEvent) (he : e ≠ .notConnectedStored)
      (hfrom : c.drainOut ≠ .ended ∧ c.drainOut ≠ .unspawned ∧ c.drainOut ≠ .storing)
      (throttle : Bool) (queue : List κ) (stage : DrainOut κ) (hto : stage ≠ .ended ∧ stage ≠ .unspawned) :
      OutDrained c e
        { c with throttle := throttle, calls := { c.calls with queue := queue }, drainOut := stage }
  | notConnectedStored (hfrom : c.drainOut = .storing) :
      OutDrained c .notConnectedStored { c with clientState := .notConnected, drainOut := .ended }
  | dropped (htoken : c.cancellationToken = true)
      (hfrom : c.drainOut ≠ .ended ∧ c.drainOut ≠ .unspawned ∧ c.drainOut ≠ .storing) :
      OutDrained c .dropped { c with drainOut := .ended }

theorem outDrained {e : DrainOutEvent} (h : c.outDrain e = some t) : OutDrained c e t := by
  have hmove : ∀ (throttle : Bool) (queue : List κ) (stage : DrainOut κ), e ≠ .notConnectedStored →
      c.drainOut ≠ .ended ∧ c.drainOut ≠ .unspawned ∧ c.drainOut ≠ .storing →
      stage ≠ .ended ∧ stage ≠ .unspawned →
      some { c with throttle := throttle, calls := { c.calls with queue := queue }, drainOut := stage } = some t →
      OutDrained c e t := by
    intro throttle queue stage he hfrom hto ht
    cases ht
    exact .moved e he hfrom throttle queue stage hto
  have hdrop : c.drainOut ≠ .ended ∧ c.drainOut ≠ .unspawned ∧ c.drainOut ≠ .storing →
      (if c.cancellationToken then some { c with drainOut := .ended } else none) = some t →
      OutDrained c .dropped t := by
    intro hfrom ht
    split_ifs at ht with htoken
    cases ht
    exact .dropped htoken hfrom
  unfold outDrain at h
  split at h <;> rename_i hfrom
  · split_ifs at h
    exact hmove c.throttle c.calls.queue .checking (by simp) (by simp [hfrom]) (by simp) h
  · by_cases hrunning : c.clientState.running = true
    · rw [if_pos hrunning] at h
      exact hmove c.throttle c.calls.queue .throttling (by simp) (by simp [hfrom]) (by simp) h
    · rw [if_neg hrunning] at h
      cases h
      exact .stopped _ (.inl rfl) (by simpa using hrunning) (by simp [hfrom])
  · exact hmove c.throttle c.calls.queue _ (by simp) (by simp [hfrom]) (by split_ifs <;> simp) h
  · exact hmove false c.calls.queue .receiving (by simp) (by simp [hfrom]) (by simp) h
  · split at h
    · cases h
    · rename_i k queue hqueue
      apply hmove c.throttle queue (.handling k) (by simp) (by simp [hfrom]) (by simp)
      simpa [Calls.step, hqueue] using h
  · rename_i k
    by_cases hrunning : c.clientState.running = true
    · rw [if_pos hrunning] at h
      exact hmove c.throttle c.calls.queue (.writing k) (by simp) (by simp [hfrom]) (by simp) h
    · rw [if_neg hrunning] at h
      cases h
      exact .stopped _ (.inr rfl) (by simpa using hrunning) (by simp [hfrom])
  · exact hmove c.throttle c.calls.queue .checking (by simp) (by simp [hfrom]) (by simp) h
  · exact hmove c.throttle c.calls.queue .storing (by simp) (by simp [hfrom]) (by simp) h
  · cases h
    exact .notConnectedStored hfrom
  · exact hdrop (by simp [hfrom]) h
  · exact hdrop (by simp [hfrom]) h
  · exact hdrop (by simp [hfrom]) h
  · exact hdrop (by simp [hfrom]) h
  · cases h

inductive Closing (c : S2cClient ident) : CloseStage → CloseEvent → S2cClient ident → Prop where
  | closedAgain (htracker : c.trackerClosed = true) :
      Closing c .storing .closedStored { c with clientState := .closed, rwLock := .free }
  | closedStored : Closing c .storing .closedStored
      { c with clientState := .closed, trackerClosed := true, rwLock := .close .cancelling }
  | cancelled : Closing c .cancelling .cancelled { c with cancellationToken := true, rwLock := .close .draining }
  | drained (hdrained : c.Drained) : Closing c .draining .drained { c with rwLock := .free }

inductive Stepped (c : S2cClient ident) : ClientEvent κ → S2cClient ident → Prop where
  | refused (hfree : c.rwLock = .free) (n : NodeIdentity) (k : κ) (hstate : c.clientState ≠ .notConnected) :
      Stepped c (.connect n k) c
  | reopened (hfree : c.rwLock = .free) (n : NodeIdentity) (k : κ) (hstate : c.clientState = .notConnected)
      (htracker : c.trackerClosed = true) :
      Stepped c (.connect n k) { c with trackerClosed := false, rwLock := .connect n k .opening }
  | connect (hfree : c.rwLock = .free) (n : NodeIdentity) (k : κ) (hstate : c.clientState = .notConnected) :
      Stepped c (.connect n k) { c with trackerClosed := true, rwLock := .connect n k .waiting }
  | connecting {n : NodeIdentity} {k : κ} {stage : ConnectStage} {e : ConnectEvent}
      {re : S2cClient ident × Connecting} (hlock : c.rwLock = .connect n k stage)
      (h : Connected c n k stage e re) : Stepped c (.connecting e) (locked n k re)
  | send (k : κ) (admitted : κ → Bool) : Stepped c (.send k) { c with admitted := admitted }
  | call (k : κ) (s : CallStep) (calls : Calls ident) (h : c.calls.call k s = some calls) :
      Stepped c (.call k s) { c with calls := calls }
  | closeRefused (hfree : c.rwLock = .free) : Stepped c .close c
  | close (hfree : c.rwLock = .free) : Stepped c .close { c with rwLock := .close .storing }
  | closing {stage : CloseStage} {e : CloseEvent} {t : S2cClient ident} (hlock : c.rwLock = .close stage)
      (h : Closing c stage e t) : Stepped c (.closing e) t
  | drainIn {e : DrainInEvent} {t : S2cClient ident} (h : InDrained c e t) : Stepped c (.drainIn e) t
  | drainOut {e : DrainOutEvent} {t : S2cClient ident} (h : OutDrained c e t) : Stepped c (.drainOut e) t

theorem closing_cases {stage : CloseStage} {e : CloseEvent} (h : c.closing stage e = some t) :
    Closing c stage e t := by
  unfold closing at h
  split at h
  · split_ifs at h with htracker
    · cases h
      exact .closedAgain htracker
    · cases h
      exact .closedStored
  · cases h
    exact .cancelled
  · split_ifs at h with hdrained
    cases h
    exact .drained hdrained
  · cases h

theorem stepped {e : ClientEvent κ} (h : c.step e = some t) : Stepped c e t := by
  cases e with
  | connect n k =>
    simp only [step] at h
    split at h
    · rename_i hfree
      split_ifs at h
      cases h
      unfold connect
      split_ifs with hstate htracker
      · exact .reopened hfree n k hstate htracker
      · exact .connect hfree n k hstate
      · have hsame : locked n k (c, .returned (.ok ())) = c := by rw [locked, ← hfree]
        rw [hsame]
        exact .refused hfree n k hstate
    · cases h
  | connecting e =>
    simp only [step] at h
    split at h
    · obtain ⟨re, hre, rfl⟩ := Option.map_eq_some_iff.mp h
      exact .connecting ‹_› (connected hre)
    · cases h
  | send k =>
    simp only [step] at h
    split at h
    · split_ifs at h
      split at h
      · cases h
        exact .send k _
      · cases h
        exact .send k c.admitted
    · cases h
  | call k s =>
    simp only [step] at h
    split_ifs at h
    obtain ⟨calls, hcalls, rfl⟩ := Option.map_eq_some_iff.mp h
    exact .call _ _ calls hcalls
  | close =>
    simp only [step] at h
    split at h
    · rename_i hfree
      split_ifs at h
      · cases h
        exact .closeRefused hfree
      · cases h
        exact .close hfree
    · cases h
  | closing e =>
    simp only [step] at h
    split at h
    · exact .closing ‹_› (closing_cases h)
    · cases h
  | drainIn e => exact .drainIn (inDrained h)
  | drainOut e => exact .drainOut (outDrained h)

structure Background (c t : S2cClient ident) : Prop where
  rwLock : t.rwLock = c.rwLock
  trackerClosed : t.trackerClosed = c.trackerClosed
  connection : t.connection = c.connection
  clientState : t.clientState = c.clientState ∨ t.clientState = .notConnected

theorem InDrained.background {e : DrainInEvent} (h : InDrained c e t) : Background c t := by
  cases h <;> exact ⟨rfl, rfl, rfl, by simp⟩

theorem InDrained.not_ended {e : DrainInEvent} (h : InDrained c e t) : c.drainIn ≠ .ended := by
  cases h <;> simp_all

omit [DecidableEq κ] in
theorem OutDrained.not_ended {e : DrainOutEvent} (h : OutDrained c e t) : c.drainOut ≠ .ended := by
  cases h <;> simp_all

omit [DecidableEq κ] in
theorem OutDrained.background {e : DrainOutEvent} (h : OutDrained c e t) : Background c t := by
  cases h <;> exact ⟨rfl, rfl, rfl, by simp⟩

end S2c.S2cClient
