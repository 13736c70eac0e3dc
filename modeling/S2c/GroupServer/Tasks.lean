import Mathlib.Logic.Function.Basic
import S2c.Machine
import S2c.Proto.Messages

namespace S2c

open Machine

inductive LoopState where
  | running
  | failed
  | cancelled
  | stopped
  deriving DecidableEq

inductive Supervisor where
  | draining
  | ended
  deriving DecidableEq

/-- A `GroupServer` from its `start` on; nothing calls `close`, which is private, so none is started
again. No client is ever taken out of `clients_ins`, so a client's loops go by its identity. -/
structure GroupServer where
  running : Bool
  allOutClosed : Bool
  cancellationToken : Bool
  innerCancellationToken : Bool
  supervisor : Supervisor
  clientsIns : NodeIdentity → Bool
  readLoops : NodeIdentity → Option LoopState
  writeLoops : NodeIdentity → Option LoopState

inductive GroupEvent where
  | handleClient (nodeIdentity : NodeIdentity)
  | read (nodeIdentity : NodeIdentity) (ok : Bool)
  | written (nodeIdentity : NodeIdentity) (ok : Bool)
  | readCancelled (nodeIdentity : NodeIdentity)
  | writeCancelled (nodeIdentity : NodeIdentity)
  | superviseCancelled
  | superviseDrained
  | allOutClosed
  | close
  deriving DecidableEq

namespace GroupServer

def started : GroupServer where
  running := true
  allOutClosed := false
  cancellationToken := false
  innerCancellationToken := false
  supervisor := .draining
  clientsIns _ := false
  readLoops _ := none
  writeLoops _ := none

def spawned (s : GroupServer) : LoopState := if s.innerCancellationToken then .cancelled else .running

def handleClient (s : GroupServer) (n : NodeIdentity) : GroupServer :=
  if s.running then
    if s.clientsIns n then s
    else
      { s with
        clientsIns := Function.update s.clientsIns n true
        readLoops := Function.update s.readLoops n (some s.spawned)
        writeLoops := Function.update s.writeLoops n (some s.spawned) }
  else s

def looped (s : GroupServer) (ok : Bool) : LoopState × GroupServer :=
  if ok then (if s.running then .running else .stopped, s)
  -- an error cancels the token of the whole group
  else (.failed, { s with cancellationToken := true })

def drainReady (s : GroupServer) : Bool := s.cancellationToken || s.allOutClosed || !s.running

/-- The two branches of the `select` in `start` are `superviseCancelled` and `superviseDrained`;
either may win when both are ready. -/
def step (s : GroupServer) : GroupEvent → Option GroupServer
  | .handleClient n => some (s.handleClient n)
  | .read n ok =>
    if s.readLoops n = some .running then
      let (loop, s) := s.looped ok
      some { s with readLoops := Function.update s.readLoops n (some loop) }
    else none
  | .written n ok =>
    if s.writeLoops n = some .running then
      let (loop, s) := s.looped ok
      some { s with writeLoops := Function.update s.writeLoops n (some loop) }
    else none
  | .readCancelled n =>
    if s.readLoops n = some .running ∧ s.innerCancellationToken then
      some { s with readLoops := Function.update s.readLoops n (some .cancelled) }
    else none
  | .writeCancelled n =>
    if s.writeLoops n = some .running ∧ s.innerCancellationToken then
      some { s with writeLoops := Function.update s.writeLoops n (some .cancelled) }
    else none
  | .superviseCancelled =>
    if s.supervisor = .draining ∧ s.cancellationToken then
      some { s with supervisor := .ended, innerCancellationToken := true }
    else none
  | .superviseDrained =>
    if s.supervisor = .draining ∧ s.drainReady then some { s with supervisor := .ended } else none
  | .allOutClosed => some { s with allOutClosed := true }
  | .close =>
    if s.running then some { s with running := false, cancellationToken := true } else some s

def Failed (s : GroupServer) (n : NodeIdentity) : Prop :=
  s.readLoops n = some .failed ∨ s.writeLoops n = some .failed

structure Unaffected (s : GroupServer) : Prop where
  uncancelled : s.innerCancellationToken = false
  others : ∀ n, s.clientsIns n = true → ¬s.Failed n →
    s.readLoops n = some .running ∧ s.writeLoops n = some .running
  draining : s.supervisor = .draining
  later : ∀ n, s.clientsIns n = false → (s.handleClient n).clientsIns n = true ∧
    (s.handleClient n).readLoops n = some .running ∧ (s.handleClient n).writeLoops n = some .running

end GroupServer

namespace GroupEvent

def quiet : GroupEvent → Bool
  | .read _ ok => ok
  | .written _ ok => ok
  | .allOutClosed => false
  | _ => true

def supervises : GroupEvent → Bool
  | .superviseCancelled => true
  | .superviseDrained => true
  | _ => false

end GroupEvent

namespace GroupServer

def StaysUnaffected (s : GroupServer) : Prop :=
  ∀ fs t, (∀ e ∈ fs, GroupEvent.supervises e = true) → exec step s fs = some t → t.Unaffected

structure Calm (s : GroupServer) : Prop where
  running : s.running = true
  allOutClosed : s.allOutClosed = false
  cancellationToken : s.cancellationToken = false
  innerCancellationToken : s.innerCancellationToken = false
  supervisor : s.supervisor = .draining
  loops : ∀ n, s.clientsIns n = true → s.readLoops n = some .running ∧ s.writeLoops n = some .running

variable {s t : GroupServer} {e : GroupEvent} {es : List GroupEvent}

theorem calm_started : started.Calm := ⟨rfl, rfl, rfl, rfl, rfl, fun _ h => by cases h⟩

theorem calm_handleClient (h : s.Calm) (n : NodeIdentity) : (s.handleClient n).Calm := by
  unfold handleClient
  rw [if_pos h.running]
  split_ifs with hn
  · exact h
  · refine ⟨h.running, h.allOutClosed, h.cancellationToken, h.innerCancellationToken, h.supervisor, ?_⟩
    intro m hm
    by_cases hmn : m = n
    · subst hmn
      simp [spawned, h.innerCancellationToken]
    · simpa [hmn] using h.loops m (by simpa [hmn] using hm)

theorem Calm.looped (h : s.Calm) : s.looped true = (.running, s) := by
  simp [GroupServer.looped, h.running]

inductive Stepped (s : GroupServer) : GroupEvent → GroupServer → Prop where
  | refused (n : NodeIdentity) (hrefused : s.running = true → s.clientsIns n = true) :
      Stepped s (.handleClient n) s
  | registered (n : NodeIdentity) (hrunning : s.running = true) (hn : s.clientsIns n = false) :
      Stepped s (.handleClient n) { s with
        clientsIns := Function.update s.clientsIns n true
        readLoops := Function.update s.readLoops n (some s.spawned)
        writeLoops := Function.update s.writeLoops n (some s.spawned) }
  | read (n : NodeIdentity) (hloop : s.readLoops n = some .running) :
      Stepped s (.read n true) { s with readLoops := Function.update s.readLoops n (some (s.looped true).1) }
  | readFailed (n : NodeIdentity) (hloop : s.readLoops n = some .running) :
      Stepped s (.read n false) { s with
        cancellationToken := true, readLoops := Function.update s.readLoops n (some .failed) }
  | written (n : NodeIdentity) (hloop : s.writeLoops n = some .running) :
      Stepped s (.written n true) { s with writeLoops := Function.update s.writeLoops n (some (s.looped true).1) }
  | writeFailed (n : NodeIdentity) (hloop : s.writeLoops n = some .running) :
      Stepped s (.written n false) { s with
        cancellationToken := true, writeLoops := Function.update s.writeLoops n (some .failed) }
  | readCancelled (n : NodeIdentity) (hloop : s.readLoops n = some .running)
      (hinner : s.innerCancellationToken = true) :
      Stepped s (.readCancelled n) { s with readLoops := Function.update s.readLoops n (some .cancelled) }
  | writeCancelled (n : NodeIdentity) (hloop : s.writeLoops n = some .running)
      (hinner : s.innerCancellationToken = true) :
      Stepped s (.writeCancelled n) { s with writeLoops := Function.update s.writeLoops n (some .cancelled) }
  | superviseCancelled (hdraining : s.supervisor = .draining) (htoken : s.cancellationToken = true) :
      Stepped s .superviseCancelled { s with supervisor := .ended, innerCancellationToken := true }
  | superviseDrained (hdraining : s.supervisor = .draining) (hready : s.drainReady = true) :
      Stepped s .superviseDrained { s with supervisor := .ended }
  | allOutClosed : Stepped s .allOutClosed { s with allOutClosed := true }
  | close (hrunning : s.running = true) : Stepped s .close { s with running := false, cancellationToken := true }
  | closeRefused (hrunning : s.running = false) : Stepped s .close s

theorem stepped (h : s.step e = some t) : Stepped s e t := by
  cases e with
  | handleClient n =>
    cases h
    unfold handleClient
    split_ifs with hrunning hn
    · exact .refused n (fun _ => hn)
    · exact .registered n hrunning (by simpa using hn)
    · exact .refused n (fun h => absurd h hrunning)
  | read n ok =>
    simp only [step] at h
    split_ifs at h with hloop
    cases h
    cases ok with
    | false => exact .readFailed n hloop
    | true => exact .read n hloop
  | written n ok =>
    simp only [step] at h
    split_ifs at h with hloop
    cases h
    cases ok with
    | false => exact .writeFailed n hloop
    | true => exact .written n hloop
  | readCancelled n =>
    simp only [step] at h
    split_ifs at h with hloop
    cases h
    exact .readCancelled n hloop.1 hloop.2
  | writeCancelled n =>
    simp only [step] at h
    split_ifs at h with hloop
    cases h
    exact .writeCancelled n hloop.1 hloop.2
  | superviseCancelled =>
    simp only [step] at h
    split_ifs at h with hs
    cases h
    exact .superviseCancelled hs.1 hs.2
  | superviseDrained =>
    simp only [step] at h
    split_ifs at h with hs
    cases h
    exact .superviseDrained hs.1 hs.2
  | allOutClosed =>
    cases h
    exact .allOutClosed
  | close =>
    simp only [step] at h
    split_ifs at h with hrunning
    · cases h
      exact .close hrunning
    · cases h
      exact .closeRefused (by simpa using hrunning)

theorem clientsIns_step (hstep : s.step e = some t) (he : ∀ n, e ≠ .handleClient n) :
    t.clientsIns = s.clientsIns := by
  cases stepped hstep with
  | registered n => exact absurd rfl (he n)
  | _ => rfl

theorem step_flags (hstep : s.step e = some t) : t.running = (s.running && e ≠ .close) ∧
    t.drainReady = (s.drainReady || !e.quiet || e = .close) := by
  cases stepped hstep with
  | closeRefused hrunning => simp [drainReady, hrunning]
  | _ => simp [drainReady, GroupEvent.quiet]

theorem Calm.supervised (h : s.Calm) (he : e.supervises = true) : s.step e = none := by
  cases e with
  | superviseCancelled => simp [step, h.cancellationToken]
  | superviseDrained => simp [step, drainReady, h.cancellationToken, h.allOutClosed, h.running]
  | _ => cases he

theorem calm_step (h : s.Calm) (hquiet : e.quiet = true) (hstep : s.step e = some t)
    (ht : t.running = true) : t.Calm := by
  cases stepped hstep with
  | refused => exact h
  | registered n _ hn =>
    have hregistered := calm_handleClient h n
    rwa [handleClient, if_pos h.running, if_neg (by simp [hn])] at hregistered
  | read n hloop =>
    rw [h.looped, ← hloop, Function.update_eq_self]
    exact h
  | written n hloop =>
    rw [h.looped, ← hloop, Function.update_eq_self]
    exact h
  | readFailed => cases hquiet
  | writeFailed => cases hquiet
  | readCancelled _ _ hinner => cases h.innerCancellationToken.symm.trans hinner
  | writeCancelled _ _ hinner => cases h.innerCancellationToken.symm.trans hinner
  | superviseCancelled => rw [h.supervised rfl] at hstep; cases hstep
  | superviseDrained => rw [h.supervised rfl] at hstep; cases hstep
  | allOutClosed => cases hquiet
  | close => cases ht
  | closeRefused => exact h

theorem Calm.unaffected (h : s.Calm) : s.Unaffected := by
  refine ⟨h.innerCancellationToken, fun n hn _ => h.loops n hn, h.supervisor, ?_⟩
  intro n hn
  simp [handleClient, h.running, hn, spawned, h.innerCancellationToken]

theorem calm_of_quiet (hexec : exec step started es = some s) (hrunning : s.running = true)
    (hquiet : ∀ e ∈ es, e.quiet = true) : s.Calm := by
  apply invariant_along (I := fun s => s.running = true → s.Calm) (P := fun _ e => e.quiet = true)
    _ (fun _ => calm_started) (along_of_forall (fun _ e he => hquiet e he)) hexec hrunning
  intro s e t hs he hstep ht
  have hflag := (step_flags hstep).1
  rw [ht] at hflag
  exact calm_step (hs (Bool.and_eq_true_iff.mp hflag.symm).1) he hstep ht

theorem StaysUnaffected.not_ready (h : s.StaysUnaffected) : s.drainReady = false := by
  by_contra hready
  have hdraining := (h [] s (by simp) rfl).draining
  have hended : exec step s [.superviseDrained] = some { s with supervisor := .ended } := by
    simp [exec, step, hdraining, hready]
  cases (h _ _ (by simp [GroupEvent.supervises]) hended).draining

theorem unaffected_iff (hexec : exec step started es = some s) (hrunning : s.running = true) :
    s.StaysUnaffected ↔ ∀ e ∈ es, e.quiet = true := by
  constructor
  · intro h
    refine forall_of_exec (I := fun s => s.drainReady = false) ?_ hexec h.not_ready
    intro s e t hstep ht
    have hflag := (step_flags hstep).2
    rw [ht] at hflag
    simp only [Bool.false_eq, Bool.or_eq_false_iff, Bool.not_eq_false'] at hflag
    exact hflag.1
  · intro hquiet fs t hfs ht
    have hcalm := calm_of_quiet hexec hrunning hquiet
    cases fs with
    | nil =>
      cases ht
      exact hcalm.unaffected
    | cons e fs =>
      rw [exec_cons, hcalm.supervised (hfs e List.mem_cons_self)] at ht
      cases ht

def firstClient : NodeIdentity := ⟨"n1", "h1", 1, "a"⟩

def secondClient : NodeIdentity := ⟨"n2", "h2", 1, "a"⟩

def thirdClient : NodeIdentity := ⟨"n3", "h3", 1, "a"⟩

def oneFailure : List GroupEvent :=
  [.handleClient firstClient, .handleClient secondClient, .read firstClient false, .superviseCancelled,
    .readCancelled secondClient, .writeCancelled secondClient]

theorem unaffected_iff_sample : ∃ s, exec step started oneFailure = some s ∧
    (s.StaysUnaffected ↔ ∀ e ∈ oneFailure, e.quiet = true) :=
  ⟨_, rfl, unaffected_iff rfl rfl⟩

theorem unaffected_fails : ∃ s, exec step started oneFailure = some s ∧ s.running = true ∧
    s.clientsIns secondClient = true ∧ ¬s.Failed secondClient ∧
    s.readLoops secondClient = some .cancelled ∧ s.writeLoops secondClient = some .cancelled ∧
    s.supervisor = .ended ∧ (s.handleClient thirdClient).readLoops thirdClient = some .cancelled ∧
    ¬s.Unaffected := by
  refine ⟨_, rfl, rfl, rfl, ?_, rfl, rfl, rfl, rfl, ?_⟩
  · unfold Failed
    decide
  · intro h
    cases h.draining

end GroupServer

end S2c
