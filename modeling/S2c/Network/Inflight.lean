import Mathlib.Data.List.Induction
import S2c.Machine
import S2c.Network.Error
import S2c.Pending
import S2c.Proto.Messages

namespace S2c

open Machine

abbrev Response := Except ClientError S2cMessage

abbrev InflightRequests {κ : Type} (ident : κ → String) := Pending ident Response

namespace InflightRequests

variable {κ : Type} {ident : κ → String} [DecidableEq κ]

def new (ident : κ → String) : InflightRequests ident := Pending.empty ident Response

def add (p : InflightRequests ident) (k : κ) : InflightRequests ident := Pending.add p k

def respond (p : InflightRequests ident) (message : S2cMessage) : InflightRequests ident :=
  p.settle (· = message.correlationId) (.filled (.ok message))

def discard (p : InflightRequests ident) (correlationId : String) : InflightRequests ident :=
  p.settle (· = correlationId) .dropped

def failAll (p : InflightRequests ident) (err : ClientError) : InflightRequests ident :=
  p.settle (fun _ => true) (.filled (.error err))

end InflightRequests

inductive CallStage where
  | idle
  | sending
  | waiting
  | discarding (err : ClientError)
  | returned (re : Response)

def CallStage.pending : CallStage → Bool
  | .sending => true
  | .waiting => true
  | _ => false

inductive CallStep where
  | added
  | queued
  | received
  | timedOut
  | discarded
  deriving DecidableEq

structure Calls {κ : Type} (ident : κ → String) where
  inflightRequests : InflightRequests ident
  stages : κ → CallStage
  queue : List κ
  capacity : ℕ
  receiverClosed : Bool

inductive CallsEvent (κ : Type) where
  | call (k : κ) (step : CallStep)
  | respond (message : S2cMessage)
  | discard (correlationId : String)
  | failAll (err : ClientError)
  | taken

namespace Calls

variable {κ : Type} {ident : κ → String} [DecidableEq κ]

def new (ident : κ → String) (capacity : ℕ) : Calls ident :=
  ⟨InflightRequests.new ident, fun _ => .idle, [], capacity, false⟩

def enter (c : Calls ident) (k : κ) (stage : CallStage) : Calls ident :=
  { c with stages := Function.update c.stages k stage }

def call (c : Calls ident) (k : κ) (step : CallStep) : Option (Calls ident) :=
  match step, c.stages k with
  | .added, .idle => some { c.enter k .sending with inflightRequests := c.inflightRequests.add k }
  | .queued, .sending =>
    -- the one return that leaves the map as it is
    if c.receiverClosed then some (c.enter k (.returned (.error .notConnected)))
    else if c.queue.length < c.capacity then some { c.enter k .waiting with queue := c.queue ++ [k] }
    else none
  | .received, .waiting =>
    match c.inflightRequests.slots k with
    | .empty => none
    | .filled (.ok response) => some (c.enter k (.returned (.ok response)))
    | .filled (.error e) => some (c.enter k (.discarding e))
    | .dropped => some (c.enter k (.discarding .notConnected))
  | .timedOut, .waiting => some (c.enter k (.discarding .timeout))
  | .discarded, .discarding e =>
    some { c.enter k (.returned (.error e)) with
      inflightRequests := c.inflightRequests.discard (ident k) }
  | _, _ => none

def step (c : Calls ident) : CallsEvent κ → Option (Calls ident)
  | .call k step => c.call k step
  | .respond message => some { c with inflightRequests := c.inflightRequests.respond message }
  | .discard correlationId => some { c with inflightRequests := c.inflightRequests.discard correlationId }
  | .failAll err => some { c with inflightRequests := c.inflightRequests.failAll err }
  | .taken =>
    match c.queue with
    | [] => none
    | _ :: queue => some { c with queue := queue }

end Calls

def CallsEvent.concerns {κ : Type} [DecidableEq κ] (ident : κ → String) (k : κ) : CallsEvent κ → Bool
  | .call j _ => j = k
  | .respond message => message.correlationId = ident k
  | .discard correlationId => correlationId = ident k
  | .failAll _ => true
  | .taken => false

namespace Calls

structure Sound {κ : Type} {ident : κ → String} (c : Calls ident) : Prop where
  receiver : c.receiverClosed = false
  idle : ∀ k, c.stages k = .idle → c.inflightRequests.slots k = .empty ∧ ¬c.inflightRequests.Registered k
  gone : ∀ k re, c.stages k = .returned re → ¬c.inflightRequests.Registered k
  answer : ∀ k m, c.inflightRequests.slots k = .filled (.ok m) → m.correlationId = ident k
  ok : ∀ k m, c.stages k = .returned (.ok m) → c.inflightRequests.slots k = .filled (.ok m)

theorem sound_new {κ : Type} (ident : κ → String) (capacity : ℕ) : (new ident capacity).Sound :=
  ⟨rfl, fun k _ => ⟨rfl, Pending.not_registered_empty k⟩, fun _ _ h => (nomatch h), fun _ _ h => (nomatch h),
    fun _ _ h => (nomatch h)⟩

theorem Sound.queue {κ : Type} {ident : κ → String} {c : Calls ident} (hc : c.Sound) (queue : List κ) :
    Sound { c with queue := queue } :=
  ⟨hc.receiver, hc.idle, hc.gone, hc.answer, hc.ok⟩

variable {κ : Type} {ident : κ → String} [DecidableEq κ] {c t : Calls ident} {e : CallsEvent κ} {k : κ}

inductive Called (c : Calls ident) (k : κ) : CallStep → Calls ident → Prop where
  | added (hstage : c.stages k = .idle) :
      Called c k .added { c.enter k .sending with inflightRequests := c.inflightRequests.add k }
  | unsent (hstage : c.stages k = .sending) (hclosed : c.receiverClosed = true) :
      Called c k .queued (c.enter k (.returned (.error .notConnected)))
  | queued (hstage : c.stages k = .sending) :
      Called c k .queued { c.enter k .waiting with queue := c.queue ++ [k] }
  | answered (hstage : c.stages k = .waiting) (m : S2cMessage)
      (hslot : c.inflightRequests.slots k = .filled (.ok m)) :
      Called c k .received (c.enter k (.returned (.ok m)))
  | failed (hstage : c.stages k = .waiting) (step : CallStep) (e : ClientError) :
      Called c k step (c.enter k (.discarding e))
  | discarded (e : ClientError) (hstage : c.stages k = .discarding e) :
      Called c k .discarded { c.enter k (.returned (.error e)) with
        inflightRequests := c.inflightRequests.discard (ident k) }

theorem called {s : CallStep} (h : c.call k s = some t) : Called c k s t := by
  unfold call at h
  split at h
  · cases h
    exact .added ‹_›
  · split_ifs at h with hclosed
    · cases h
      exact .unsent ‹_› hclosed
    · cases h
      exact .queued ‹_›
  · split at h
    · cases h
    · cases h
      exact .answered ‹_› _ ‹_›
    · cases h
      exact .failed ‹_› _ _
    · cases h
      exact .failed ‹_› _ _
  · cases h
    exact .failed ‹_› _ _
  · cases h
    exact .discarded _ ‹_›
  · cases h

theorem taken (h : c.step .taken = some t) : ∃ queue, t = { c with queue := queue } := by
  simp only [step] at h
  split at h
  · cases h
  · cases h
    exact ⟨_, rfl⟩

@[simp] theorem stages_enter_self {stage : CallStage} : (c.enter k stage).stages k = stage := by
  simp [enter]

theorem stages_enter_of_ne {j : κ} {stage : CallStage} (hjk : j ≠ k) :
    (c.enter k stage).stages j = c.stages j := by
  simp [enter, hjk]

theorem Sound.settle (hc : c.Sound) {which : String → Bool} {slot : OneShot Response}
    (hslot : ∀ m i, slot = .filled (.ok m) → which i = true → m.correlationId = i) :
    Sound { c with inflightRequests := c.inflightRequests.settle which slot } := by
  refine ⟨hc.receiver, ?_, ?_, ?_, ?_⟩
  · intro k hk
    obtain ⟨hempty, hgone⟩ := hc.idle k hk
    refine ⟨?_, fun h => hgone (Pending.registered_settle.mp h).1⟩
    rwa [Pending.slots_settle_of_not_registered hgone]
  · intro k re hk h
    exact hc.gone k re hk (Pending.registered_settle.mp h).1
  · intro k m hk
    rw [Pending.slots_settle] at hk
    split_ifs at hk with hwhich
    · exact hslot m _ hk hwhich.2
    · exact hc.answer k m hk
  · intro k m hk
    rw [Pending.slots_settle_of_not_registered (hc.gone k _ hk)]
    exact hc.ok k m hk

theorem Sound.enter (hc : c.Sound) (k : κ) (stage : CallStage) (hidle : stage ≠ .idle)
    (hgone : ∀ re, stage = .returned re → ¬c.inflightRequests.Registered k)
    (hok : ∀ m, stage = .returned (.ok m) → c.inflightRequests.slots k = .filled (.ok m)) :
    (c.enter k stage).Sound := by
  refine ⟨hc.receiver, ?_, ?_, hc.answer, ?_⟩
  · intro j hj
    by_cases hjk : j = k
    · subst hjk
      exact absurd (stages_enter_self.symm.trans hj) hidle
    · exact hc.idle j (by rwa [stages_enter_of_ne hjk] at hj)
  · intro j re hj
    by_cases hjk : j = k
    · subst hjk
      exact hgone re (stages_enter_self.symm.trans hj)
    · exact hc.gone j re (by rwa [stages_enter_of_ne hjk] at hj)
  · intro j m hj
    by_cases hjk : j = k
    · subst hjk
      exact hok m (stages_enter_self.symm.trans hj)
    · exact hc.ok j m (by rwa [stages_enter_of_ne hjk] at hj)

theorem Sound.added (hc : c.Sound) :
    Sound { c.enter k .sending with inflightRequests := c.inflightRequests.add k } := by
  have hk : ∀ {j stage}, stage ≠ .sending → (c.enter k .sending).stages j = stage → j ≠ k := by
    rintro j stage hstage hj rfl
    exact hstage (hj.symm.trans stages_enter_self)
  have hold : ∀ {j}, j ≠ k → ¬c.inflightRequests.Registered j →
      (c.inflightRequests.add k).slots j = c.inflightRequests.slots j :=
    fun hjk hj => Pending.slots_add_of_not_registered hjk hj
  refine ⟨hc.receiver, ?_, ?_, ?_, ?_⟩
  · intro j hj
    have hjk : j ≠ k := hk (by simp) hj
    obtain ⟨hempty, hgone⟩ := hc.idle j (by rwa [stages_enter_of_ne hjk] at hj)
    exact ⟨(hold hjk hgone).trans hempty, Pending.not_registered_add hjk hgone⟩
  · intro j re hj
    have hjk : j ≠ k := hk (by simp) hj
    exact Pending.not_registered_add hjk (hc.gone j re (by rwa [stages_enter_of_ne hjk] at hj))
  · intro j m hj
    rcases Pending.slots_add_cases (p := c.inflightRequests) j k with hsame | hempty | hdropped
    · exact hc.answer j m (hsame.symm.trans hj)
    · cases hempty.symm.trans hj
    · cases hdropped.symm.trans hj
  · intro j m hj
    have hjk : j ≠ k := hk (by simp) hj
    rw [stages_enter_of_ne hjk] at hj
    exact (hold hjk (hc.gone j _ hj)).trans (hc.ok j m hj)

theorem Sound.discard (hc : c.Sound) (correlationId : String) :
    Sound { c with inflightRequests := c.inflightRequests.discard correlationId } :=
  hc.settle (by simp)

theorem sound_call {s : CallStep} (hc : c.Sound) (h : c.call k s = some t) : t.Sound := by
  cases called h with
  | added _ => exact hc.added
  | unsent _ hclosed =>
    rw [hc.receiver] at hclosed
    cases hclosed
  | queued _ => exact (hc.enter k .waiting (by simp) (by simp) (by simp)).queue _
  | answered _ m hslot =>
    apply hc.enter k _ (by simp)
    · intro re _ hk
      cases hslot.symm.trans hk.empty
    · intro m' hm
      simp_all
  | failed _ _ e => exact hc.enter k _ (by simp) (by simp) (by simp)
  | discarded e _ =>
    apply (hc.discard (ident k)).enter k _ (by simp)
    · intro re _ hk
      simpa using (Pending.registered_settle.mp hk).2
    · simp

theorem sound_step (hc : c.Sound) (h : c.step e = some t) : t.Sound := by
  cases e with
  | call k s => exact sound_call hc h
  | respond m =>
    cases h
    apply hc.settle
    intro m' i hm hi
    cases hm
    simpa using (of_decide_eq_true hi).symm
  | discard correlationId =>
    cases h
    exact hc.discard correlationId
  | failAll err =>
    cases h
    exact hc.settle (by simp)
  | taken =>
    obtain ⟨queue, rfl⟩ := taken h
    exact hc.queue _

def Accounted (c : Calls ident) : Prop :=
  ∀ k, (c.stages k).pending = true → c.inflightRequests.Registered k ∨ c.inflightRequests.slots k ≠ .empty

omit [DecidableEq κ] in
theorem accounted_new (ident : κ → String) (capacity : ℕ) : (new ident capacity).Accounted := nofun

theorem Accounted.settle (hc : c.Accounted) {which : String → Bool} {slot : OneShot Response}
    (hslot : slot ≠ .empty) : Accounted { c with inflightRequests := c.inflightRequests.settle which slot } := by
  intro k hk
  rw [Pending.slots_settle, Pending.registered_settle]
  by_cases hregistered : c.inflightRequests.Registered k
  · cases hwhich : which (ident k) with
    | true => exact .inr (by simpa [hregistered] using hslot)
    | false => exact .inl ⟨hregistered, rfl⟩
  · exact .inr (by simpa [hregistered] using hc k hk)

theorem Accounted.enter (hc : c.Accounted) {stage : CallStage}
    (hstage : stage.pending = true → (c.stages k).pending = true) : (c.enter k stage).Accounted := by
  intro j hj
  by_cases hjk : j = k
  · subst hjk
    rw [stages_enter_self] at hj
    exact hc j (hstage hj)
  · exact hc j (by rwa [stages_enter_of_ne hjk] at hj)

theorem accounted_call {s : CallStep} (hc : c.Accounted) (h : c.call k s = some t) : t.Accounted := by
  cases called h with
  | added _ =>
    intro j hj
    by_cases hjk : j = k
    · subst hjk
      exact .inl Pending.registered_add_self
    · rw [show (c.enter k .sending).stages j = c.stages j from stages_enter_of_ne hjk] at hj
      by_cases hids : ident j = ident k
      · by_cases hj' : c.inflightRequests.Registered j
        · exact .inr (by simp [InflightRequests.add, Pending.add, hjk, Pending.slots_settle, hj', hids])
        · have hslot := (hc j hj).resolve_left hj'
          exact .inr (by rwa [InflightRequests.add, Pending.slots_add_of_not_registered hjk hj'])
      · have hsame := hc j hj
        rwa [← Pending.registered_add_of_ne hids, ← Pending.slots_add_of_ne hids] at hsame
  | unsent _ _ => exact hc.enter (by simp [CallStage.pending])
  | queued hstage => exact hc.enter (by simp [hstage, CallStage.pending])
  | answered _ _ _ => exact hc.enter (by simp [CallStage.pending])
  | failed _ _ e => exact hc.enter (by simp [CallStage.pending])
  | discarded e _ => exact Accounted.enter (hc.settle (by simp)) (by simp [CallStage.pending])

theorem returned_step {re : Response} (hre : c.stages k = .returned re) (h : c.step e = some t) :
    t.stages k = .returned re := by
  cases e with
  | call j s =>
    by_cases hkj : k = j
    · subst hkj
      cases called h with
      | discarded _ hstage => cases hre.symm.trans hstage
      | _ hstage => cases hre.symm.trans hstage
    · have hsame : t.stages k = c.stages k := by
        cases called h <;> exact stages_enter_of_ne hkj
      rw [hsame, hre]
  | taken =>
    obtain ⟨queue, rfl⟩ := taken h
    exact hre
  | _ =>
    cases h
    exact hre

theorem slots_step (hc : c.Sound) (hslot : c.inflightRequests.slots k ≠ .empty) (h : c.step e = some t) :
    t.inflightRequests.slots k = c.inflightRequests.slots k := by
  have hk : ¬c.inflightRequests.Registered k := fun hk => hslot hk.empty
  cases e with
  | call j s =>
    cases called h with
    | added hstage =>
      apply Pending.slots_add_of_not_registered _ hk
      rintro rfl
      exact hslot (hc.idle k hstage).1
    | discarded _ _ => exact Pending.slots_settle_of_not_registered hk
    | _ => rfl
  | taken =>
    obtain ⟨queue, rfl⟩ := taken h
    rfl
  | _ =>
    cases h
    exact Pending.slots_settle_of_not_registered hk

theorem filled_step {m : S2cMessage} (h : c.step e = some t)
    (hold : c.inflightRequests.slots k ≠ .filled (.ok m))
    (hnew : t.inflightRequests.slots k = .filled (.ok m)) :
    e = .respond m ∧ m.correlationId = ident k ∧ c.inflightRequests.Registered k := by
  have hsettle : ∀ {which slot}, (c.inflightRequests.settle which slot).slots k = .filled (.ok m) →
      slot = .filled (.ok m) ∧ which (ident k) = true ∧ c.inflightRequests.Registered k := by
    intro which slot hslot
    rw [Pending.slots_settle] at hslot
    split_ifs at hslot with hk
    · exact ⟨hslot, hk.2, hk.1⟩
    · exact absurd hslot hold
  cases e with
  | call j s =>
    cases called h with
    | added _ =>
      rcases Pending.slots_add_cases (p := c.inflightRequests) k j with hsame | hempty | hdropped
      · exact absurd (hsame.symm.trans hnew) hold
      · cases hempty.symm.trans hnew
      · cases hdropped.symm.trans hnew
    | discarded _ _ => cases (hsettle hnew).1
    | _ => exact absurd hnew hold
  | respond m' =>
    cases h
    obtain ⟨hm, hident, hk⟩ := hsettle hnew
    cases hm
    exact ⟨rfl, (of_decide_eq_true hident).symm, hk⟩
  | discard _ =>
    cases h
    cases (hsettle hnew).1
  | failAll _ =>
    cases h
    cases (hsettle hnew).1
  | taken =>
    obtain ⟨queue, rfl⟩ := taken h
    exact absurd hnew hold

structure Untouched (k : κ) (c t : Calls ident) : Prop where
  stage : t.stages k = c.stages k
  slot : t.inflightRequests.slots k = c.inflightRequests.slots k
  registered : t.inflightRequests.Registered k ↔ c.inflightRequests.Registered k

theorem untouched_settle {which : String → Bool} {slot : OneShot Response} (hk : which (ident k) = false) :
    Untouched k c { c with inflightRequests := c.inflightRequests.settle which slot } :=
  ⟨rfl, Pending.slots_settle_of_not hk, by simp [hk]⟩

theorem untouched_step (hident : Function.Injective ident) (h : c.step e = some t)
    (hk : e.concerns ident k = false) : Untouched k c t := by
  cases e with
  | call j s =>
    have hkj : k ≠ j := by
      rintro rfl
      simp [CallsEvent.concerns] at hk
    have hids : ident k ≠ ident j := fun h => hkj (hident h)
    cases called h with
    | added _ =>
      exact ⟨stages_enter_of_ne hkj, Pending.slots_add_of_ne hids, Pending.registered_add_of_ne hids⟩
    | discarded _ _ =>
      have hsettle : Untouched k c { c with inflightRequests := c.inflightRequests.discard (ident j) } :=
        untouched_settle (decide_eq_false hids)
      exact ⟨stages_enter_of_ne hkj, hsettle.slot, hsettle.registered⟩
    | _ => exact ⟨stages_enter_of_ne hkj, rfl, Iff.rfl⟩
  | respond m =>
    cases h
    exact untouched_settle (by simpa [CallsEvent.concerns, eq_comm] using hk)
  | discard id =>
    cases h
    exact untouched_settle (by simpa [CallsEvent.concerns, eq_comm] using hk)
  | failAll _ => simp [CallsEvent.concerns] at hk
  | taken =>
    obtain ⟨queue, rfl⟩ := taken h
    exact ⟨rfl, rfl, Iff.rfl⟩

/-- In the run `es` from `c`, `m` is the first message with the id of `k` that `respond` was given
while `k` was registered. -/
def FirstResponse (c : Calls ident) (es : List (CallsEvent κ)) (k : κ) (m : S2cMessage) : Prop :=
  ∃ pre post s, es = pre ++ .respond m :: post ∧ exec step c pre = some s ∧
    s.inflightRequests.Registered k ∧ m.correlationId = ident k ∧
    ∀ pre' mid m' s', pre = pre' ++ .respond m' :: mid → m'.correlationId = ident k →
      exec step c pre' = some s' → ¬s'.inflightRequests.Registered k

theorem slots_exec {es : List (CallsEvent κ)} (hc : c.Sound) (hslot : c.inflightRequests.slots k ≠ .empty)
    (h : exec step c es = some t) : t.inflightRequests.slots k = c.inflightRequests.slots k := by
  have hkeep : t.Sound ∧ t.inflightRequests.slots k = c.inflightRequests.slots k := by
    apply invariant (I := fun s => s.Sound ∧ s.inflightRequests.slots k = c.inflightRequests.slots k) _
      ⟨hc, rfl⟩ ⟨es, h⟩
    rintro s e u ⟨hs, hsame⟩ hstep
    exact ⟨sound_step hs hstep, (slots_step hs (hsame ▸ hslot) hstep).trans hsame⟩
  exact hkeep.2

theorem firstResponse {es : List (CallsEvent κ)} {m : S2cMessage} (hc : c.Sound)
    (hempty : c.inflightRequests.slots k = .empty) (h : exec step c es = some t)
    (hslot : t.inflightRequests.slots k = .filled (.ok m)) : FirstResponse c es k m := by
  induction es using List.reverseRecOn generalizing t with
  | nil =>
    cases h
    cases hempty.symm.trans hslot
  | append_singleton es e ih =>
    rw [exec_append] at h
    obtain ⟨s, hs, hstep⟩ := Option.bind_eq_some_iff.mp h
    have hstep' : s.step e = some t := by simpa [exec_cons] using hstep
    by_cases hold : s.inflightRequests.slots k = .filled (.ok m)
    · obtain ⟨pre, post, u, rfl, hu, hk, hm, hfirst⟩ := ih hs hold
      exact ⟨pre, post ++ [e], u, by simp, hu, hk, hm, hfirst⟩
    · obtain ⟨rfl, hm, hk⟩ := filled_step hstep' hold hslot
      refine ⟨es, [], s, rfl, hs, hk, hm, ?_⟩
      rintro pre mid m' u rfl hm' hu hku
      have hrest : exec step { u with inflightRequests := u.inflightRequests.respond m' } mid = some s := by
        rw [exec_append, hu] at hs
        exact hs
      have hanswered : (u.inflightRequests.respond m').slots k = .filled (.ok m') := by
        simp [InflightRequests.respond, Pending.slots_settle, hku, hm']
      have hu' : u.Sound := invariant (fun _ _ _ => sound_step) hc ⟨pre, hu⟩
      have hstill := slots_exec (k := k) (sound_step hu' (e := .respond m') rfl) (by simp [hanswered]) hrest
      cases hk.empty.symm.trans (hstill.trans hanswered)

theorem returned_exec {es : List (CallsEvent κ)} {re : Response} (hre : c.stages k = .returned re)
    (h : exec step c es = some t) : t.stages k = .returned re :=
  invariant (I := fun s => s.stages k = .returned re) (fun _ _ _ hs => returned_step hs) hre ⟨es, h⟩

structure Matched (c : Calls ident) (es : List (CallsEvent κ)) (t : Calls ident) (k : κ) : Prop where
  once : ∀ pre s re, pre <+: es → exec step c pre = some s → s.stages k = .returned re →
    t.stages k = .returned re
  filledOnce : ∀ pre s, pre <+: es → exec step c pre = some s → s.inflightRequests.slots k ≠ .empty →
    t.inflightRequests.slots k = s.inflightRequests.slots k
  response : ∀ m, t.stages k = .returned (.ok m) → m.correlationId = ident k ∧ FirstResponse c es k m
  others : ∀ pre e post s u, es = pre ++ e :: post → exec step c pre = some s → s.step e = some u →
    e.concerns ident k = false → Untouched k s u
  gone : ∀ re, t.stages k = .returned re → t.inflightRequests.senders (ident k) = none

theorem matched (hident : Function.Injective ident) {capacity : ℕ} {es : List (CallsEvent κ)}
    (h : exec step (new ident capacity) es = some t) (k : κ) : Matched (new ident capacity) es t k := by
  have hnew : (new ident capacity).Sound := sound_new ident capacity
  have ht : t.Sound := invariant (fun _ _ _ => sound_step) hnew ⟨es, h⟩
  have hrest : ∀ pre s, pre <+: es → exec step (new ident capacity) pre = some s →
      ∃ post, exec step s post = some t := by
    rintro pre s ⟨post, rfl⟩ hs
    rw [exec_append, hs] at h
    exact ⟨post, h⟩
  constructor
  · intro pre s re hpre hs hre
    obtain ⟨post, hpost⟩ := hrest pre s hpre hs
    exact returned_exec hre hpost
  · intro pre s hpre hs hslot
    obtain ⟨post, hpost⟩ := hrest pre s hpre hs
    exact slots_exec (invariant (fun _ _ _ => sound_step) hnew ⟨pre, hs⟩) hslot hpost
  · intro m hm
    have hslot := ht.ok k m hm
    exact ⟨ht.answer k m hslot, firstResponse hnew rfl h hslot⟩
  · intro pre e post s u _ _ hstep hk
    exact untouched_step hident hstep hk
  · intro re hre
    have hk := ht.gone k re hre
    cases hsender : t.inflightRequests.senders (ident k) with
    | none => rfl
    | some j =>
      obtain rfl : j = k := hident (t.inflightRequests.own _ j hsender)
      exact absurd hsender hk

def lateAndTwice : List (CallsEvent String) :=
  [.call "a" .added, .call "b" .added, .call "a" .queued, .respond ⟨"c", none, none⟩, .call "b" .queued,
    .respond ⟨"a", some .followResponse, none⟩, .respond ⟨"a", none, none⟩, .call "b" .timedOut, .taken,
    .respond ⟨"b", none, none⟩, .call "b" .discarded, .call "a" .received, .failAll .closed,
    .respond ⟨"b", none, none⟩]

theorem matched_sample : ∃ t, exec step (new id 2) lateAndTwice = some t ∧
    t.stages "a" = .returned (.ok ⟨"a", some .followResponse, none⟩) ∧
    t.stages "b" = .returned (.error .timeout) ∧ ∀ k, Matched (new id 2) lateAndTwice t k :=
  ⟨_, rfl, rfl, rfl, matched Function.injective_id rfl⟩

end Calls

end S2c
