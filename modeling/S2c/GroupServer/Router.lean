import Mathlib.Logic.Function.Basic
import S2c.Machine
import S2c.Proto.Messages

namespace S2c

open Machine

/-- `inner_drain_out` with its local map, the shared map and what was put on the clients' channels.
A client gets its one sender when it is registered, so a sender goes by the identity of its client.
`current` is the envelope in hand. -/
structure Router where
  clientsIns : NodeIdentity → Bool
  localClientIns : NodeIdentity → Bool
  channels : NodeIdentity → List S2cMessageEnvelope
  current : Option S2cMessageEnvelope

inductive RouterEvent where
  | handleClient (nodeIdentity : NodeIdentity)
  | received (msg : S2cMessageEnvelope)
  | routed
  deriving DecidableEq

namespace Router

def new : Router := ⟨fun _ => false, fun _ => false, fun _ => [], none⟩

def handleClient (s : Router) (n : NodeIdentity) : Router :=
  if s.clientsIns n then s else { s with clientsIns := Function.update s.clientsIns n true }

def route (s : Router) (msg : S2cMessageEnvelope) : Router :=
  let n := msg.nodeIdentity
  if s.localClientIns n then
    -- the result of `send` is not looked at
    { s with channels := Function.update s.channels n (s.channels n ++ [msg]), current := none }
  else if s.clientsIns n then
    -- the message that fills the local map is not sent
    { s with localClientIns := Function.update s.localClientIns n true, current := none }
  else { s with current := none }

end Router

/-- A run of the router, with the envelopes it received for each client since the client was
registered, and whether one for the client was in hand then. -/
structure RouterRun where
  router : Router
  addressed : NodeIdentity → List S2cMessageEnvelope
  primed : NodeIdentity → Bool

def Tracks (sent addressed inHand : List S2cMessageEnvelope) : (registered cached primed : Bool) → Prop
  | false, cached, _ => cached = false ∧ sent = [] ∧ addressed = []
  | true, false, true => sent = [] ∧ addressed = [] ∧ inHand ≠ []
  | true, false, false => sent = [] ∧ addressed = inHand
  | true, true, true => addressed = sent ++ inHand
  | true, true, false => ∃ lost, addressed = lost :: (sent ++ inHand)

section Tracks

variable {sent addressed inHand : List S2cMessageEnvelope} {registered cached primed : Bool}

theorem Tracks.register (h : Tracks sent addressed inHand false cached primed) :
    Tracks sent addressed inHand true cached (decide (inHand ≠ [])) := by
  obtain ⟨rfl, rfl, rfl⟩ := h
  by_cases hhand : inHand = [] <;> simp [Tracks, hhand]

theorem Tracks.receive (h : Tracks sent addressed [] registered cached primed) (msg : S2cMessageEnvelope) :
    Tracks sent (if registered then addressed ++ [msg] else addressed) [msg] registered cached primed := by
  cases registered with
  | false => exact h
  | true =>
    cases cached <;> cases primed
    · obtain ⟨hsent, rfl⟩ := h
      exact ⟨hsent, rfl⟩
    · exact absurd rfl h.2.2
    · obtain ⟨lost, rfl⟩ := h
      exact ⟨lost, by simp⟩
    · have haddressed : addressed = sent ++ [] := h
      simp [Tracks, haddressed]

theorem Tracks.send {msg : S2cMessageEnvelope} (h : Tracks sent addressed [msg] registered true primed) :
    Tracks (sent ++ [msg]) addressed [] registered true primed := by
  cases registered with
  | false => cases h.1
  | true => cases primed <;> simpa [Tracks] using h

theorem Tracks.fill {msg : S2cMessageEnvelope} (h : Tracks sent addressed [msg] registered false primed) :
    Tracks sent addressed [] registered registered primed := by
  cases registered with
  | false => exact h
  | true =>
    cases primed with
    | false =>
      obtain ⟨rfl, rfl⟩ := h
      exact ⟨msg, rfl⟩
    | true =>
      obtain ⟨rfl, rfl, _⟩ := h
      rfl

end Tracks

namespace RouterRun

def start : RouterRun := ⟨Router.new, fun _ => [], fun _ => false⟩

def inHand (s : RouterRun) (n : NodeIdentity) : List S2cMessageEnvelope :=
  s.router.current.toList.filter (fun msg => msg.nodeIdentity = n)

def step (s : RouterRun) : RouterEvent → Option RouterRun
  | .handleClient n => some
      { s with
        router := s.router.handleClient n
        primed := if s.router.clientsIns n then s.primed else Function.update s.primed n (s.inHand n ≠ []) }
  | .received msg =>
    if s.router.current = none then some
      { s with
        router := { s.router with current := some msg }
        addressed :=
          if s.router.clientsIns msg.nodeIdentity then
            Function.update s.addressed msg.nodeIdentity (s.addressed msg.nodeIdentity ++ [msg])
          else s.addressed }
    else none
  | .routed => s.router.current.map (fun msg => { s with router := s.router.route msg })

def Sound (s : RouterRun) : Prop :=
  ∀ n, Tracks (s.router.channels n) (s.addressed n) (s.inHand n) (s.router.clientsIns n)
    (s.router.localClientIns n) (s.primed n)

def Delivered (s : RouterRun) (n : NodeIdentity) : Prop := s.router.channels n = s.addressed n

variable {s t : RouterRun}

theorem sound_start : start.Sound := fun _ => ⟨rfl, rfl, rfl⟩

theorem sound_handleClient (h : s.Sound) {n : NodeIdentity} (hstep : s.step (.handleClient n) = some t) :
    t.Sound := by
  simp only [step, Router.handleClient, Option.some.injEq] at hstep
  subst hstep
  cases hn : s.router.clientsIns n with
  | true => simpa [hn] using h
  | false =>
    intro m
    have hm := h m
    by_cases hmn : m = n
    · subst hmn
      rw [hn] at hm
      simpa [hn, inHand] using hm.register
    · simpa [hn, hmn, inHand] using hm

theorem sound_received (h : s.Sound) {msg : S2cMessageEnvelope} (hstep : s.step (.received msg) = some t) :
    t.Sound := by
  simp only [step] at hstep
  split_ifs at hstep with hcurrent
  all_goals
    cases hstep
    intro m
    have hm := h m
    by_cases hmn : msg.nodeIdentity = m
    · subst hmn
      simp only [inHand, hcurrent, Option.toList_none, List.filter_nil] at hm
      simpa [*, inHand] using hm.receive msg
    · have hmn' : m ≠ msg.nodeIdentity := fun h' => hmn h'.symm
      simpa [*, inHand, hmn'] using hm

theorem sound_routed (h : s.Sound) (hstep : s.step .routed = some t) : t.Sound := by
  obtain ⟨msg, hcurrent, rfl⟩ := Option.map_eq_some_iff.mp hstep
  intro m
  have hm := h m
  by_cases hmn : msg.nodeIdentity = m
  · subst hmn
    have hhand : s.inHand msg.nodeIdentity = [msg] := by simp [inHand, hcurrent]
    rw [hhand] at hm
    cases hcached : s.router.localClientIns msg.nodeIdentity with
    | true =>
      rw [hcached] at hm
      simpa [Router.route, hcached, inHand] using hm.send
    | false =>
      rw [hcached] at hm
      cases hregistered : s.router.clientsIns msg.nodeIdentity with
      | true =>
        rw [hregistered] at hm
        simpa [Router.route, hcached, hregistered, inHand] using hm.fill
      | false =>
        rw [hregistered] at hm
        simpa [Router.route, hcached, hregistered, inHand] using hm.fill
  · have hmn' : m ≠ msg.nodeIdentity := fun h' => hmn h'.symm
    have hhand : s.inHand m = [] := by simp [inHand, hcurrent, hmn]
    rw [hhand] at hm
    simp only [Router.route]
    split_ifs <;> simpa [hmn', inHand] using hm

theorem sound_of_reachable (h : Reachable step start s) : s.Sound := by
  apply Machine.invariant _ sound_start h
  intro s e t hs hstep
  cases e with
  | handleClient n => exact sound_handleClient hs hstep
  | received msg => exact sound_received hs hstep
  | routed => exact sound_routed hs hstep

theorem delivered_iff (h : Reachable step start s) (hidle : s.router.current = none) {n : NodeIdentity}
    (hn : s.router.clientsIns n = true) : s.Delivered n ↔ s.addressed n = [] ∨ s.primed n = true := by
  have htracks := sound_of_reachable h n
  have hhand : s.inHand n = [] := by simp [inHand, hidle]
  rw [hn, hhand] at htracks
  unfold Delivered
  cases hcached : s.router.localClientIns n <;> cases hprimed : s.primed n <;>
    rw [hcached, hprimed] at htracks
  · simp [htracks.1, htracks.2]
  · exact absurd rfl htracks.2.2
  · obtain ⟨lost, haddressed⟩ := htracks
    rw [List.append_nil] at haddressed
    simp [haddressed]
  · have haddressed : s.addressed n = s.router.channels n ++ [] := htracks
    simp [haddressed]

def sampleIdentity : NodeIdentity := ⟨"n1", "h1", 1, "a"⟩

def sampleEnvelope : S2cMessageEnvelope := ⟨⟨"c1", some (.replicateResponse ⟨1⟩), none⟩, sampleIdentity⟩

def sampleRouterRun : List RouterEvent :=
  [.handleClient sampleIdentity, .received sampleEnvelope, .routed]

def laterEnvelope : S2cMessageEnvelope := ⟨⟨"c2", some (.replicateResponse ⟨2⟩), none⟩, sampleIdentity⟩

def laterRouterRun : List RouterEvent := sampleRouterRun ++ [.received laterEnvelope, .routed]

theorem delivered_iff_sample : ∃ s, exec step start laterRouterRun = some s ∧
    s.addressed sampleIdentity = [sampleEnvelope, laterEnvelope] ∧
    s.router.channels sampleIdentity = [laterEnvelope] ∧
    (s.Delivered sampleIdentity ↔ s.addressed sampleIdentity = [] ∨ s.primed sampleIdentity = true) :=
  ⟨_, rfl, rfl, rfl, delivered_iff ⟨laterRouterRun, rfl⟩ rfl rfl⟩

theorem delivered_fails : ∃ s, exec step start sampleRouterRun = some s ∧
    s.addressed sampleIdentity = [sampleEnvelope] ∧ s.router.channels sampleIdentity = [] ∧
    ¬s.Delivered sampleIdentity := by
  refine ⟨_, rfl, rfl, rfl, ?_⟩
  unfold Delivered
  decide

end RouterRun

end S2c
