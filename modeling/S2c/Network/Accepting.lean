import S2c.Network.Binding
import S2c.Network.Serve

namespace S2c

open Machine

def ServeStage.accepts : ServeStage → Bool
  | .loading => true
  | .accepting => true
  | .accepted _ => true
  | .unbinding => true
  | _ => false

theorem ServeStage.inCharge_of_accepts {stage : ServeStage} (h : stage.accepts = true) : stage.inCharge = true := by
  cases stage <;> first | rfl | cases h

namespace S2cServer

structure Accepting (s : S2cServer) : Prop where
  charged : s.Charged
  token : s.closes = [] → s.cancellationToken = false
  ready : s.closes = [] → (s.serverState = .ready ↔ s.starting = .spawning ∨ 0 < s.serves.countP ServeStage.accepts)

variable {s t u : S2cServer} {e : ServerEvent} {i : ℕ}

theorem countP_accepts_le (serves : List ServeStage) :
    serves.countP ServeStage.accepts ≤ serves.countP ServeStage.inCharge :=
  List.countP_mono_left (fun _ _ => ServeStage.inCharge_of_accepts)

theorem doServe_accepts {stage next : ServeStage} {e : ServeEvent} {serverState : ServerState}
    (htoken : s.cancellationToken = false) (hready : stage.accepts = true → s.serverState = .ready)
    (h : s.doServe stage e = some (serverState, next)) :
    ((serverState = .ready ↔ s.serverState = .ready) ∧ next.accepts = stage.accepts) ∨
      (stage.inCharge = true ∧ (serverState = .ready ↔ next.accepts = true)) := by
  unfold doServe at h
  split at h
  · split_ifs at h <;> cases h <;> exact Or.inl ⟨Iff.rfl, rfl⟩
  · cases h
    exact Or.inl ⟨Iff.rfl, rfl⟩
  · split_ifs at h <;> cases h <;> exact Or.inl ⟨Iff.rfl, rfl⟩
  · rw [hready rfl] at h
    cases h
    exact Or.inr ⟨rfl, by simp [ServeStage.accepts]⟩
  · by_cases hfree : s.serverState = .notBound
    · simp only [ServerState.compareAndExchange, hfree, if_true] at h
      cases h
      exact Or.inl ⟨by simp [hfree], rfl⟩
    · simp only [ServerState.compareAndExchange, hfree, if_false] at h
      cases h
      exact Or.inl ⟨Iff.rfl, rfl⟩
  · rename_i ok
    cases h
    refine Or.inl ⟨Iff.rfl, ?_⟩
    cases ok <;> rfl
  · cases h
    exact Or.inr ⟨rfl, iff_of_true rfl rfl⟩
  · cases h
    exact Or.inr ⟨rfl, by simp [ServeStage.accepts]⟩
  · simp [htoken] at h
  · simp [htoken] at h
  · cases h

theorem Accepting.accepts (hs : s.Accepting) (hopen : s.closes = []) {stage : ServeStage}
    (hstage : s.serves[i]? = some stage) (haccepts : stage.accepts = true) : s.serverState = .ready := by
  apply (hs.ready hopen).mpr
  right
  exact List.countP_pos_iff.mpr ⟨stage, List.mem_of_getElem? hstage, haccepts⟩

theorem accepting_serve {stage next : ServeStage} {e : ServeEvent} {serverState : ServerState}
    (hs : s.Accepting) (hstage : s.serves[i]? = some stage)
    (hserve : s.doServe stage e = some (serverState, next)) :
    Accepting { s with serverState := serverState, serves := s.serves.set i next } := by
  refine ⟨charged_served hs.charged hstage (served hserve), hs.token, ?_⟩
  intro hopen
  dsimp only at hopen ⊢
  have hcount := countP_moved (p := ServeStage.accepts) hstage next
  rcases doServe_accepts (hs.token hopen) (hs.accepts hopen hstage) hserve with ⟨hstate, haccepts⟩ | ⟨hcharge, hstate⟩
  · have hsame : (s.serves.set i next).countP ServeStage.accepts = s.serves.countP ServeStage.accepts := by
      rw [haccepts] at hcount
      omega
    rw [hstate, hsame]
    exact hs.ready hopen
  · -- nobody else is in charge, so nobody else accepts
    have hothers := countP_moved (p := ServeStage.inCharge) hstage .returned
    have hrest := countP_moved (p := ServeStage.accepts) hstage .returned
    have hle := countP_accepts_le (s.serves.set i .returned)
    have halone := hs.charged.alone
    have hidle := hs.charged.idle hstage hcharge
    have hreturned : ServeStage.returned.inCharge = false := rfl
    rw [hcharge, hreturned, Bool.toNat_true, Bool.toNat_false] at hothers
    have hsilent : ServeStage.returned.accepts = false := rfl
    rw [hsilent, Bool.toNat_false] at hrest
    rw [hstate, hidle]
    cases hnext : next.accepts with
    | true =>
      rw [hnext, Bool.toNat_true] at hcount
      simp only [true_iff]
      right
      omega
    | false =>
      rw [hnext, Bool.toNat_false] at hcount
      simp only [reduceCtorEq, false_or, false_iff]
      omega

theorem accepting_start {e : StartEvent} (hs : s.Accepting) (hcharged : t.Charged) (h : Started s e t) :
    t.Accepting := by
  have hnone (hstarting : s.starting ≠ .idle) : s.serves.countP ServeStage.accepts = 0 := by
    have hle := countP_accepts_le s.serves
    have hzero := hs.charged.starting hstarting
    omega
  cases h with
  | exchanged hidle hcloses hfree =>
    have hle := countP_accepts_le s.serves
    have hzero := (hs.charged.free hfree).2
    refine ⟨hcharged, hs.token, fun _ => ?_⟩
    simp only [reduceCtorEq, false_or, false_iff]
    omega
  | kept => exact hs
  | bound ok hbinding =>
    have hzero := hnone (by simp [hbinding])
    have hbound := hs.charged.bound (Or.inl hbinding)
    refine ⟨hcharged, hs.token, fun _ => ?_⟩
    rw [hbound, hzero]
    cases ok <;> simp
  | readyStored => exact ⟨hcharged, hs.token, fun _ => by simp⟩
  | spawned hspawning =>
    have hready := hs.charged.ready hspawning
    refine ⟨hcharged, hs.token, fun _ => ?_⟩
    simp [hready, ServeStage.accepts]

theorem accepting_step (hs : s.Accepting) (h : s.step e = some t) : t.Accepting := by
  have hcharged := charged_step hs.charged h
  cases stepped h with
  | start hstart => exact accepting_start hs hcharged hstart
  | serve hstage hserve => exact accepting_serve hs hstage hserve
  | close =>
    refine ⟨hcharged, ?_, ?_⟩
    · intro hopen
      simp at hopen
    · intro hopen
      simp at hopen
  | closing hclosing =>
    have hclosed : t.closes ≠ [] := by
      intro hopen
      cases hclosing with
      | closedStored hstage =>
        rw [List.set_eq_nil_iff] at hopen
        rw [hopen] at hstage
        cases hstage
      | cancelled hstage =>
        rw [List.set_eq_nil_iff] at hopen
        rw [hopen] at hstage
        cases hstage
      | waited hstage =>
        rw [List.set_eq_nil_iff] at hopen
        rw [hopen] at hstage
        cases hstage
    exact ⟨hcharged, fun hopen => absurd hopen hclosed, fun hopen => absurd hopen hclosed⟩

theorem accepting_new : new.Accepting := ⟨charged_new, fun _ => rfl, fun _ => by simp [new]⟩

/-- At most one call of `start` or `do_serve` is in charge of the state. Until the first `close` it is
`Ready` exactly while one is in its accept loop or `start` is about to spawn it. -/
theorem ready_iff_accepting (h : Reachable step new s) :
    (if s.starting = .idle then 0 else 1) + s.serves.countP ServeStage.inCharge ≤ 1 ∧
      (s.closes = [] → (s.serverState = .ready ↔
        s.starting = .spawning ∨ ∃ stage ∈ s.serves, stage.accepts = true)) := by
  have hs : s.Accepting := invariant (fun _ _ _ => accepting_step) accepting_new h
  constructor
  · have halone := hs.charged.alone
    split_ifs with hidle
    · omega
    · have hzero := hs.charged.starting hidle
      omega
  · intro hopen
    rw [hs.ready hopen, List.countP_pos_iff]

theorem ready_iff_accepting_sample : ∃ s, exec step new acceptError = some s ∧ s.closes = [] ∧
    s.serverState = .ready ∧ ∃ stage ∈ s.serves, stage.accepts = true := by
  cases hs : exec step new acceptError with
  | none => cases hs
  | some s =>
    have haccepting := (ready_iff_accepting ⟨_, hs⟩).2
    cases hs
    exact ⟨_, rfl, rfl, rfl, ((haccepting rfl).mp rfl).resolve_left (by simp)⟩

structure Retired (s : S2cServer) : Prop where
  idle : s.starting = .idle
  returned : ∀ stage ∈ s.serves, stage = .returned
  bound : s.serverState ≠ .notBound

theorem retired_step (hs : s.Retired) (h : s.step e = some t) : t.Retired ∧ t.serves = s.serves ∧
    (t.serverState = s.serverState ∨ t.serverState = .closed) := by
  cases stepped h with
  | start hstart =>
    cases hstart with
    | exchanged _ _ hfree => exact absurd hfree hs.bound
    | kept => exact ⟨hs, rfl, Or.inl rfl⟩
    | bound ok hbinding => cases hs.idle.symm.trans hbinding
    | readyStored hstoring => cases hs.idle.symm.trans hstoring
    | spawned hspawning => cases hs.idle.symm.trans hspawning
  | serve hstage hserve =>
    obtain rfl := hs.returned _ (List.mem_of_getElem? hstage)
    simp [doServe] at hserve
  | close => exact ⟨⟨hs.idle, hs.returned, hs.bound⟩, rfl, Or.inl rfl⟩
  | closing hclosing =>
    cases hclosing with
    | closedStored => exact ⟨⟨hs.idle, hs.returned, by simp⟩, rfl, Or.inr rfl⟩
    | cancelled => exact ⟨⟨hs.idle, hs.returned, hs.bound⟩, rfl, Or.inl rfl⟩
    | waited => exact ⟨⟨hs.idle, hs.returned, hs.bound⟩, rfl, Or.inl rfl⟩

def Unbound (s : S2cServer) : Prop := s.serverState = .notBound →
  .rebinding ∈ s.serves ∨ ∀ c ∈ s.closes, c = .storing

theorem doServe_unbound {stage next : ServeStage} {e : ServeEvent} {serverState : ServerState}
    (h : s.doServe stage e = some (serverState, next)) (hfree : serverState = .notBound) :
    next = .rebinding ∨ (s.serverState = .notBound ∧ stage ≠ .rebinding) := by
  unfold doServe at h
  split at h
  · cases h
    exact Or.inr ⟨hfree, by simp⟩
  · cases h
    exact Or.inr ⟨hfree, by simp⟩
  · cases h
    exact Or.inr ⟨hfree, by simp⟩
  · unfold ServerState.compareAndExchange at h
    split_ifs at h with hready
    · cases h
      exact Or.inl rfl
    · cases h
      exact Or.inr ⟨hfree, by simp⟩
  · unfold ServerState.compareAndExchange at h
    split_ifs at h with hunbound
    · cases h
      cases hfree
    · cases h
      exact absurd hfree hunbound
  · cases h
    exact Or.inr ⟨hfree, by simp⟩
  · cases h
    cases hfree
  · cases h
    cases hfree
  · split_ifs at h
    cases h
    exact Or.inr ⟨hfree, by simp⟩
  · split_ifs at h
    cases h
    exact Or.inr ⟨hfree, by simp⟩
  · cases h

theorem unbound_step (hs : s.Unbound) (h : s.step e = some t) : t.Unbound := by
  cases stepped h with
  | start hstart =>
    cases hstart with
    | exchanged =>
      intro hfree
      cases hfree
    | kept => exact hs
    | bound => exact hs
    | readyStored =>
      intro hfree
      cases hfree
    | spawned =>
      intro hfree
      exact (hs hfree).imp_left (List.mem_append_left _)
  | serve hstage hserve =>
    rename_i i _ _ _ _
    intro hfree
    obtain ⟨hi, _⟩ := List.getElem?_eq_some_iff.mp hstage
    rcases doServe_unbound hserve hfree with rfl | ⟨hunbound, hne⟩
    · left
      exact List.mem_set hi _
    · apply (hs hunbound).imp_left
      intro hmem
      obtain ⟨j, hj⟩ := List.mem_iff_getElem?.mp hmem
      have hij : i ≠ j := by
        rintro rfl
        exact hne (Option.some.inj (hstage.symm.trans hj))
      apply List.mem_iff_getElem?.mpr
      exact ⟨j, by rw [List.getElem?_set_ne hij, hj]⟩
  | close =>
    intro hfree
    apply (hs hfree).imp_right
    intro hstoring c hc
    have hnot : s.serverState ≠ .closed := by
      rw [show s.serverState = .notBound from hfree]
      simp
    rw [if_neg hnot] at hc
    rcases List.mem_append.mp hc with hc | hc
    · exact hstoring c hc
    · exact List.mem_singleton.mp hc
  | closing hclosing =>
    cases hclosing with
    | closedStored =>
      intro hfree
      cases hfree
    | cancelled hstage =>
      intro hfree
      left
      apply (hs hfree).resolve_right
      intro hstoring
      cases hstoring _ (List.mem_of_getElem? hstage)
    | waited hstage =>
      intro hfree
      left
      apply (hs hfree).resolve_right
      intro hstoring
      cases hstoring _ (List.mem_of_getElem? hstage)

theorem retired_of_waited (hreach : Reachable step new s) (h : s.step (.closing i .waited) = some t) :
    t.Retired := by
  have hs : s.Unbound := invariant (fun _ _ _ => unbound_step) (fun _ => Or.inr (by simp [new])) hreach
  have hexclusive : s.Exclusive := invariant (fun _ _ _ => exclusive_step) (Or.inl rfl) hreach
  cases stepped h with
  | closing hclosing =>
    have hidle := (idle_closing hexclusive hclosing).1
    cases hclosing with
    | waited hstage hserves =>
      refine ⟨hidle, hserves, ?_⟩
      intro hfree
      rcases hs hfree with hmem | hstoring
      · cases hserves _ hmem
      · cases hstoring _ (List.mem_of_getElem? hstage)

end S2cServer

namespace ServeRun

variable {s t u : ServeRun} {e : ServeRunEvent} {i : ℕ}

theorem server_step (h : s.step e = some t) : Reachable S2cServer.step s.server t.server := by
  have hmap {ev : ServerEvent} (pools : S2cServer → List HandlerPool)
      (h : (s.server.step ev).map (fun server => ServeRun.mk server (pools server)) = some t) :
      Reachable S2cServer.step s.server t.server := by
    obtain ⟨server, hserver, rfl⟩ := Option.map_eq_some_iff.mp h
    exact .single hserver
  cases e with
  | server e =>
    cases e with
    | serve i ev =>
      obtain ⟨pool, hpool, hserve⟩ := Option.bind_eq_some_iff.mp h
      split_ifs at hserve
      exact hmap _ hserve
    | start ev =>
      cases ev with
      | spawned =>
        obtain ⟨server, hserver, rfl⟩ := Option.map_eq_some_iff.mp h
        exact .single hserver
      | _ => exact hmap (fun _ => s.pools) h
    | closing i ev =>
      cases ev with
      | waited =>
        simp only [step] at h
        split_ifs at h
        exact hmap (fun _ => s.pools) h
      | _ => exact hmap (fun _ => s.pools) h
    | close => exact hmap (fun _ => s.pools) h
  | handlerEnded i =>
    obtain ⟨pool, _, hended⟩ := Option.bind_eq_some_iff.mp h
    split_ifs at hended
    cases hended
    exact .refl _
  | handlersWaited i =>
    obtain ⟨pool, _, hended⟩ := Option.bind_eq_some_iff.mp h
    split_ifs at hended
    cases hended
    exact .refl _

structure Down (t u : ServeRun) : Prop where
  retired : u.server.Retired
  serves : u.server.serves = t.server.serves
  state : u.server.serverState = t.server.serverState ∨ u.server.serverState = .closed
  handlers : ∀ (j : ℕ) (pool : HandlerPool), u.pools[j]? = some pool →
    ∃ old : HandlerPool, t.pools[j]? = some old ∧ pool.handlers ≤ old.handlers

theorem down_handlers {pool old : HandlerPool} (hu : Down t u) (hold : u.pools[i]? = some old)
    (hle : pool.handlers ≤ old.handlers) : Down t { u with pools := u.pools.set i pool } := by
  refine ⟨hu.retired, hu.serves, hu.state, ?_⟩
  intro j found hfound
  dsimp only at hfound
  by_cases hij : i = j
  · subst hij
    obtain ⟨hi, _⟩ := List.getElem?_eq_some_iff.mp hold
    rw [List.getElem?_set_self hi] at hfound
    cases hfound
    obtain ⟨first, hfirst, hsame⟩ := hu.handlers i old hold
    exact ⟨first, hfirst, Nat.le_trans hle hsame⟩
  · rw [List.getElem?_set_ne hij] at hfound
    exact hu.handlers j found hfound

theorem down_server {server : S2cServer} {ev : ServerEvent} (hu : Down t u) (h : u.server.step ev = some server) :
    Down t { u with server := server } := by
  obtain ⟨hretired, hserves, hstate⟩ := S2cServer.retired_step hu.retired h
  refine ⟨hretired, hserves.trans hu.serves, ?_, hu.handlers⟩
  rcases hstate with hsame | hclosed
  · exact hsame ▸ hu.state
  · exact Or.inr hclosed

theorem down_step {w : ServeRun} (hu : Down t u) (h : u.step e = some w) : Down t w := by
  cases e with
  | server e =>
    cases e with
    | serve i ev =>
      obtain ⟨pool, _, hserve⟩ := Option.bind_eq_some_iff.mp h
      split_ifs at hserve
      obtain ⟨server, hserver, _⟩ := Option.map_eq_some_iff.mp hserve
      cases S2cServer.stepped hserver with
      | serve hstage hstep =>
        obtain rfl := hu.retired.returned _ (List.mem_of_getElem? hstage)
        simp [S2cServer.doServe] at hstep
    | start ev =>
      cases ev with
      | spawned =>
        obtain ⟨server, hserver, _⟩ := Option.map_eq_some_iff.mp h
        cases S2cServer.stepped hserver with
        | start hstart =>
          cases hstart with
          | spawned hspawning => cases hu.retired.idle.symm.trans hspawning
      | _ =>
        obtain ⟨server, hserver, rfl⟩ := Option.map_eq_some_iff.mp h
        exact down_server hu hserver
    | closing i ev =>
      cases ev with
      | waited =>
        simp only [step] at h
        split_ifs at h
        obtain ⟨server, hserver, rfl⟩ := Option.map_eq_some_iff.mp h
        exact down_server hu hserver
      | _ =>
        obtain ⟨server, hserver, rfl⟩ := Option.map_eq_some_iff.mp h
        exact down_server hu hserver
    | close =>
      obtain ⟨server, hserver, rfl⟩ := Option.map_eq_some_iff.mp h
      exact down_server hu hserver
  | handlerEnded i =>
    obtain ⟨pool, hpool, hended⟩ := Option.bind_eq_some_iff.mp h
    split_ifs at hended
    cases hended
    apply down_handlers hu hpool
    dsimp only
    omega
  | handlersWaited i =>
    obtain ⟨pool, hpool, hended⟩ := Option.bind_eq_some_iff.mp h
    split_ifs at hended
    cases hended
    apply down_handlers hu hpool
    exact Nat.le_refl _

/-- Once a `close` has returned nobody serves or starts any more, and no handler is added. -/
theorem down_for_good (hreach : Reachable step start s) (h : s.step (.server (.closing i .waited)) = some t)
    (hrun : Reachable step t u) : Down t u := by
  have hserver : Reachable S2cServer.step .new s.server :=
    reachable_view ServeRun.server (fun _ _ _ => server_step) hreach
  have hretired : t.server.Retired := by
    simp only [step] at h
    split_ifs at h
    obtain ⟨server, hwaited, rfl⟩ := Option.map_eq_some_iff.mp h
    exact S2cServer.retired_of_waited hserver hwaited
  have ht : Down t t := ⟨hretired, rfl, Or.inl rfl, fun _ pool hpool => ⟨pool, hpool, Nat.le_refl _⟩⟩
  exact invariant (fun _ _ _ => down_step) ht hrun

theorem down_for_good_sample : ∃ s t u, exec step start closedByState.dropLast = some s ∧
    s.step (.server (.closing 0 .waited)) = some t ∧
    exec step t [.server (.start .called), .handlerEnded 0] = some u ∧ Down t u := by
  obtain ⟨s, t, u, hs, ht, hu⟩ : ∃ s t u, exec step start closedByState.dropLast = some s ∧
      s.step (.server (.closing 0 .waited)) = some t ∧
      exec step t [.server (.start .called), .handlerEnded 0] = some u := ⟨_, _, _, rfl, rfl, rfl⟩
  exact ⟨s, t, u, hs, ht, hu, down_for_good ⟨_, hs⟩ ht ⟨_, hu⟩⟩

end ServeRun

end S2c
