import S2c.Network.Server

namespace S2c

open Machine

inductive SelectStage where
  | serving
  | waiting
  | ended
  deriving DecidableEq

structure HandlerPool where
  select : SelectStage
  handlers : ℕ
  deriving DecidableEq

structure ServeRun where
  server : S2cServer
  pools : List HandlerPool
  deriving DecidableEq

inductive ServeRunEvent where
  | server (e : ServerEvent)
  | handlerEnded (i : ℕ)
  | handlersWaited (i : ℕ)
  deriving DecidableEq

def HandlerPool.served (pool : HandlerPool) (e : ServeEvent) (stage next : Option ServeStage) : HandlerPool :=
  match e with
  | .loaded =>
    if stage = some (.accepted true) ∧ next = some .loading then { pool with handlers := pool.handlers + 1 }
    else pool
  | .cancelled => { pool with select := .waiting }
  | .closedStored => { pool with select := .waiting }
  -- the other branch of the `select` is empty
  | _ => if next = some .returned then { pool with select := .ended } else pool

namespace ServeRun

def start : ServeRun := ⟨.new, []⟩

def step (s : ServeRun) : ServeRunEvent → Option ServeRun
  | .server (.serve i e) =>
    s.pools[i]?.bind (fun pool =>
      if pool.select = .serving then
        (s.server.step (.serve i e)).map (fun server =>
          ⟨server, s.pools.set i (pool.served e s.server.serves[i]? server.serves[i]?)⟩)
      else none)
  | .server (.closing i .waited) =>
    if s.pools.all (·.select = .ended) then
      (s.server.step (.closing i .waited)).map (fun server => { s with server := server })
    else none
  | .server (.start .spawned) =>
    (s.server.step (.start .spawned)).map (fun server => ⟨server, s.pools ++ [⟨.serving, 0⟩]⟩)
  | .server e => (s.server.step e).map (fun server => { s with server := server })
  | .handlerEnded i =>
    s.pools[i]?.bind (fun pool =>
      if 0 < pool.handlers then
        some { s with pools := s.pools.set i { pool with handlers := pool.handlers - 1 } }
      else none)
  | .handlersWaited i =>
    s.pools[i]?.bind (fun pool =>
      if pool.select = .waiting ∧ pool.handlers = 0 then
        some { s with pools := s.pools.set i { pool with select := .ended } }
      else none)

def closeReturns (s : ServeRun) : ServeRunEvent → Bool
  | .server (.closing _ .waited) => true
  | .server .close => s.server.serverState = .closed
  | _ => false

def Quiet (s : ServeRun) : Prop := ∀ pool ∈ s.pools, pool.handlers = 0

def Waits (s : ServeRun) (e : ServeRunEvent) : Prop := s.closeReturns e = true → s.Quiet

def serveReturns (s : ServeRun) : ServeEvent → Bool
  | .unbound => s.server.serverState ≠ .ready
  | .rebound => s.server.serverState ≠ .notBound
  | _ => false

/-- No handler runs where `do_serve` returns by itself or `close` finds the server closed. -/
def Orderly (s : ServeRun) : ServeRunEvent → Prop
  | .server (.serve i e) => s.serveReturns e = true → ∀ pool ∈ s.pools[i]?, pool.handlers = 0
  | .server .close => s.server.serverState = .closed → s.Quiet
  | _ => True

def Settled (s : ServeRun) : Prop := ∀ pool ∈ s.pools, pool.select = .ended → pool.handlers = 0

variable {s t : ServeRun} {e : ServeRunEvent} {i : ℕ}

theorem settled_set (hs : s.Settled) {pool : HandlerPool} (hpool : pool.select = .ended → pool.handlers = 0)
    {server : S2cServer} : Settled ⟨server, s.pools.set i pool⟩ := by
  intro p hp
  rcases List.mem_or_eq_of_mem_set hp with hp | rfl
  · exact hs p hp
  · exact hpool

theorem doServe_returned {server : S2cServer} {stage : ServeStage} {ev : ServeEvent} {serverState : ServerState}
    (h : server.doServe stage ev = some (serverState, .returned)) : ev = .cancelled ∨ ev = .closedStored ∨
      (ev = .unbound ∧ server.serverState ≠ .ready) ∨ (ev = .rebound ∧ server.serverState ≠ .notBound) := by
  unfold S2cServer.doServe at h
  split at h
  · split_ifs at h <;> cases h
  · cases h
  · split_ifs at h <;> cases h
  · by_cases hready : server.serverState = .ready
    · simp [ServerState.compareAndExchange, hready] at h
    · exact Or.inr (Or.inr (Or.inl ⟨rfl, hready⟩))
  · by_cases hbound : server.serverState = .notBound
    · simp [ServerState.compareAndExchange, hbound] at h
    · exact Or.inr (Or.inr (Or.inr ⟨rfl, hbound⟩))
  · split_ifs at h <;> cases h
  · cases h
  · exact Or.inr (Or.inl rfl)
  · exact Or.inl rfl
  · exact Or.inl rfl
  · cases h

theorem serve_returned {server : S2cServer} {ev : ServeEvent} (h : s.server.step (.serve i ev) = some server)
    (hreturned : server.serves[i]? = some .returned) :
    ev = .cancelled ∨ ev = .closedStored ∨ s.serveReturns ev = true := by
  cases S2cServer.stepped h with
  | serve hstage hserve =>
    obtain ⟨hi, _⟩ := List.getElem?_eq_some_iff.mp hstage
    rw [List.getElem?_set_self hi] at hreturned
    cases hreturned
    rcases doServe_returned hserve with rfl | rfl | ⟨rfl, hstate⟩ | ⟨rfl, hstate⟩
    · exact Or.inl rfl
    · exact Or.inr (Or.inl rfl)
    · exact Or.inr (Or.inr (by simpa [serveReturns] using hstate))
    · exact Or.inr (Or.inr (by simpa [serveReturns] using hstate))

theorem settled_served (hs : s.Settled) {server : S2cServer} {ev : ServeEvent} {pool : HandlerPool}
    (hpool : s.pools[i]? = some pool) (hserving : pool.select = .serving)
    (h : s.server.step (.serve i ev) = some server) (horderly : s.Orderly (.server (.serve i ev))) :
    Settled ⟨server, s.pools.set i (pool.served ev s.server.serves[i]? server.serves[i]?)⟩ := by
  apply settled_set hs
  have hopen : pool.select ≠ .ended := by simp [hserving]
  have hreturn (hcancelled : ev ≠ .cancelled) (hclosed : ev ≠ .closedStored)
      (hreturned : server.serves[i]? = some .returned) : pool.handlers = 0 := by
    have hreturns := ((serve_returned h hreturned).resolve_left hcancelled).resolve_left hclosed
    exact horderly hreturns pool (by simp [hpool])
  cases ev with
  | loaded =>
    simp only [HandlerPool.served]
    split_ifs <;> exact fun hended => absurd hended hopen
  | cancelled => simp [HandlerPool.served]
  | closedStored => simp [HandlerPool.served]
  | _ =>
    simp only [HandlerPool.served]
    split_ifs with hreturned
    · exact fun _ => hreturn (by simp) (by simp) hreturned
    · exact fun hended => absurd hended hopen

theorem settled_step (hs : s.Settled) (horderly : s.Orderly e) (h : s.step e = some t) : t.Settled := by
  cases e with
  | server e =>
    cases e with
    | serve i ev =>
      obtain ⟨pool, hpool, hserve⟩ := Option.bind_eq_some_iff.mp h
      split_ifs at hserve with hserving
      obtain ⟨server, hserver, rfl⟩ := Option.map_eq_some_iff.mp hserve
      exact settled_served hs hpool hserving hserver horderly
    | start ev =>
      cases ev with
      | spawned =>
        obtain ⟨server, _, rfl⟩ := Option.map_eq_some_iff.mp h
        intro pool hpool hended
        rcases List.mem_append.mp hpool with hpool | hpool
        · exact hs pool hpool hended
        · obtain rfl := List.mem_singleton.mp hpool
          rfl
      | _ =>
        obtain ⟨server, _, rfl⟩ := Option.map_eq_some_iff.mp h
        exact hs
    | closing i ev =>
      cases ev with
      | waited =>
        simp only [step] at h
        split_ifs at h
        obtain ⟨server, _, rfl⟩ := Option.map_eq_some_iff.mp h
        exact hs
      | _ =>
        obtain ⟨server, _, rfl⟩ := Option.map_eq_some_iff.mp h
        exact hs
    | close =>
      obtain ⟨server, _, rfl⟩ := Option.map_eq_some_iff.mp h
      exact hs
  | handlerEnded i =>
    obtain ⟨pool, hpool, hended⟩ := Option.bind_eq_some_iff.mp h
    split_ifs at hended
    cases hended
    apply settled_set hs
    intro hselect
    have hzero := hs pool (List.mem_of_getElem? hpool) hselect
    dsimp only
    omega
  | handlersWaited i =>
    obtain ⟨pool, hpool, hended⟩ := Option.bind_eq_some_iff.mp h
    split_ifs at hended with hwaited
    cases hended
    apply settled_set hs
    intro _
    exact hwaited.2

theorem waits_step (hs : s.Settled) (horderly : s.Orderly e) (h : s.step e = some t) : s.Waits e := by
  intro hreturns
  cases e with
  | server e =>
    cases e with
    | closing i ev =>
      cases ev with
      | waited =>
        -- the wait of `close` is for the serves, and each has none left
        simp only [step] at h
        split_ifs at h with hended
        intro pool hpool
        exact hs pool hpool (by simpa using List.all_eq_true.mp hended pool hpool)
      | _ => cases hreturns
    | close => exact horderly (by simpa [closeReturns] using hreturns)
    | _ => cases hreturns
  | _ => cases hreturns

theorem waits_along_run (es : List ServeRunEvent) (h : Along step Orderly start es) :
    Along step Waits start es := by
  refine h.mono (I := Settled) ?_ ?_
  · intro s e t hs horderly hstep
    exact ⟨settled_step hs horderly hstep, waits_step hs horderly hstep⟩
  · simp [Settled, start]

def serveOne (rest : List ServeRunEvent) : List ServeRunEvent :=
  [.server (.start .called), .server (.start (.bound true)), .server (.start .readyStored),
    .server (.start .spawned), .server (.serve 0 .loaded), .server (.serve 0 (.accepted true)),
    .server (.serve 0 .loaded), .server (.serve 0 .loaded)] ++ rest

def closedByToken : List ServeRunEvent :=
  serveOne [.server .close, .server (.closing 0 .closedStored), .server (.closing 0 .cancelled),
    .server (.serve 0 .cancelled), .handlerEnded 0, .handlersWaited 0, .server (.closing 0 .waited)]

-- the accept loop sees `Closed` before `serve` sees the cancellation
def closedByState : List ServeRunEvent :=
  serveOne [.server .close, .server (.closing 0 .closedStored), .server (.serve 0 (.accepted true)),
    .server (.serve 0 .loaded), .server (.serve 0 .unbound), .server (.closing 0 .cancelled),
    .server (.closing 0 .waited)]

theorem waits_along_sample : Along step Waits start closedByToken := by
  apply waits_along_run
  unfold closedByToken serveOne
  repeat
    refine (along_cons rfl).mpr ⟨?_, ?_⟩
    · first
      | exact trivial
      | nofun
  exact trivial

theorem waits_fails : (∃ s, exec step start closedByState = some s ∧ s.server.closes = [.returned] ∧
    s.pools = [⟨.ended, 1⟩]) ∧ ¬Along step Waits start closedByState := by
  refine ⟨⟨_, rfl, rfl, rfl⟩, ?_⟩
  intro h
  have hlast : closedByState = closedByState.dropLast ++ [.server (.closing 0 .waited)] := rfl
  rw [hlast] at h
  have hquiet := h.of_exec rfl rfl rfl
  cases hquiet ⟨.ended, 1⟩ List.mem_cons_self

end ServeRun

end S2c
