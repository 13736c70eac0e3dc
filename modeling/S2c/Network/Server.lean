import S2c.Machine

namespace S2c

open Machine

inductive ServerState where
  | notBound
  | binding
  | ready
  | closed
  deriving DecidableEq

inductive StartStage where
  | idle
  | binding
  | storingReady
  | spawning
  deriving DecidableEq

inductive ServeStage where
  | loading
  | accepting
  | accepted (ok : Bool)
  | unbinding
  | rebinding
  | binding
  | storingReady
  | storingClosed
  | returned
  deriving DecidableEq

inductive ServerCloseStage where
  | storing
  | cancelling
  | waiting
  | returned
  deriving DecidableEq

/-- `start` borrows the server exclusively: no `close` runs beside it. -/
structure S2cServer where
  serverState : ServerState
  cancellationToken : Bool
  starting : StartStage
  serves : List ServeStage
  closes : List ServerCloseStage
  deriving DecidableEq

inductive StartEvent where
  | called
  | bound (ok : Bool)
  | readyStored
  | spawned
  deriving DecidableEq

inductive ServeEvent where
  | loaded
  | accepted (ok : Bool)
  | unbound
  | rebound
  | bound (ok : Bool)
  | readyStored
  | closedStored
  | cancelled
  deriving DecidableEq

inductive ServerCloseEvent where
  | closedStored
  | cancelled
  | waited
  deriving DecidableEq

inductive ServerEvent where
  | start (e : StartEvent)
  | serve (i : ℕ) (e : ServeEvent)
  | close
  | closing (i : ℕ) (e : ServerCloseEvent)
  deriving DecidableEq

namespace ServerState

def compareAndExchange (s current new : ServerState) : ServerState × Bool :=
  if s = current then (new, true) else (s, false)

end ServerState

namespace S2cServer

def new : S2cServer := ⟨.notBound, false, .idle, [], []⟩

def start (s : S2cServer) (e : StartEvent) : Option S2cServer :=
  match e, s.starting with
  | .called, .idle =>
    if s.closes.all (· = .returned) then
      let (serverState, exchanged) := s.serverState.compareAndExchange .notBound .binding
      some { s with serverState := serverState, starting := if exchanged then .binding else .idle }
    else none
  -- a failed `bind` leaves the state as it is
  | .bound ok, .binding => some { s with starting := if ok then .storingReady else .idle }
  | .readyStored, .storingReady => some { s with serverState := .ready, starting := .spawning }
  | .spawned, .spawning => some { s with starting := .idle, serves := s.serves ++ [.loading] }
  | _, _ => none

/-- One step of a `do_serve`: the state and where it stands then. A token that is cancelled may drop
it wherever it awaits, and need not do so at once. -/
def doServe (s : S2cServer) (stage : ServeStage) (e : ServeEvent) : Option (ServerState × ServeStage) :=
  match e, stage with
  | .loaded, .loading => some (s.serverState, if s.serverState = .closed then .unbinding else .accepting)
  | .accepted ok, .accepting => some (s.serverState, .accepted ok)
  | .loaded, .accepted ok => some (s.serverState, if s.serverState = .closed ∨ !ok then .unbinding else .loading)
  | .unbound, .unbinding =>
    let (serverState, exchanged) := s.serverState.compareAndExchange .ready .notBound
    some (serverState, if exchanged then .rebinding else .returned)
  | .rebound, .rebinding =>
    let (serverState, exchanged) := s.serverState.compareAndExchange .notBound .binding
    some (serverState, if exchanged then .binding else .returned)
  -- the old listener is still held: another succeeds on port 0, or once the old one has been shut down
  | .bound ok, .binding => some (s.serverState, if ok then .storingReady else .storingClosed)
  | .readyStored, .storingReady => some (.ready, .loading)
  | .closedStored, .storingClosed => some (.closed, .returned)
  | .cancelled, .accepting => if s.cancellationToken then some (s.serverState, .returned) else none
  | .cancelled, .binding => if s.cancellationToken then some (s.serverState, .returned) else none
  | _, _ => none

def closing (s : S2cServer) (i : ℕ) (e : ServerCloseEvent) : Option S2cServer :=
  match e, s.closes[i]? with
  | .closedStored, some .storing => some { s with serverState := .closed, closes := s.closes.set i .cancelling }
  | .cancelled, some .cancelling => some { s with cancellationToken := true, closes := s.closes.set i .waiting }
  | .waited, some .waiting =>
    if s.serves.all (· = .returned) then some { s with closes := s.closes.set i .returned } else none
  | _, _ => none

def step (s : S2cServer) : ServerEvent → Option S2cServer
  | .start e => s.start e
  | .serve i e =>
    s.serves[i]?.bind (fun stage =>
      (s.doServe stage e).map (fun (serverState, stage) =>
        { s with serverState := serverState, serves := s.serves.set i stage }))
  | .close =>
    if s.starting = .idle then
      some { s with closes := s.closes ++ [if s.serverState = .closed then .returned else .storing] }
    else none
  | .closing i e => s.closing i e

variable {s t : S2cServer} {e : ServerEvent} {i : ℕ}

def storesReady : ServerEvent → Bool
  | .serve _ .readyStored => true
  | _ => false

def Exclusive (s : S2cServer) : Prop := s.starting = .idle ∨ ∀ c ∈ s.closes, c = .returned

theorem doServe_closed {stage : ServeStage} {e : ServeEvent} {re : ServerState × ServeStage}
    (hclosed : s.serverState = .closed) (h : s.doServe stage e = some re) :
    re.1 = .closed ↔ storesReady (.serve i e) = false := by
  unfold doServe at h
  split at h
  · cases h
    exact iff_of_true hclosed rfl
  · cases h
    exact iff_of_true hclosed rfl
  · cases h
    exact iff_of_true hclosed rfl
  · rw [hclosed] at h
    cases h
    exact iff_of_true rfl rfl
  · rw [hclosed] at h
    cases h
    exact iff_of_true rfl rfl
  · cases h
    exact iff_of_true hclosed rfl
  · cases h
    exact iff_of_false nofun nofun
  · cases h
    exact iff_of_true rfl rfl
  · split_ifs at h
    cases h
    exact iff_of_true hclosed rfl
  · split_ifs at h
    cases h
    exact iff_of_true hclosed rfl
  · cases h

inductive Started (s : S2cServer) : StartEvent → S2cServer → Prop
  | exchanged (hidle : s.starting = .idle) (hcloses : ∀ c ∈ s.closes, c = .returned)
      (hfree : s.serverState = .notBound) :
      Started s .called { s with serverState := .binding, starting := .binding }
  | kept (hidle : s.starting = .idle) (hcloses : ∀ c ∈ s.closes, c = .returned)
      (hstate : s.serverState ≠ .notBound) : Started s .called s
  | bound (ok : Bool) (hbinding : s.starting = .binding) :
      Started s (.bound ok) { s with starting := if ok then .storingReady else .idle }
  | readyStored (hstoring : s.starting = .storingReady) :
      Started s .readyStored { s with serverState := .ready, starting := .spawning }
  | spawned (hspawning : s.starting = .spawning) :
      Started s .spawned { s with starting := .idle, serves := s.serves ++ [.loading] }

theorem started {e : StartEvent} (h : s.start e = some t) : Started s e t := by
  unfold start at h
  split at h
  · rename_i hidle
    split_ifs at h with hcloses
    have hreturned : ∀ c ∈ s.closes, c = .returned := by simpa using hcloses
    by_cases hfree : s.serverState = .notBound
    · rw [hfree] at h
      cases h
      exact .exchanged hidle hreturned hfree
    · have ht : s = t := by
        obtain ⟨serverState, cancellationToken, starting, serves, closes⟩ := s
        cases hidle
        simpa [ServerState.compareAndExchange, hfree] using h
      rw [← ht]
      exact .kept hidle hreturned hfree
  · rename_i ok hbinding
    cases h
    exact .bound ok hbinding
  · rename_i hstoring
    cases h
    exact .readyStored hstoring
  · rename_i hspawning
    cases h
    exact .spawned hspawning
  · cases h

inductive Closing (s : S2cServer) (i : ℕ) : ServerCloseEvent → S2cServer → Prop
  | closedStored (hstage : s.closes[i]? = some .storing) :
      Closing s i .closedStored { s with serverState := .closed, closes := s.closes.set i .cancelling }
  | cancelled (hstage : s.closes[i]? = some .cancelling) :
      Closing s i .cancelled { s with cancellationToken := true, closes := s.closes.set i .waiting }
  | waited (hstage : s.closes[i]? = some .waiting) (hserves : ∀ stage ∈ s.serves, stage = .returned) :
      Closing s i .waited { s with closes := s.closes.set i .returned }

theorem closed {e : ServerCloseEvent} (h : s.closing i e = some t) : Closing s i e t := by
  unfold closing at h
  split at h
  · rename_i hstage
    cases h
    exact .closedStored hstage
  · rename_i hstage
    cases h
    exact .cancelled hstage
  · rename_i hstage
    split_ifs at h with hserves
    cases h
    exact .waited hstage (by simpa using hserves)
  · cases h

inductive Stepped (s : S2cServer) : ServerEvent → S2cServer → Prop
  | start {e : StartEvent} {t : S2cServer} (hstart : Started s e t) : Stepped s (.start e) t
  | serve {i : ℕ} {e : ServeEvent} {stage next : ServeStage} {serverState : ServerState}
      (hstage : s.serves[i]? = some stage) (hserve : s.doServe stage e = some (serverState, next)) :
      Stepped s (.serve i e) { s with serverState := serverState, serves := s.serves.set i next }
  | close (hidle : s.starting = .idle) :
      Stepped s .close { s with closes := s.closes ++ [if s.serverState = .closed then .returned else .storing] }
  | closing {i : ℕ} {e : ServerCloseEvent} {t : S2cServer} (hclosing : Closing s i e t) :
      Stepped s (.closing i e) t

theorem stepped (h : s.step e = some t) : Stepped s e t := by
  cases e with
  | start e => exact .start (started h)
  | serve i e =>
    obtain ⟨stage, hstage, hserve⟩ := Option.bind_eq_some_iff.mp h
    obtain ⟨⟨serverState, next⟩, hnext, rfl⟩ := Option.map_eq_some_iff.mp hserve
    exact .serve hstage hnext
  | close =>
    by_cases hidle : s.starting = .idle
    · rw [step, if_pos hidle] at h
      cases h
      exact .close hidle
    · rw [step, if_neg hidle] at h
      cases h
  | closing i e => exact .closing (closed h)

theorem closed_step (hidle : s.starting = .idle) (hclosed : s.serverState = .closed) (h : s.step e = some t) :
    t.starting = .idle ∧ (t.serverState = .closed ↔ storesReady e = false) := by
  cases stepped h with
  | start hstart =>
    cases hstart with
    | exchanged _ _ hfree => cases hclosed.symm.trans hfree
    | kept => exact ⟨hidle, iff_of_true hclosed rfl⟩
    | bound ok hbinding => cases hidle.symm.trans hbinding
    | readyStored hstoring => cases hidle.symm.trans hstoring
    | spawned hspawning => cases hidle.symm.trans hspawning
  | serve _ hserve => exact ⟨hidle, doServe_closed hclosed hserve⟩
  | close => exact ⟨hidle, iff_of_true hclosed rfl⟩
  | closing hclosing =>
    cases hclosing with
    | closedStored => exact ⟨hidle, iff_of_true rfl rfl⟩
    | cancelled => exact ⟨hidle, iff_of_true hclosed rfl⟩
    | waited => exact ⟨hidle, iff_of_true hclosed rfl⟩

theorem idle_of_open {stage : ServerCloseStage} (hs : s.Exclusive) (h : s.closes[i]? = some stage)
    (hstage : stage ≠ .returned) : s.starting = .idle := by
  apply hs.resolve_right
  intro hcloses
  exact hstage (hcloses _ (List.mem_of_getElem? h))

theorem idle_closing {e : ServerCloseEvent} (hs : s.Exclusive) (h : Closing s i e t) :
    t.starting = .idle ∧ (e = .closedStored → t.serverState = .closed) := by
  cases h with
  | closedStored hstage =>
    have hidle := idle_of_open hs hstage (by decide)
    exact ⟨hidle, fun _ => rfl⟩
  | cancelled hstage =>
    have hidle := idle_of_open hs hstage (by decide)
    exact ⟨hidle, by simp⟩
  | waited hstage =>
    have hidle := idle_of_open hs hstage (by decide)
    exact ⟨hidle, by simp⟩

theorem exclusive_step (hs : s.Exclusive) (h : s.step e = some t) : t.Exclusive := by
  cases stepped h with
  | start hstart =>
    have hcloses (hstarting : s.starting ≠ .idle) : ∀ c ∈ s.closes, c = .returned := hs.resolve_left hstarting
    cases hstart with
    | exchanged _ hreturned _ => exact .inr hreturned
    | kept => exact hs
    | bound ok hbinding => exact .inr (hcloses (by simp [hbinding]))
    | readyStored hstoring => exact .inr (hcloses (by simp [hstoring]))
    | spawned => exact .inl rfl
  | serve => exact hs
  | close hidle => exact .inl hidle
  | closing hclosing => exact .inl (idle_closing hs hclosing).1

theorem serverClosed_iff (hreach : Reachable step new s) (h : s.step (.closing i .closedStored) = some t)
    (es : List ServerEvent) :
    Always step (fun s => s.serverState = .closed) t es ↔ Along step (fun _ e => storesReady e = false) t es := by
  have hs : s.Exclusive := invariant (fun _ _ _ => exclusive_step) (.inl rfl) hreach
  obtain ⟨hidle, hclosed⟩ := idle_closing hs (closed h)
  refine always_iff_along (J := fun s : S2cServer => s.starting = .idle) ?_ ?_ hidle (hclosed rfl)
  · intro s e t hidle hclosed hstep
    exact (closed_step hidle hclosed hstep).1
  · intro s e t hidle hclosed hstep
    exact (closed_step hidle hclosed hstep).2

def acceptError : List ServerEvent :=
  [.start .called, .start (.bound true), .start .readyStored, .start .spawned, .serve 0 .loaded,
    .serve 0 (.accepted false), .serve 0 .loaded]

theorem serverClosed_iff_sample : ∃ s t, exec step new (acceptError ++ [.close]) = some s ∧
    s.step (.closing 0 .closedStored) = some t ∧
    (Always step (fun s => s.serverState = .closed) t [.serve 0 .unbound] ↔
      Along step (fun _ e => storesReady e = false) t [.serve 0 .unbound]) := by
  obtain ⟨s, t, hs, ht⟩ : ∃ s t, exec step new (acceptError ++ [.close]) = some s ∧
      s.step (.closing 0 .closedStored) = some t := ⟨_, _, rfl, rfl⟩
  exact ⟨s, t, hs, ht, serverClosed_iff ⟨_, hs⟩ ht _⟩

/-- `close` falls into the `bind` after an accept error; on port 0 that succeeds beside the old listener. -/
theorem serverClosed_fails : ∃ s t u,
    exec step new (acceptError ++ [.serve 0 .unbound, .serve 0 .rebound, .close]) = some s ∧
    s.step (.closing 0 .closedStored) = some t ∧ t.serverState = .closed ∧
    exec step t [.serve 0 (.bound true), .serve 0 .readyStored] = some u ∧ u.serverState = .ready ∧
    ¬Always step (fun s => s.serverState = .closed) t [.serve 0 (.bound true), .serve 0 .readyStored] := by
  refine ⟨_, _, _, rfl, rfl, rfl, rfl, rfl, ?_⟩
  intro h
  cases h _ (List.prefix_refl _) _ rfl

end S2cServer

end S2c
