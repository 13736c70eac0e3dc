import Mathlib.Data.List.Count
import S2c.Network.Server

namespace S2c

open Machine

def ServeStage.binds : ServeStage → Bool
  | .binding => true
  | .storingReady => true
  | .storingClosed => true
  | _ => false

/-- A `do_serve` is in charge of the server's state, except between its two exchanges: another may take
`NotBound` there. -/
def ServeStage.inCharge : ServeStage → Bool
  | .rebinding => false
  | .returned => false
  | _ => true

theorem ServeStage.inCharge_of_binds {stage : ServeStage} (h : stage.binds = true) : stage.inCharge = true := by
  cases stage <;> first | rfl | cases h

namespace S2cServer

def Passing (s : S2cServer) : Prop :=
  s.serverState = .binding → s.starting ≠ .idle ∨ ∃ stage ∈ s.serves, stage.binds = true

def leavesBinding (s : S2cServer) : ServerEvent → Bool
  | .start (.bound ok) => !ok
  | .serve i .cancelled => s.serverState = .binding ∧ s.serves[i]? = some .binding
  | _ => false

structure BindingPasses (es : List ServerEvent) : Prop where
  passes : Always step Passing new es
  failedStart : Along step (fun s e => e = .start (.bound false) →
    ∀ t, s.step e = some t → t.serverState = .notBound) new es

structure Charged (s : S2cServer) : Prop where
  exclusive : s.Exclusive
  starting : s.starting ≠ .idle → s.serves.countP ServeStage.inCharge = 0
  alone : s.serves.countP ServeStage.inCharge ≤ 1
  free : s.serverState = .notBound → s.starting = .idle ∧ s.serves.countP ServeStage.inCharge = 0
  bound : s.starting = .binding ∨ s.starting = .storingReady → s.serverState = .binding
  ready : s.starting = .spawning → s.serverState = .ready

inductive Served (s : S2cServer) : ServeStage → ServeEvent → ServerState → ServeStage → Prop where
  | quiet {stage next : ServeStage} (e : ServeEvent) (hstage : stage.binds = false) (hnext : next.binds = false)
      (hcharge : next.inCharge = true → stage.inCharge = true) : Served s stage e s.serverState next
  | freed (hready : s.serverState = .ready) : Served s .unbinding .unbound .notBound .rebinding
  | taken (hfree : s.serverState = .notBound) : Served s .rebinding .rebound .binding .binding
  | bound (ok : Bool) :
      Served s .binding (.bound ok) s.serverState (if ok then .storingReady else .storingClosed)
  | storedReady : Served s .storingReady .readyStored .ready .loading
  | storedClosed : Served s .storingClosed .closedStored .closed .returned
  | dropped : Served s .binding .cancelled s.serverState .returned

variable {s t : S2cServer} {e : ServerEvent} {i : ℕ}

theorem served {stage next : ServeStage} {e : ServeEvent} {serverState : ServerState}
    (h : s.doServe stage e = some (serverState, next)) : Served s stage e serverState next := by
  unfold doServe at h
  split at h
  · split_ifs at h
    · cases h
      exact .quiet _ rfl rfl (fun _ => rfl)
    · cases h
      exact .quiet _ rfl rfl (fun _ => rfl)
  · cases h
    exact .quiet _ rfl rfl (fun _ => rfl)
  · split_ifs at h
    · cases h
      exact .quiet _ rfl rfl (fun _ => rfl)
    · cases h
      exact .quiet _ rfl rfl (fun _ => rfl)
  · unfold ServerState.compareAndExchange at h
    split_ifs at h with hready
    · cases h
      exact .freed hready
    · cases h
      exact .quiet _ rfl rfl (fun _ => rfl)
  · unfold ServerState.compareAndExchange at h
    split_ifs at h with hfree
    · cases h
      exact .taken hfree
    · cases h
      exact .quiet _ rfl rfl nofun
  · cases h
    exact .bound _
  · cases h
    exact .storedReady
  · cases h
    exact .storedClosed
  · split_ifs at h
    cases h
    exact .quiet _ rfl rfl (fun _ => rfl)
  · split_ifs at h
    cases h
    exact .dropped
  · cases h

theorem countP_moved {p : ServeStage → Bool} {serves : List ServeStage} {stage : ServeStage}
    (h : serves[i]? = some stage) (next : ServeStage) :
    (serves.set i next).countP p + (p stage).toNat = serves.countP p + (p next).toNat := by
  obtain ⟨hi, rfl⟩ := List.getElem?_eq_some_iff.mp h
  have hle := List.boole_getElem_le_countP (p := p) hi
  have htoNat : ∀ b : Bool, b.toNat = if b = true then 1 else 0 := by
    intro b
    cases b <;> rfl
  rw [List.countP_set hi, htoNat, htoNat]
  omega

theorem passing_iff : s.Passing ↔
    (s.serverState = .binding → s.starting ≠ .idle ∨ 0 < s.serves.countP ServeStage.binds) := by
  unfold Passing
  rw [List.countP_pos_iff]

theorem countP_binds_le (serves : List ServeStage) :
    serves.countP ServeStage.binds ≤ serves.countP ServeStage.inCharge :=
  List.countP_mono_left (fun _ _ => ServeStage.inCharge_of_binds)

theorem Charged.idle {stage : ServeStage} (hs : s.Charged) (hstage : s.serves[i]? = some stage)
    (hcharge : stage.inCharge = true) : s.starting = .idle := by
  by_contra hstarting
  have hnone := List.countP_eq_zero.mp (hs.starting hstarting)
  exact hnone stage (List.mem_of_getElem? hstage) hcharge

theorem Charged.of_le {serves : List ServeStage} (hs : s.Charged)
    (hle : serves.countP ServeStage.inCharge ≤ s.serves.countP ServeStage.inCharge) :
    Charged { s with serves := serves } where
  exclusive := hs.exclusive
  starting h := Nat.le_zero.mp (hs.starting h ▸ hle)
  alone := Nat.le_trans hle hs.alone
  free h := ⟨(hs.free h).1, Nat.le_zero.mp ((hs.free h).2 ▸ hle)⟩
  bound := hs.bound
  ready := hs.ready

theorem Charged.of_idle {serverState : ServerState} {serves : List ServeStage} (hidle : s.starting = .idle)
    (halone : serves.countP ServeStage.inCharge ≤ 1)
    (hfree : serverState = .notBound → serves.countP ServeStage.inCharge = 0) :
    Charged { s with serverState := serverState, serves := serves } where
  exclusive := .inl hidle
  starting h := absurd hidle h
  alone := halone
  free h := ⟨hidle, hfree h⟩
  bound h := by rcases h with h | h <;> cases hidle.symm.trans h
  ready h := by cases hidle.symm.trans h

theorem charged_served {stage next : ServeStage} {e : ServeEvent} {serverState : ServerState} (hs : s.Charged)
    (hstage : s.serves[i]? = some stage) (h : Served s stage e serverState next) :
    Charged { s with serverState := serverState, serves := s.serves.set i next } := by
  have hcount := countP_moved (p := ServeStage.inCharge) hstage next
  have halone := hs.alone
  cases h with
  | quiet e _ _ hcharge =>
    apply hs.of_le
    cases hnext : next.inCharge with
    | false =>
      simp only [hnext, Bool.toNat_false] at hcount
      omega
    | true =>
      simp only [hnext, hcharge hnext] at hcount
      omega
  | freed hready =>
    simp only [ServeStage.inCharge, Bool.toNat_true, Bool.toNat_false] at hcount
    apply Charged.of_idle (hs.idle hstage rfl) (by omega)
    intro _
    omega
  | taken hfree =>
    obtain ⟨hidle, hzero⟩ := hs.free hfree
    simp only [ServeStage.inCharge, Bool.toNat_true, Bool.toNat_false] at hcount
    exact Charged.of_idle hidle (by omega) nofun
  | bound ok =>
    apply hs.of_le
    have hcharge : (if ok then ServeStage.storingReady else .storingClosed).inCharge = true := by cases ok <;> rfl
    rw [hcharge] at hcount
    simp only [ServeStage.inCharge] at hcount
    omega
  | storedReady =>
    simp only [ServeStage.inCharge, Bool.toNat_true] at hcount
    exact Charged.of_idle (hs.idle hstage rfl) (by omega) nofun
  | storedClosed =>
    simp only [ServeStage.inCharge, Bool.toNat_true, Bool.toNat_false] at hcount
    exact Charged.of_idle (hs.idle hstage rfl) (by omega) nofun
  | dropped =>
    apply hs.of_le
    simp only [ServeStage.inCharge, Bool.toNat_true, Bool.toNat_false] at hcount
    omega

theorem leavesBinding_serve {stage : ServeStage} (hstage : s.serves[i]? = some stage) (e : ServeEvent) :
    s.leavesBinding (.serve i e) = true ↔ e = .cancelled ∧ s.serverState = .binding ∧ stage = .binding := by
  cases e <;> simp [leavesBinding, hstage]

theorem passing_served {stage next : ServeStage} {e : ServeEvent} {serverState : ServerState} (hs : s.Charged)
    (hpass : s.Passing) (hstage : s.serves[i]? = some stage) (h : Served s stage e serverState next) :
    Passing { s with serverState := serverState, serves := s.serves.set i next } ↔
      s.leavesBinding (.serve i e) = false := by
  have hcount := countP_moved (p := ServeStage.binds) hstage next
  rw [passing_iff] at hpass ⊢
  rw [← Bool.not_eq_true, leavesBinding_serve hstage]
  cases h with
  | quiet e hbinds hnext _ =>
    have hne : stage ≠ .binding := by
      rintro rfl
      cases hbinds
    simp only [hbinds, hnext, Bool.toNat_false] at hcount
    simp only [hne, and_false, not_false_iff, iff_true]
    intro hbinding
    exact (hpass hbinding).imp_right (fun h => by omega)
  | freed hready => simp
  | taken hfree =>
    simp only [ServeStage.binds, Bool.toNat_true, Bool.toNat_false] at hcount
    simp only [reduceCtorEq, false_and, not_false_iff, iff_true]
    intro _
    right
    omega
  | bound ok =>
    have hbinds : (if ok then ServeStage.storingReady else .storingClosed).binds = true := by cases ok <;> rfl
    rw [hbinds] at hcount
    simp only [ServeStage.binds] at hcount
    simp only [reduceCtorEq, false_and, not_false_iff, iff_true]
    intro hbinding
    exact (hpass hbinding).imp_right (fun h => by omega)
  | storedReady => simp
  | storedClosed => simp
  | dropped =>
    -- it alone was in charge, so nobody is left to store over `Binding`
    have hidle := hs.idle hstage rfl
    have hbinds := countP_binds_le s.serves
    have halone := hs.alone
    simp only [ServeStage.binds, Bool.toNat_true, Bool.toNat_false] at hcount
    simp only [hidle, ne_eq, not_true, false_or, true_and, and_true]
    constructor
    · intro h hbinding
      have := h hbinding
      omega
    · intro h hbinding
      exact absurd hbinding h

theorem charged_start {e : StartEvent} (hs : s.Charged) (hexclusive : t.Exclusive) (h : Started s e t) :
    t.Charged := by
  cases h with
  | exchanged _ _ hfree =>
    exact ⟨hexclusive, fun _ => (hs.free hfree).2, hs.alone, nofun, fun _ => rfl, nofun⟩
  | kept => exact hs
  | bound ok hbinding =>
    have hzero := hs.starting (by simp [hbinding])
    have hbound := hs.bound (.inl hbinding)
    refine ⟨hexclusive, fun _ => hzero, hs.alone, ?_, fun _ => hbound, ?_⟩
    · intro hfree
      cases hbound.symm.trans hfree
    · cases ok <;> simp
  | readyStored hstoring =>
    have hzero := hs.starting (by simp [hstoring])
    exact ⟨hexclusive, fun _ => hzero, hs.alone, nofun, by simp, fun _ => rfl⟩
  | spawned hspawning =>
    have hzero := hs.starting (by simp [hspawning])
    have hready := hs.ready hspawning
    refine ⟨hexclusive, fun h => absurd rfl h, ?_, ?_, by simp, nofun⟩
    · rw [List.countP_append, hzero]
      decide
    · intro hfree
      cases hready.symm.trans hfree

theorem charged_step (hs : s.Charged) (h : s.step e = some t) : t.Charged := by
  have hexclusive := exclusive_step hs.exclusive h
  cases stepped h with
  | start hstart => exact charged_start hs hexclusive hstart
  | serve hstage hserve => exact charged_served hs hstage (served hserve)
  | close => exact ⟨hexclusive, hs.starting, hs.alone, hs.free, hs.bound, hs.ready⟩
  | closing hclosing =>
    have hidle := (idle_closing hs.exclusive hclosing).1
    cases hclosing with
    | closedStored =>
      apply Charged.of_idle hidle hs.alone
      intro hfree
      cases hfree
    | cancelled => exact ⟨hexclusive, hs.starting, hs.alone, hs.free, hs.bound, hs.ready⟩
    | waited => exact ⟨hexclusive, hs.starting, hs.alone, hs.free, hs.bound, hs.ready⟩

theorem passing_start {e : StartEvent} (hs : s.Charged) (hpass : s.Passing) (h : Started s e t) :
    t.Passing ↔ s.leavesBinding (.start e) = false := by
  cases h with
  | exchanged => exact iff_of_true (fun _ => .inl nofun) rfl
  | kept => exact iff_of_true hpass rfl
  | bound ok hbinding =>
    cases ok with
    | true => exact iff_of_true (fun _ => .inl nofun) rfl
    | false =>
      have hzero := hs.starting (by simp [hbinding])
      have hbinds := countP_binds_le s.serves
      refine iff_of_false ?_ nofun
      rw [passing_iff]
      intro h
      rcases h (hs.bound (.inl hbinding)) with hidle | hpos
      · exact hidle rfl
      · dsimp only at hpos
        omega
  | readyStored => exact iff_of_true nofun rfl
  | spawned hspawning =>
    have hready := hs.ready hspawning
    refine iff_of_true ?_ rfl
    intro hstate
    cases hready.symm.trans hstate

theorem passing_step (hs : s.Charged) (hpass : s.Passing) (h : s.step e = some t) :
    t.Passing ↔ s.leavesBinding e = false := by
  cases stepped h with
  | start hstart => exact passing_start hs hpass hstart
  | serve hstage hserve => exact passing_served hs hpass hstage (served hserve)
  | close => exact iff_of_true hpass rfl
  | closing hclosing =>
    cases hclosing with
    | closedStored =>
      refine iff_of_true ?_ rfl
      intro hbinding
      cases hbinding
    | cancelled => exact iff_of_true hpass rfl
    | waited => exact iff_of_true hpass rfl

theorem charged_new : new.Charged := ⟨.inl rfl, fun _ => rfl, Nat.zero_le 1, fun _ => ⟨rfl, rfl⟩, by simp [new], nofun⟩

theorem bindingPasses_iff (es : List ServerEvent) :
    BindingPasses es ↔ Along step (fun s e => s.leavesBinding e = false) new es := by
  have hiff : Always step Passing new es ↔ Along step (fun s e => s.leavesBinding e = false) new es := by
    apply always_iff_along (J := Charged) _ _ charged_new nofun
    · intro s e t hs _ h
      exact charged_step hs h
    · intro s e t hs hpass h
      exact passing_step hs hpass h
  constructor
  · intro h
    exact hiff.mp h.passes
  · intro h
    refine ⟨hiff.mpr h, ?_⟩
    apply h.mono (I := fun _ => True) _ trivial
    rintro s e _ _ hkept _
    refine ⟨trivial, ?_⟩
    rintro rfl
    cases hkept

theorem bindingPasses_fails : ¬BindingPasses [.start .called, .start (.bound false)] := by
  intro h
  have hpass := h.passes _ (List.prefix_refl _) _ rfl
  rcases hpass rfl with hidle | ⟨_, hmem, _⟩
  · exact hidle rfl
  · cases hmem

end S2cServer

end S2c
