import S2c.GroupServer.Tasks

namespace S2c

open Machine

def GroupServer.accepts (s : GroupServer) (n : NodeIdentity) : Bool := s.running && !s.clientsIns n

def GroupServer.KeepsLoops (s : GroupServer) : GroupEvent → Prop
  | .read _ ok => ok = true
  | .readCancelled _ => False
  | .handleClient n => s.accepts n = true → s.innerCancellationToken = false
  | _ => True

structure RegistryRun where
  server : GroupServer
  accepted : List NodeIdentity

namespace RegistryRun

def start : RegistryRun := ⟨.started, []⟩

def accept (s : RegistryRun) : GroupEvent → List NodeIdentity
  | .handleClient n => if s.server.accepts n then [n] else []
  | _ => []

def step (s : RegistryRun) (e : GroupEvent) : Option RegistryRun :=
  (s.server.step e).map (fun server => ⟨server, s.accepted ++ s.accept e⟩)

structure Registered (s : RegistryRun) : Prop where
  exact : ∀ n, s.server.clientsIns n = true ↔ s.server.readLoops n = some .running
  readmitted : ∀ n, s.server.readLoops n ≠ some .running → s.server.accepts n = true
  -- no second connection was accepted beside the one that runs
  single : ∀ n, s.server.readLoops n = some .running → s.accepted.count n = 1

def RegisteredWhileRunning (s : RegistryRun) : Prop := s.server.running = true → s.Registered

def Keeps (s : RegistryRun) (e : GroupEvent) : Prop :=
  s.server.running = true → s.server.KeepsLoops e

def Once (s : RegistryRun) : Prop :=
  ∀ n, s.accepted.count n = if s.server.clientsIns n then 1 else 0

variable {s t : RegistryRun} {e : GroupEvent}

theorem not_accepts {g : GroupServer} {n : NodeIdentity} (h : g.running = true → g.clientsIns n = true) :
    g.accepts n = false := by
  cases hrunning : g.running with
  | false => simp [GroupServer.accepts, hrunning]
  | true => simp [GroupServer.accepts, h hrunning]

theorem once_step (hs : s.Once) (h : s.step e = some t) : t.Once := by
  obtain ⟨g, hg, rfl⟩ := Option.map_eq_some_iff.mp h
  intro m
  have hm := hs m
  cases GroupServer.stepped hg with
  | refused n hrefused => simpa [accept, not_accepts hrefused] using hm
  | registered n hrunning hn =>
    have haccepts : s.server.accepts n = true := by simp [GroupServer.accepts, hrunning, hn]
    simp only [accept, haccepts, if_true, List.count_append, hm]
    by_cases hmn : m = n
    · subst hmn
      simp [hn]
    · simp [hmn, Ne.symm hmn]
  | _ => simpa [accept] using hm

theorem registered_iff (hs : s.Once) (hrunning : s.server.running = true) : s.Registered ↔
    ∀ n, s.server.clientsIns n = true ↔ s.server.readLoops n = some .running := by
  refine ⟨fun h => h.exact, fun h => ⟨h, ?_, ?_⟩⟩
  · intro n hn
    simp only [GroupServer.accepts, hrunning, Bool.true_and, Bool.not_eq_true', ← Bool.not_eq_true, h n]
    exact hn
  · intro n hn
    rw [hs n, if_pos ((h n).mpr hn)]

theorem not_exact_of_ended {g : GroupServer} (hg : ∀ n, g.clientsIns n = true ↔ g.readLoops n = some .running)
    {n : NodeIdentity} (hn : g.readLoops n = some .running) {loop : LoopState} (hloop : loop ≠ .running)
    {g' : GroupServer} (hclients : g'.clientsIns = g.clientsIns)
    (hloops : g'.readLoops = Function.update g.readLoops n (some loop)) :
    ¬∀ m, g'.clientsIns m = true ↔ g'.readLoops m = some .running := by
  intro h
  have hended := (h n).mp (by rw [hclients]; exact (hg n).mpr hn)
  rw [hloops, Function.update_self] at hended
  exact hloop (Option.some.inj hended)

theorem exact_step {g g' : GroupServer} (hg : ∀ n, g.clientsIns n = true ↔ g.readLoops n = some .running)
    (hrunning : g.running = true) (h : g.step e = some g') :
    (∀ n, g'.clientsIns n = true ↔ g'.readLoops n = some .running) ↔ g.KeepsLoops e := by
  cases GroupServer.stepped h with
  | refused n hrefused =>
    refine iff_of_true hg ?_
    intro haccepts
    rw [not_accepts hrefused] at haccepts
    cases haccepts
  | registered n _ hn =>
    have hkeeps : g.KeepsLoops (.handleClient n) ↔ g.spawned = .running := by
      cases hinner : g.innerCancellationToken <;>
        simp [GroupServer.KeepsLoops, GroupServer.accepts, GroupServer.spawned, hrunning, hn, hinner]
    rw [hkeeps]
    constructor
    · intro h
      have hspawned := (h n).mp (by simp)
      simpa using hspawned
    · intro hspawned m
      by_cases hmn : m = n
      · simp [hmn, hspawned]
      · simpa [hmn] using hg m
  | read n hloop =>
    have hlooped : (g.looped true).1 = .running := by simp [GroupServer.looped, hrunning]
    have hsame : Function.update g.readLoops n (some (g.looped true).1) = g.readLoops := by
      rw [hlooped, ← hloop, Function.update_eq_self]
    rw [hsame]
    exact iff_of_true hg rfl
  | readFailed n hloop =>
    refine iff_of_false (not_exact_of_ended hg hloop (by decide : LoopState.failed ≠ .running) rfl rfl) ?_
    simp [GroupServer.KeepsLoops]
  | readCancelled n hloop =>
    exact iff_of_false (not_exact_of_ended hg hloop (by decide : LoopState.cancelled ≠ .running) rfl rfl) id
  | _ => exact iff_of_true hg trivial

theorem registered_step (hs : s.Once) (hregistered : s.RegisteredWhileRunning) (h : s.step e = some t) :
    t.RegisteredWhileRunning ↔ s.Keeps e := by
  have ht := once_step hs h
  obtain ⟨g, hg, rfl⟩ := Option.map_eq_some_iff.mp h
  have hflag := (GroupServer.step_flags hg).1
  by_cases hrunning : s.server.running = true
  · have hexact := exact_step (hregistered hrunning).exact hrunning hg
    simp only [Keeps, hrunning, forall_const]
    rw [← hexact, RegisteredWhileRunning]
    by_cases hclose : e = .close
    · -- nothing is asked of a server that is closed, and nothing of the step that closes it
      subst hclose
      refine iff_of_true ?_ (hexact.mpr trivial)
      intro hg'
      rw [show g.running = true from hg'] at hflag
      simp at hflag
    · have hg' : g.running = true := by simpa [hrunning, hclose] using hflag
      simp only [hg', forall_const]
      exact registered_iff ht hg'
  · have hg' : g.running = false := by simpa [hrunning] using hflag
    exact iff_of_true (by simp [RegisteredWhileRunning, hg']) (by simp [Keeps, hrunning])

theorem registered_along_run (es : List GroupEvent) :
    Always step RegisteredWhileRunning start es ↔ Along step Keeps start es := by
  apply always_iff_along (J := Once)
  · intro s e t hs _
    exact once_step hs
  · intro s e t
    exact registered_step
  · intro n
    rfl
  · intro _
    apply (registered_iff (fun _ => rfl) rfl).mpr
    intro n
    simp [start, GroupServer.started]

theorem registered_fails : ¬Always step RegisteredWhileRunning start
    [.handleClient GroupServer.firstClient, .read GroupServer.firstClient false] := by
  intro h
  have hregistered := h _ (List.prefix_refl _) _ rfl rfl
  cases (hregistered.exact GroupServer.firstClient).mp rfl

end RegistryRun

end S2c
