import S2c.GroupServer.Tasks

namespace S2c

open Machine

def GroupEvent.cancels : GroupEvent → Bool
  | .readCancelled _ => true
  | .writeCancelled _ => true
  | _ => false

namespace GroupServer

def Busy (s : GroupServer) (n : NodeIdentity) : Prop :=
  s.readLoops n = some .running ∨ s.writeLoops n = some .running

def Drained (s : GroupServer) : Prop := s.supervisor = .ended ∧ ∀ n, ¬s.Busy n

/-- Whatever still happens, cancellation alone ends the loops that are left. -/
structure Released (s : GroupServer) : Prop where
  cancelled : s.innerCancellationToken = true
  drains : ∀ es t, exec step s es = some t →
    ∃ fs u, (∀ e ∈ fs, GroupEvent.cancels e = true) ∧ exec step t fs = some u ∧ u.Drained

structure Cancelled (s : GroupServer) : Prop where
  supervisor : s.supervisor = .ended
  inner : s.innerCancellationToken = true

structure Stranded (s : GroupServer) : Prop where
  supervisor : s.supervisor = .ended
  inner : s.innerCancellationToken = false

def Finite (s : GroupServer) : Prop := ∃ ns : List NodeIdentity, ∀ n, s.Busy n → n ∈ ns

variable {s t : GroupServer} {e : GroupEvent} {es : List GroupEvent}

theorem supervised_step (h : s.step e = some t) :
    (e = .superviseCancelled ∧ s.supervisor = .draining ∧ t.Cancelled) ∨
    (e = .superviseDrained ∧ s.supervisor = .draining ∧ t.supervisor = .ended ∧
      t.innerCancellationToken = s.innerCancellationToken) ∨
    (e.supervises = false ∧ t.supervisor = s.supervisor ∧
      t.innerCancellationToken = s.innerCancellationToken) := by
  cases stepped h with
  | superviseCancelled hdraining => exact Or.inl ⟨rfl, hdraining, rfl, rfl⟩
  | superviseDrained hdraining => exact Or.inr (Or.inl ⟨rfl, hdraining, rfl, rfl⟩)
  | _ => exact Or.inr (Or.inr ⟨rfl, rfl, rfl⟩)

theorem cancelled_step (hs : s.Cancelled) (h : s.step e = some t) : t.Cancelled := by
  rcases supervised_step h with ⟨_, _, ht⟩ | ⟨_, hdraining, _⟩ | ⟨_, hsupervisor, hinner⟩
  · exact ht
  · rw [hs.supervisor] at hdraining
    cases hdraining
  · exact ⟨hsupervisor.trans hs.supervisor, hinner.trans hs.inner⟩

theorem stranded_step (hs : s.Stranded) (h : s.step e = some t) : t.Stranded := by
  rcases supervised_step h with ⟨_, hdraining, _⟩ | ⟨_, hdraining, _⟩ | ⟨_, hsupervisor, hinner⟩
  · rw [hs.supervisor] at hdraining
    cases hdraining
  · rw [hs.supervisor] at hdraining
    cases hdraining
  · exact ⟨hsupervisor.trans hs.supervisor, hinner.trans hs.inner⟩

theorem inner_of_draining (h : exec step started es = some s) (hs : s.supervisor = .draining) :
    s.innerCancellationToken = false := by
  apply Machine.invariant (I := fun s => s.supervisor = .draining → s.innerCancellationToken = false) _
    (fun _ => rfl) ⟨es, h⟩ hs
  intro s e t hs h ht
  rcases supervised_step h with ⟨_, _, hcancelled⟩ | ⟨_, _, hended, _⟩ | ⟨_, hsupervisor, hinner⟩
  · rw [hcancelled.supervisor] at ht
    cases ht
  · rw [hended] at ht
    cases ht
  · rw [hinner]
    exact hs (hsupervisor ▸ ht)

theorem ended_iff (h : exec step started es = some s) (hended : s.supervisor = .ended) :
    s.innerCancellationToken = true ↔ .superviseDrained ∉ es := by
  constructor
  · intro hinner hmem
    obtain ⟨pre, post, rfl⟩ := List.append_of_mem hmem
    rw [exec_append] at h
    obtain ⟨m, hm, hrest⟩ := Option.bind_eq_some_iff.mp h
    obtain ⟨m', hm', hpost⟩ := Option.bind_eq_some_iff.mp hrest
    have hstranded : m'.Stranded := by
      rcases supervised_step hm' with ⟨he, _⟩ | ⟨_, hdraining, hsupervisor, hsame⟩ | ⟨he, _⟩
      · cases he
      · exact ⟨hsupervisor, hsame.trans (inner_of_draining hm hdraining)⟩
      · cases he
    have hs := Machine.invariant (I := Stranded) (fun _ _ _ => stranded_step) hstranded ⟨post, hpost⟩
    rw [hs.inner] at hinner
    cases hinner
  · intro hnot
    have hs : s.supervisor = .draining ∨ s.Cancelled := by
      refine invariant_along (I := fun s => s.supervisor = .draining ∨ s.Cancelled)
        (P := fun _ e => e ≠ .superviseDrained) ?_ (Or.inl rfl) (along_of_forall ?_) h
      · rintro s e t hs he hstep
        rcases hs with hs | hs
        · rcases supervised_step hstep with ⟨_, _, ht⟩ | ⟨hdrained, _⟩ | ⟨_, hsupervisor, _⟩
          · exact Or.inr ht
          · exact absurd hdrained he
          · exact Or.inl (hsupervisor.trans hs)
        · exact Or.inr (cancelled_step hs hstep)
      · rintro _ e he rfl
        exact hnot he
    rcases hs with hs | hs
    · rw [hended] at hs
      cases hs
    · exact hs.inner

theorem busy_step (h : s.step e = some t) {n : NodeIdentity} (hn : t.Busy n) : s.Busy n ∨ e = .handleClient n := by
  have hupdate {loops : NodeIdentity → Option LoopState} {m : NodeIdentity} {loop : LoopState}
      (hm : loops m = some .running) (hn : Function.update loops m (some loop) n = some .running) :
      loops n = some .running := by
    by_cases hnm : n = m
    · rw [hnm]
      exact hm
    · rwa [Function.update_of_ne hnm] at hn
  cases stepped h with
  | registered m =>
    by_cases hnm : m = n
    · exact Or.inr (by rw [hnm])
    · exact Or.inl (by simpa [Busy, Ne.symm hnm] using hn)
  | read m hloop => exact Or.inl (hn.imp (hupdate hloop) id)
  | readFailed m hloop => exact Or.inl (hn.imp (hupdate hloop) id)
  | readCancelled m hloop => exact Or.inl (hn.imp (hupdate hloop) id)
  | written m hloop => exact Or.inl (hn.imp id (hupdate hloop))
  | writeFailed m hloop => exact Or.inl (hn.imp id (hupdate hloop))
  | writeCancelled m hloop => exact Or.inl (hn.imp id (hupdate hloop))
  | _ => exact Or.inl hn

theorem finite_step (hs : s.Finite) (h : s.step e = some t) : t.Finite := by
  obtain ⟨ns, hns⟩ := hs
  cases e with
  | handleClient m =>
    refine ⟨m :: ns, ?_⟩
    intro n hn
    rcases busy_step h hn with hn | hm
    · exact List.mem_cons_of_mem _ (hns n hn)
    · cases hm
      exact List.mem_cons_self
  | _ =>
    refine ⟨ns, ?_⟩
    intro n hn
    rcases busy_step h hn with hn | hm
    · exact hns n hn
    · cases hm

theorem stop_read (hs : s.Cancelled) (n : NodeIdentity) : ∃ fs u, (∀ e ∈ fs, GroupEvent.cancels e = true) ∧
    exec step s fs = some u ∧ u.readLoops n ≠ some .running ∧ u.writeLoops = s.writeLoops := by
  by_cases hn : s.readLoops n = some .running
  · refine ⟨[.readCancelled n], { s with readLoops := Function.update s.readLoops n (some .cancelled) },
      ?_, ?_, ?_, rfl⟩
    · simp [GroupEvent.cancels]
    · simp [exec_cons, step, hn, hs.inner]
    · simp
  · exact ⟨[], s, by simp, rfl, hn, rfl⟩

theorem stop_write (hs : s.Cancelled) (n : NodeIdentity) : ∃ fs u, (∀ e ∈ fs, GroupEvent.cancels e = true) ∧
    exec step s fs = some u ∧ u.writeLoops n ≠ some .running ∧ u.readLoops = s.readLoops := by
  by_cases hn : s.writeLoops n = some .running
  · refine ⟨[.writeCancelled n], { s with writeLoops := Function.update s.writeLoops n (some .cancelled) },
      ?_, ?_, ?_, rfl⟩
    · simp [GroupEvent.cancels]
    · simp [exec_cons, step, hn, hs.inner]
    · simp
  · exact ⟨[], s, by simp, rfl, hn, rfl⟩

theorem busy_of_cancels {fs : List GroupEvent} (hfs : ∀ e ∈ fs, GroupEvent.cancels e = true)
    (h : exec step s fs = some t) {n : NodeIdentity} (hn : t.Busy n) : s.Busy n := by
  induction fs generalizing s with
  | nil =>
    cases h
    exact hn
  | cons e fs ih =>
    obtain ⟨m, hm, hrest⟩ := Option.bind_eq_some_iff.mp h
    have hbusy := ih (fun e he => hfs e (List.mem_cons_of_mem _ he)) hrest
    rcases busy_step hm hbusy with hbusy | rfl
    · exact hbusy
    · cases hfs _ List.mem_cons_self

theorem stop_client (hs : s.Cancelled) (n : NodeIdentity) : ∃ fs u, (∀ e ∈ fs, GroupEvent.cancels e = true) ∧
    exec step s fs = some u ∧ ¬u.Busy n := by
  obtain ⟨fs, u, hfs, hu, hread, _⟩ := stop_read hs n
  have hcancelled : u.Cancelled := Machine.invariant (fun _ _ _ => cancelled_step) hs ⟨fs, hu⟩
  obtain ⟨gs, v, hgs, hv, hwrite, hsame⟩ := stop_write hcancelled n
  refine ⟨fs ++ gs, v, ?_, ?_, ?_⟩
  · intro e he
    exact (List.mem_append.mp he).elim (hfs e) (hgs e)
  · rw [exec_append, hu]
    exact hv
  · rintro (hbusy | hbusy)
    · exact hread (hsame ▸ hbusy)
    · exact hwrite hbusy

theorem drains_of_cancelled (hs : s.Cancelled) (hfinite : s.Finite) :
    ∃ fs u, (∀ e ∈ fs, GroupEvent.cancels e = true) ∧ exec step s fs = some u ∧ u.Drained := by
  obtain ⟨ns, hns⟩ := hfinite
  induction ns generalizing s with
  | nil => exact ⟨[], s, by simp, rfl, hs.supervisor, fun n hn => absurd (hns n hn) List.not_mem_nil⟩
  | cons n ns ih =>
    obtain ⟨fs, u, hfs, hu, hstopped⟩ := stop_client hs n
    have hcancelled : u.Cancelled := Machine.invariant (fun _ _ _ => cancelled_step) hs ⟨fs, hu⟩
    have hrest : ∀ m, u.Busy m → m ∈ ns := by
      intro m hm
      rcases List.mem_cons.mp (hns m (busy_of_cancels hfs hu hm)) with rfl | hmem
      · exact absurd hm hstopped
      · exact hmem
    obtain ⟨gs, v, hgs, hv, hdrained⟩ := ih hcancelled hrest
    refine ⟨fs ++ gs, v, ?_, ?_, hdrained⟩
    · intro e he
      exact (List.mem_append.mp he).elim (hfs e) (hgs e)
    · rw [exec_append, hu]
      exact hv

/-- Once the supervisor has ended, closed or not, the clients are released exactly when it saw the
cancellation rather than the end of what it drains. -/
theorem released_iff (h : exec step started es = some s) (hended : s.supervisor = .ended) :
    s.Released ↔ .superviseDrained ∉ es := by
  rw [← ended_iff h hended]
  constructor
  · intro hreleased
    exact hreleased.cancelled
  · intro hinner
    refine ⟨hinner, ?_⟩
    intro fs t ht
    have hcancelled : t.Cancelled := Machine.invariant (fun _ _ _ => cancelled_step) ⟨hended, hinner⟩ ⟨fs, ht⟩
    have hfinite : t.Finite := by
      apply Machine.invariant (fun _ _ _ => finite_step) _ (Reachable.trans ⟨es, h⟩ ⟨fs, ht⟩)
      exact ⟨[], fun n hn => by rcases hn with hn | hn <;> cases hn⟩
    exact drains_of_cancelled hcancelled hfinite

def closedWith (branch : GroupEvent) : List GroupEvent := [.handleClient firstClient, .close, branch]

theorem released_iff_sample : ∃ s, exec step started (closedWith .superviseCancelled) = some s ∧
    (s.Released ↔ .superviseDrained ∉ closedWith .superviseCancelled) :=
  ⟨_, rfl, released_iff rfl rfl⟩

/-- Both branches of the `select` are ready when `close` has cancelled the token, and the drained
future wins. -/
theorem released_fails : ∃ s, exec step started (closedWith .superviseDrained) = some s ∧
    s.running = false ∧ s.supervisor = .ended ∧ s.readLoops firstClient = some .running ∧ ¬s.Released := by
  refine ⟨_, rfl, rfl, rfl, rfl, ?_⟩
  intro h
  cases h.cancelled

end GroupServer

end S2c
