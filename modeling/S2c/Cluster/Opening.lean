import S2c.Cluster.Safety

namespace S2c

open Wire Loop Machine

namespace Cluster

variable {ι : Type} (C : Cluster ι)

def Opening (payload : Bytes) : Prop :=
  ∃ i, LogEntry.message.decode payload = some ⟨some ⟨[]⟩, some (C.firstLeader i)⟩

structure Opened (s : ClusterState ι) : Prop where
  safe : C.Safe s
  entry : ∀ index payload, C.entries s.store index = some payload → index = 1 ∧ C.Opening payload
  adrift : ∀ request ∈ s.adrift, C.Opening request.2 ∨ C.entries s.store 1 ≠ none

variable {C} {s t : ClusterState ι} {i : ι}

theorem opening_attempt {f : FSM} {a : Attempt} (hf : f.Placed (C.identity i) (C.log i)) (hstate : f.state ≠ .leader)
    (ha : f.attempt = some a) : C.Opening a.payload := by
  obtain ⟨payload, hencode, rfl⟩ := Option.map_eq_some_iff.mp ha
  refine ⟨i, ?_⟩
  rw [Message.decode_encodeToVec hencode, FSM.attemptEntry, hf.attemptTarget hstate, hf.nodeIdentity]
  rfl

theorem Safe.opening (h : C.Safe s) {request : Path × Bytes} (hrequest : (s.nodes i).request = some request) :
    C.Opening request.2 ∨ C.entries s.store 1 ≠ none := by
  have hsound := h.sound i
  obtain ⟨⟨index, payload⟩, hput, rfl⟩ := Option.map_eq_some_iff.mp hrequest
  unfold Node.putting at hput
  split at hput
  · rename_i backoff a as hstage
    cases hput
    have hstate : (s.nodes i).fsm.state = .notJoined := hsound.state_of hstage rfl
    exact Or.inl (opening_attempt hsound.placed (by simp [hstate]) (hsound.attempting _ _ _ hstage))
  · rename_i acc payload' appending hstage
    obtain ⟨entry, hentry, _⟩ := h.leader i (hsound.state_of hstage rfl)
    exact Or.inr (by simp [hentry])
  · cases hput

theorem Opened.putOpts (h : C.Opened s) {request : Path × Bytes} (hpath : request.1 = C.entryPath 1)
    (hpayload : C.Opening request.2 ∨ C.entries s.store 1 ≠ none) (fate : Fate) (index : UInt64) (payload : Bytes)
    (hentry : C.entries (s.store.putOpts request.1 request.2 fate).1 index = some payload) :
    index = 1 ∧ C.Opening payload := by
  rw [hpath] at hentry
  rcases entries_putOpts s.store 1 request.2 fate with hsame | hcreate
  · rw [hsame] at hentry
    exact h.entry index payload hentry
  · rw [hcreate] at hentry
    by_cases hindex : index = 1
    · subst hindex
      refine ⟨rfl, ?_⟩
      cases hold : C.entries s.store 1 with
      | none =>
        rw [WriteOnce.create_free _ hold] at hentry
        cases hentry
        exact hpayload.resolve_right (by simp [hold])
      | some old =>
        rw [WriteOnce.create_taken _ hold] at hentry
        exact (h.entry 1 payload hentry).2
    · rw [WriteOnce.create_ne _ hindex] at hentry
      exact h.entry index payload hentry

theorem taken_putOpts {store : ObjectStore} {P : Prop} (h : P ∨ C.entries store 1 ≠ none) (p : Path) (payload : Bytes)
    (fate : Fate) : P ∨ C.entries (store.putOpts p payload fate).1 1 ≠ none := by
  apply h.imp_right
  intro htaken
  obtain ⟨entry, hentry⟩ := Option.ne_none_iff_exists'.mp htaken
  rw [extends_putOpts store p payload fate 1 entry hentry]
  simp

variable [DecidableEq ι]

theorem opened_step {e : ClusterEvent ι} (h : C.Opened s) (hstep : C.step s e = some t) : C.Opened t := by
  have hsafe := safe_step h.safe hstep
  cases e with
  | input i input =>
    obtain ⟨n, _, rfl⟩ := Option.map_eq_some_iff.mp hstep
    exact ⟨hsafe, h.entry, h.adrift⟩
  | put i fate =>
    obtain ⟨request, hunanswered, rfl⟩ := Option.map_eq_some_iff.mp hstep
    obtain ⟨_, hrequest⟩ := ClusterState.request_of_unanswered hunanswered
    refine ⟨hsafe, ?_, ?_⟩
    · exact h.putOpts (h.safe.harmless hrequest).1 (h.safe.opening hrequest) fate
    · intro other hother
      exact taken_putOpts (h.adrift other hother) _ _ fate
  | lost i store source =>
    obtain ⟨request, hunanswered, rfl⟩ := Option.map_eq_some_iff.mp hstep
    obtain ⟨_, hrequest⟩ := ClusterState.request_of_unanswered hunanswered
    exact ⟨hsafe, h.entry, List.forall_mem_cons.mpr ⟨h.safe.opening hrequest, h.adrift⟩⟩
  | answered i =>
    obtain ⟨_, _, rfl⟩ := Option.map_eq_some_iff.mp hstep
    exact ⟨hsafe, h.entry, h.adrift⟩
  | crash i =>
    cases hstep
    refine ⟨hsafe, h.entry, ?_⟩
    intro request hmem
    rcases List.mem_append.mp hmem with hmem | hmem
    · exact h.safe.opening (ClusterState.request_of_unanswered (Option.mem_toList.mp hmem)).2
    · exact h.adrift request hmem
  | land request =>
    simp only [step] at hstep
    split_ifs at hstep with hmem
    cases hstep
    refine ⟨hsafe, ?_, ?_⟩
    · exact h.putOpts (h.safe.adrift request hmem).1 (h.adrift request hmem) .served
    · intro other hother
      exact taken_putOpts (h.adrift other (List.mem_of_mem_erase hother)) _ _ .served

omit [DecidableEq ι] in
theorem opened_starts (hs : C.Starts s) : C.Opened s := by
  refine ⟨safe_starts hs, ?_, ?_⟩
  · intro index payload hentry
    rw [hs.2.1] at hentry
    cases hentry
  · simp [hs.2.2.1]

/-- No request that a leader accepts ever reaches the log: it holds one opening entry at most, and no
flush is answered `Ok`. -/
theorem requests_never_stored (hs : C.Starts s) (h : Reachable C.step s t) :
    (∀ index payload, C.entries t.store index = some payload → index = 1 ∧ C.Opening payload) ∧
    ∀ i acc payload appending p fate, (t.nodes i).stage = .flushing acc payload appending →
      (t.nodes i).request = some (p, payload) → (t.store.putOpts p payload fate).2 ≠ .ok () := by
  have hopened : C.Opened t := invariant (fun _ _ _ => opened_step) (opened_starts hs) h
  refine ⟨hopened.entry, ?_⟩
  intro i acc payload appending p fate hstage hrequest hok
  obtain ⟨rfl, _⟩ := hopened.safe.request hrequest
  obtain ⟨entry, hentry, _⟩ := hopened.safe.leader i ((hopened.safe.sound i).state_of hstage rfl)
  have hfree : C.entries t.store 1 = none := (S2cLog.putOpts_ok (C.log i) 1 payload (Prod.ext rfl hok)).1
  cases hfree.symm.trans hentry

theorem requests_never_stored_sample : samplePair.Opening sampleAttempt.payload := by
  have hmem : ((1 : UInt64), sampleAttempt.payload) ∈ [((1 : UInt64), sampleAttempt.payload)] :=
    List.mem_singleton_self _
  have hentry := S2cLog.entries_appendAll FSM.appendAll_sample hmem
  exact ((requests_never_stored starts_sample reachable_sample).1 1 sampleAttempt.payload hentry).2

end Cluster

end S2c
