import S2c.Log.Append

namespace S2c

open Wire Loop

/-- Some put is answered, every put before it failed with a `Generic` error that the counter had
room to put again, and the entry was there by then: from before, or from a put whose reply was lost. -/
def Rejected (taken : Prop) (c : BackoffCounter) (fates : List Fate) : Prop :=
  ∃ pre rest, fates = pre ++ .served :: rest ∧ (∀ f ∈ pre, f.Generic) ∧
    c.Affords (pre.countP Fate.transient) ∧ (taken ∨ ∃ f ∈ pre, f.lost = true)

theorem not_rejected_nil (taken : Prop) (c : BackoffCounter) : ¬Rejected taken c [] := by
  rintro ⟨pre, rest, h, _⟩
  simp at h

theorem rejected_served (taken : Prop) (c : BackoffCounter) (fates : List Fate) :
    Rejected taken c (.served :: fates) ↔ taken := by
  constructor
  · rintro ⟨pre, rest, hsplit, hgeneric, _, htaken⟩
    cases pre with
    | nil => simpa using htaken
    | cons g pre =>
      obtain ⟨rfl, _⟩ := List.cons.inj hsplit
      obtain ⟨s, source, hg⟩ := hgeneric .served List.mem_cons_self
      cases hg
  · intro h
    exact ⟨[], fates, rfl, by simp, trivial, Or.inl h⟩

theorem rejected_cons {taken : Prop} {c : BackoffCounter} {f : Fate} {fates : List Fate} :
    Rejected taken c (f :: fates) ↔ (f = .served ∧ taken) ∨
      (f.Generic ∧ (f.transient = false ∧ Rejected (taken ∨ f.lost = true) c fates ∨
        f.transient = true ∧ c.canAttempt = true ∧ Rejected (taken ∨ f.lost = true) c.awaitAttempt fates)) := by
  constructor
  · rintro ⟨pre, rest, hsplit, hgeneric, hroom, htaken⟩
    cases pre with
    | nil =>
      obtain ⟨rfl, rfl⟩ := List.cons.inj hsplit
      exact Or.inl ⟨rfl, by simpa using htaken⟩
    | cons g pre =>
      obtain ⟨rfl, rfl⟩ := List.cons.inj hsplit
      have htaken' : (taken ∨ f.lost = true) ∨ ∃ g ∈ pre, g.lost = true := by
        simpa [or_assoc] using htaken
      have hgeneric' : ∀ g ∈ pre, g.Generic := fun g hg => hgeneric g (List.mem_cons_of_mem _ hg)
      refine Or.inr ⟨hgeneric f List.mem_cons_self, ?_⟩
      cases htrans : f.transient with
      | false =>
        rw [List.countP_cons_of_neg (by simp [htrans])] at hroom
        exact Or.inl ⟨rfl, pre, rest, rfl, hgeneric', hroom, htaken'⟩
      | true =>
        rw [List.countP_cons_of_pos htrans] at hroom
        exact Or.inr ⟨rfl, hroom.1, pre, rest, rfl, hgeneric', hroom.2, htaken'⟩
  · rintro (⟨rfl, htaken⟩ | ⟨hf, ⟨htrans, hrest⟩ | ⟨htrans, hcan, hrest⟩⟩)
    · exact (rejected_served taken c fates).mpr htaken
    · obtain ⟨pre, rest, rfl, hgeneric, hroom, htaken⟩ := hrest
      refine ⟨f :: pre, rest, rfl, by simpa using ⟨hf, hgeneric⟩, ?_, by simpa [or_assoc] using htaken⟩
      rw [List.countP_cons_of_neg (by simp [htrans])]
      exact hroom
    · obtain ⟨pre, rest, rfl, hgeneric, hroom, htaken⟩ := hrest
      refine ⟨f :: pre, rest, rfl, by simpa using ⟨hf, hgeneric⟩, ?_, by simpa [or_assoc] using htaken⟩
      rw [List.countP_cons_of_pos htrans]
      exact ⟨hcan, hroom⟩

namespace S2cLog

variable (log : S2cLog) (index : UInt64) (payload : Bytes)

theorem entries_putOpts_error (store : ObjectStore) {fate : Fate} (h : fate ≠ .served) :
    log.entries (store.putOpts (log.entryPath index) payload fate).1 index ≠ none ↔
      log.entries store index ≠ none ∨ fate.lost = true := by
  cases fate with
  | served => exact absurd rfl h
  | refused e => simp [ObjectStore.putOpts, Fate.lost]
  | lostReply s source =>
    simp only [ObjectStore.putOpts, entries_insertIfNew, Fate.lost, or_true, iff_true]
    simp [WriteOnce.create]

theorem putOpts_error (store : ObjectStore) (p : Path) {fate : Fate} {e : Error}
    (h : fate.error = some e) : (store.putOpts p payload fate).2 = .error e := by
  cases fate with
  | served => cases h
  | refused e' =>
    obtain rfl := Option.some.inj h
    rfl
  | lostReply s source =>
    obtain rfl := Option.some.inj h
    rfl

theorem appendBody_generic (store : ObjectStore) (c : BackoffCounter) {fate : Fate} {s source : String}
    (h : fate.error = some (.generic s source)) :
    log.appendBody index payload (store, c) fate =
      let store' := (store.putOpts (log.entryPath index) payload fate).1
      if fate.transient then
        if c.canAttempt then .again (store', c.awaitAttempt)
        else .leave (store', .error (.generic s source))
      else .again (store', c) := by
  have htrans : fate.transient = isTransient (.generic s source) := by simp [Fate.transient, h]
  simp only [appendBody, putOpts_error payload store _ h, appendTurn, htrans]
  split_ifs <;> rfl

theorem appendBody_other (store : ObjectStore) (c : BackoffCounter) {fate : Fate}
    (hserved : fate ≠ .served) (hgeneric : ¬fate.Generic) :
    ∃ store' e, log.appendBody index payload (store, c) fate = .leave (store', .error e) ∧
      e ≠ .alreadyExists := by
  cases fate with
  | served => exact absurd rfl hserved
  | lostReply s source => exact absurd ⟨s, source, rfl⟩ hgeneric
  | refused e =>
    obtain ⟨e, he⟩ := e
    cases e with
    | generic s source => exact absurd ⟨s, source, rfl⟩ hgeneric
    | alreadyExists => exact absurd rfl he
    | notFound => exact ⟨_, _, rfl, by simp⟩
    | other variant => exact ⟨_, _, rfl, by simp⟩

theorem append_rejected_iff (store : ObjectStore) (c : BackoffCounter) (fates : List Fate) :
    (∃ store', feed (log.appendBody index payload) (store, c) fates =
      .leave (store', .error .alreadyExists)) ↔ Rejected (log.entries store index ≠ none) c fates := by
  induction fates generalizing store c with
  | nil => simp [not_rejected_nil]
  | cons f fates ih =>
    rw [rejected_cons]
    by_cases hserved : f = .served
    · subst hserved
      have hnot : ¬Fate.served.Generic := by rintro ⟨s, source, h⟩; cases h
      rw [feed_leave (appendBody_served log index payload store c), ← mem_iff_entries]
      by_cases htaken : log.entryPath index ∈ store <;> simp [htaken, hnot]
    by_cases hgeneric : f.Generic
    · have hentry := entries_putOpts_error log index payload store hserved
      obtain ⟨s, source, herror⟩ := id hgeneric
      have hbody := appendBody_generic log index payload store c herror
      simp only [hserved, false_and, false_or, hgeneric, true_and]
      cases htrans : f.transient with
      | false =>
        rw [feed_again (by simpa [htrans] using hbody), ih, propext hentry]
        simp
      | true =>
        cases hcan : c.canAttempt with
        | false =>
          rw [feed_leave (by simpa [htrans, hcan] using hbody)]
          simp
        | true =>
          rw [feed_again (by simpa [htrans, hcan] using hbody), ih, propext hentry]
          simp
    · obtain ⟨store', e, hbody, he⟩ := appendBody_other log index payload store c hserved hgeneric
      rw [feed_leave hbody]
      simp [hserved, hgeneric, he]

theorem append_alreadyExists {store store' : ObjectStore} {fates : List Fate}
    (h : log.append index payload store fates = .leave (store', .error .alreadyExists)) :
    log.entries store' index ≠ none := by
  apply feed_invariant (I := fun _ => True)
    (Q := fun b => b.2 = .error .alreadyExists → log.entries b.1 index ≠ none) _ _ trivial h rfl
  · intros
    trivial
  · rintro ⟨store, c⟩ fate ⟨store', re⟩ _ hbody rfl
    simp only [appendBody] at hbody
    split at hbody
    · cases hbody
    · rename_i re hturn
      simp only [Turn.leave.injEq, Prod.mk.injEq] at hbody
      obtain ⟨rfl, rfl⟩ := hbody
      apply putOpts_alreadyExists log index payload
      exact Prod.ext rfl (appendTurn_leave hturn)

end S2cLog

end S2c
