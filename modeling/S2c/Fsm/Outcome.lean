import Mathlib.Data.Nat.Find
import S2c.Fsm.Verdict

namespace S2c

open Wire Loop

namespace FSM

inductive Settles (f : FSM) (a : Attempt) (taken : Prop) : Fate → FSM → Prop where
  | beaten (htaken : taken) : Settles f a taken .served f
  | elected (hfree : ¬taken) :
      Settles f a taken .served { f with state := .leader, commitIndex := a.commitIndex, epoch := a.epoch }
  | stopped (fate : Fate) (hserved : fate ≠ .served) (hgeneric : ¬fate.Generic) :
      Settles f a taken fate { f with state := .stopped }

structure Decides (f : FSM) (a : Attempt) (store : ObjectStore) (o : Stream' Fate) (k : ℕ)
    (store' : ObjectStore) (f' : FSM) : Prop where
  before : ∀ i < k, (o.get i).Generic
  settles : f.Settles a (f.s2cLog.entries store a.commitIndex ≠ none ∨ ∃ i < k, (o.get i).lost = true) (o.get k) f'
  stored : store' = store.puts ((o.take (k + 1)).map (Put.mk (f.s2cLog.entryPath a.commitIndex) a.payload))

variable {f f' : FSM} {a : Attempt} {store store' : ObjectStore} {o : Stream' Fate} {k : ℕ} {s : Attempting}

theorem attemptBody_leave_iff {fate : Fate} : f.attemptBody a (store, s) fate = .leave (store', f') ↔
    f.Settles a (f.s2cLog.entries store a.commitIndex ≠ none) fate f' ∧
      store' = (store.putOpts (f.s2cLog.entryPath a.commitIndex) a.payload fate).1 := by
  by_cases hserved : fate = .served
  · subst hserved
    rw [attemptBody_served, ← S2cLog.mem_iff_entries, Turn.leave.injEq, Prod.mk.injEq]
    constructor
    · rintro ⟨rfl, rfl⟩
      refine ⟨?_, rfl⟩
      split_ifs with htaken
      · exact .beaten htaken
      · exact .elected htaken
    · rintro ⟨hsettles, rfl⟩
      refine ⟨rfl, ?_⟩
      cases hsettles with
      | beaten htaken => rw [if_pos htaken]
      | elected hfree => rw [if_neg hfree]
      | stopped _ hserved => exact absurd rfl hserved
  by_cases hgeneric : fate.Generic
  · obtain ⟨s', hbody⟩ := attemptBody_generic f a store s hgeneric
    rw [hbody]
    constructor
    · intro h
      cases h
    · rintro ⟨hsettles, _⟩
      cases hsettles with
      | stopped _ _ hnot => exact absurd hgeneric hnot
      | _ => exact absurd rfl hserved
  · have hstopped : ∃ store', f.attemptBody a (store, s) fate = .leave (store', { f with state := .stopped }) ∧
        store' = (store.putOpts (f.s2cLog.entryPath a.commitIndex) a.payload fate).1 := by
      obtain ⟨store', hbody⟩ := attemptBody_other f a store s hserved hgeneric
      refine ⟨store', hbody, ?_⟩
      unfold attemptBody at hbody
      dsimp only at hbody
      split at hbody
      · cases hbody
      · cases hbody
        rfl
    obtain ⟨_, hbody, rfl⟩ := hstopped
    rw [hbody, Turn.leave.injEq, Prod.mk.injEq]
    constructor
    · rintro ⟨rfl, rfl⟩
      exact ⟨.stopped fate hserved hgeneric, rfl⟩
    · rintro ⟨hsettles, rfl⟩
      cases hsettles with
      | stopped => exact ⟨rfl, rfl⟩
      | _ => exact absurd rfl hserved

theorem decides_zero : f.Decides a store o 0 store' f' ↔
    f.Settles a (f.s2cLog.entries store a.commitIndex ≠ none) o.head f' ∧
      store' = (store.putOpts (f.s2cLog.entryPath a.commitIndex) a.payload o.head).1 := by
  have htaken : (f.s2cLog.entries store a.commitIndex ≠ none ∨ ∃ i < 0, (o.get i).lost = true) ↔
      f.s2cLog.entries store a.commitIndex ≠ none := by simp
  constructor
  · rintro ⟨_, hsettles, hstored⟩
    rw [propext htaken] at hsettles
    exact ⟨hsettles, hstored⟩
  · rintro ⟨hsettles, hstored⟩
    refine ⟨by simp, ?_, hstored⟩
    rw [propext htaken]
    exact hsettles

theorem decides_succ : f.Decides a store o (k + 1) store' f' ↔ o.head.Generic ∧
    f.Decides a (store.putOpts (f.s2cLog.entryPath a.commitIndex) a.payload o.head).1 o.tail k store' f' := by
  have htaken (hhead : o.head.Generic) :
      (f.s2cLog.entries (store.putOpts (f.s2cLog.entryPath a.commitIndex) a.payload o.head).1 a.commitIndex ≠ none ∨
        ∃ i < k, (o.tail.get i).lost = true) ↔
      (f.s2cLog.entries store a.commitIndex ≠ none ∨ ∃ i < k + 1, (o.get i).lost = true) := by
    have hserved : o.head ≠ .served := by
      intro hserved
      obtain ⟨_, _, herror⟩ := hhead
      rw [hserved] at herror
      cases herror
    rw [S2cLog.entries_putOpts_error f.s2cLog a.commitIndex a.payload store hserved, Nat.exists_lt_succ_left, or_assoc]
    rfl
  constructor
  · rintro ⟨hbefore, hsettles, hstored⟩
    have hhead := hbefore 0 (Nat.succ_pos k)
    refine ⟨hhead, fun i hi => hbefore (i + 1) (Nat.succ_lt_succ hi), ?_, hstored⟩
    rw [propext (htaken hhead)]
    exact hsettles
  · rintro ⟨hhead, hbefore, hsettles, hstored⟩
    refine ⟨?_, ?_, hstored⟩
    · intro i hi
      cases i with
      | zero => exact hhead
      | succ i => exact hbefore i (Nat.lt_of_succ_lt_succ hi)
    · rw [propext (htaken hhead)] at hsettles
      exact hsettles

theorem leaves_iff_decides :
    Leaves (f.attemptBody a) (store, s) o k (store', f') ↔ f.Decides a store o k store' f' := by
  induction k generalizing store s o with
  | zero => rw [leaves_zero, attemptBody_leave_iff, decides_zero]
  | succ k ih =>
    rw [leaves_succ, decides_succ]
    constructor
    · rintro ⟨⟨store₁, s₁⟩, hbody, hrest⟩
      have hgeneric : o.head.Generic := by
        by_contra hgeneric
        by_cases hserved : o.head = .served
        · rw [hserved, attemptBody_served] at hbody
          cases hbody
        · obtain ⟨store₂, hother⟩ := attemptBody_other f a store s hserved hgeneric
          rw [hother] at hbody
          cases hbody
      obtain ⟨s', hbody'⟩ := attemptBody_generic f a store s hgeneric
      cases hbody.symm.trans hbody'
      exact ⟨hgeneric, ih.mp hrest⟩
    · rintro ⟨hgeneric, hrest⟩
      obtain ⟨s', hbody⟩ := attemptBody_generic f a store s hgeneric
      exact ⟨_, hbody, ih.mpr hrest⟩

theorem Settles.not_generic {taken : Prop} {fate : Fate} (h : f.Settles a taken fate f') : ¬fate.Generic := by
  cases h with
  | stopped _ _ hgeneric => exact hgeneric
  | _ =>
    rintro ⟨_, _, herror⟩
    cases herror

theorem exists_settles (f : FSM) (a : Attempt) (taken : Prop) {fate : Fate} (h : ¬fate.Generic) :
    ∃ f', f.Settles a taken fate f' := by
  by_cases hserved : fate = .served
  · subst hserved
    by_cases htaken : taken
    · exact ⟨_, .beaten htaken⟩
    · exact ⟨_, .elected htaken⟩
  · exact ⟨_, .stopped fate hserved h⟩

theorem exists_decides_iff : (∃ k store' f', f.Decides a store o k store' f') ↔ ∃ k, ¬(o.get k).Generic := by
  constructor
  · rintro ⟨k, _, _, hdecides⟩
    exact ⟨k, hdecides.settles.not_generic⟩
  · intro hfinal
    classical
    have hbefore : ∀ i < Nat.find hfinal, (o.get i).Generic := by
      intro i hi
      exact not_not.mp (Nat.find_min hfinal hi)
    obtain ⟨f', hsettles⟩ := exists_settles f a
      (f.s2cLog.entries store a.commitIndex ≠ none ∨ ∃ i < Nat.find hfinal, (o.get i).lost = true)
      (Nat.find_spec hfinal)
    exact ⟨_, _, f', hbefore, hsettles, rfl⟩

/-- `attempt_leadership` puts its entry until an answer is final, whatever the retry options of its two
loops are, and the last answer with the replies lost before it decides what becomes of the node. -/
theorem attempt_decides (f : FSM) (a : Attempt) (store : ObjectStore) (o : Stream' Fate) :
    (∀ k store' f', Leaves (f.attemptBody a) (store, f.startAttempting) o k (store', f') ↔
      f.Decides a store o k store' f') ∧
    ((∃ k store' f', Leaves (f.attemptBody a) (store, f.startAttempting) o k (store', f')) ↔
      ∃ k, ¬(o.get k).Generic) := by
  refine ⟨fun k store' f' => leaves_iff_decides, ?_⟩
  simp only [leaves_iff_decides]
  exact exists_decides_iff

end FSM

end S2c
