import Mathlib.Data.Stream.Init
import Mathlib.Logic.Function.Iterate
import Mathlib.Tactic.Common

namespace S2c.Loop

inductive Turn (σ β : Type) where
  | again (s : σ)
  | leave (b : β)
  deriving DecidableEq

variable {σ α β : Type}

def Turn.next : Turn σ β → Option σ
  | .again s => some s
  | .leave _ => none

/-- The loop on a list of answers from outside, one for each turn. Answers after the last turn
stay unread. -/
def feed (body : σ → α → Turn σ β) : σ → List α → Turn σ β
  | s, [] => .again s
  | s, a :: as =>
    match body s a with
    | .again s' => feed body s' as
    | .leave b => .leave b

variable {body : σ → α → Turn σ β} {s s' : σ} {b : β} {a : α} {as : List α}

@[simp] theorem feed_nil : feed body s [] = .again s := rfl

theorem feed_again (h : body s a = .again s') : feed body s (a :: as) = feed body s' as := by
  simp [feed, h]

theorem feed_leave (h : body s a = .leave b) : feed body s (a :: as) = .leave b := by
  simp [feed, h]

theorem feed_invariant {I : σ → Prop} {Q : β → Prop}
    (hagain : ∀ s a s', I s → body s a = .again s' → I s')
    (hleave : ∀ s a b, I s → body s a = .leave b → Q b)
    (hI : I s) (h : feed body s as = .leave b) : Q b := by
  induction as generalizing s with
  | nil => cases h
  | cons a as ih =>
    cases hb : body s a with
    | again s' => exact ih (hagain s a s' hI hb) (by rw [← h, feed_again hb])
    | leave b' =>
      rw [feed_leave hb] at h
      cases h
      exact hleave s a b hI hb

theorem exists_of_feed_leave {I : σ → Prop} (hagain : ∀ s a s', I s → body s a = .again s' → I s') (hI : I s)
    (h : feed body s as = .leave b) : ∃ t, ∃ a ∈ as, I t ∧ body t a = .leave b := by
  induction as generalizing s with
  | nil => cases h
  | cons a as ih =>
    cases hb : body s a with
    | again s' =>
      obtain ⟨t, a', ha', ht, hleave⟩ := ih (hagain s a s' hI hb) (by rw [← h, feed_again hb])
      exact ⟨t, a', List.mem_cons_of_mem _ ha', ht, hleave⟩
    | leave b' =>
      rw [feed_leave hb] at h
      cases h
      exact ⟨s, a, List.mem_cons_self, hI, hb⟩

def Leaves (body : σ → α → Turn σ β) (s : σ) (o : Stream' α) (k : ℕ) (b : β) : Prop :=
  ∃ t, feed body s (o.take k) = .again t ∧ body t (o.get k) = .leave b

variable {o : Stream' α} {k : ℕ}

theorem leaves_zero : Leaves body s o 0 b ↔ body s o.head = .leave b := by
  constructor
  · rintro ⟨t, hfeed, hb⟩
    cases hfeed
    exact hb
  · intro hb
    exact ⟨s, rfl, hb⟩

theorem leaves_succ : Leaves body s o (k + 1) b ↔ ∃ t, body s o.head = .again t ∧ Leaves body t o.tail k b := by
  constructor
  · rintro ⟨t, hfeed, hb⟩
    rw [Stream'.take_succ] at hfeed
    cases hhead : body s o.head with
    | again m => exact ⟨m, rfl, t, by rw [← hfeed, feed_again hhead], hb⟩
    | leave b' =>
      rw [feed_leave hhead] at hfeed
      cases hfeed
  · rintro ⟨m, hhead, t, hfeed, hb⟩
    exact ⟨t, by rw [Stream'.take_succ, feed_again hhead, hfeed], hb⟩

theorem leaves_congr {body' : σ → α → Turn σ β} (h : ∀ i ≤ k, ∀ s, body s (o.get i) = body' s (o.get i)) :
    Leaves body s o k b ↔ Leaves body' s o k b := by
  induction k generalizing s o with
  | zero =>
    rw [leaves_zero, leaves_zero]
    exact Eq.congr_left (h 0 (Nat.le_refl 0) s)
  | succ k ih =>
    have hhead : body s o.head = body' s o.head := h 0 (Nat.zero_le _) s
    have htail : ∀ t, Leaves body t o.tail k b ↔ Leaves body' t o.tail k b := by
      intro t
      apply ih
      intro i hi
      exact h (i + 1) (Nat.succ_le_succ hi)
    rw [leaves_succ, leaves_succ, hhead]
    simp only [htail]

def Stops (body : σ → α → Turn σ β) (s : σ) (o : Stream' α) (m : ℕ) : Prop := ∃ k < m, ∃ b, Leaves body s o k b

theorem stops_succ {m : ℕ} : Stops body s o (m + 1) ↔
    (∃ b, body s o.head = .leave b) ∨ ∃ t, body s o.head = .again t ∧ Stops body t o.tail m := by
  unfold Stops
  rw [Nat.exists_lt_succ_left]
  simp only [leaves_zero, leaves_succ]
  apply or_congr_right
  constructor
  · rintro ⟨k, hk, b, t, ht, hrest⟩
    exact ⟨t, ht, k, hk, b, hrest⟩
  · rintro ⟨t, ht, k, hk, b, hrest⟩
    exact ⟨k, hk, b, t, ht, hrest⟩

/-- A loop that takes another turn as long as an answer calls for a retry and the budget allows it. -/
def retry (can : σ → Bool) (spend : σ → σ) (retries : α → Bool) (out : α → β) (s : σ) (a : α) : Turn σ β :=
  if retries a && can s then .again (spend s) else .leave (out a)

variable {can : σ → Bool} {spend : σ → σ} {retries : α → Bool} {out : α → β}

theorem retry_again_iff {t : σ} : retry can spend retries out s a = .again t ↔
    retries a = true ∧ can s = true ∧ spend s = t := by
  unfold retry
  split_ifs with h
  · simp [Bool.and_eq_true_iff.mp h]
  · simp only [false_iff]
    rintro ⟨ha, hs, _⟩
    exact h (Bool.and_eq_true_iff.mpr ⟨ha, hs⟩)

theorem retry_leave_iff : retry can spend retries out s a = .leave b ↔
    (retries a = true → can s = false) ∧ b = out a := by
  unfold retry
  split_ifs with h
  · simp [Bool.and_eq_true_iff.mp h]
  · rw [Turn.leave.injEq, eq_comm]
    apply (and_iff_right _).symm
    intro ha
    by_contra hs
    exact h (Bool.and_eq_true_iff.mpr ⟨ha, Bool.of_not_eq_false hs⟩)

theorem leaves_retry_iff : Leaves (retry can spend retries out) s o k b ↔
    (∀ i < k, retries (o.get i) = true ∧ can (spend^[i] s) = true) ∧
      (retries (o.get k) = true → can (spend^[k] s) = false) ∧ b = out (o.get k) := by
  induction k generalizing s o with
  | zero =>
    rw [leaves_zero, retry_leave_iff]
    simp [Stream'.head]
  | succ k ih =>
    rw [leaves_succ]
    simp only [retry_again_iff, ih]
    constructor
    · rintro ⟨_, ⟨hhead, hcan, rfl⟩, hbefore, hlast⟩
      refine ⟨?_, hlast⟩
      intro i hi
      cases i with
      | zero => exact ⟨hhead, hcan⟩
      | succ i => exact hbefore i (Nat.lt_of_succ_lt_succ hi)
    · rintro ⟨hbefore, hlast⟩
      obtain ⟨hhead, hcan⟩ := hbefore 0 (Nat.succ_pos k)
      exact ⟨_, ⟨hhead, hcan, rfl⟩, fun i hi => hbefore (i + 1) (Nat.succ_lt_succ hi), hlast⟩

end S2c.Loop
