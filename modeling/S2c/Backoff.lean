import S2c.Config
import S2c.Loop

namespace S2c

open Loop

structure BackoffCounter where
  currentAttempt : UInt32
  s2cRetryOptions : S2cRetryOptions
  deriving DecidableEq

def checkedShl (v : UInt64) (n : UInt32) : Option UInt64 := if n < 64 then some (v <<< n.toUInt64) else none

def saturatingMul (a b : UInt64) : UInt64 := if a.toNat * b.toNat < 2 ^ 64 then a * b else 18446744073709551615

namespace BackoffCounter

def new (o : S2cRetryOptions) : BackoffCounter := ⟨0, o⟩

/-- The sum wraps at `2 ^ 32`, as it does in a release build. -/
def canAttempt (c : BackoffCounter) : Bool :=
  match c.s2cRetryOptions.maxAttempts with
  | some maxAttempts => c.currentAttempt + 1 ≤ maxAttempts
  | none => true

def awaitAttempt (c : BackoffCounter) : BackoffCounter :=
  if c.canAttempt then { c with currentAttempt := c.currentAttempt + 1 } else c

def reset (c : BackoffCounter) : BackoffCounter := { c with currentAttempt := 0 }

/-- In milliseconds, and without the jitter. -/
def calculateDuration (c : BackoffCounter) (attempt : UInt32) : UInt64 :=
  -- `as_millis` gives a `u128`, and `as u64` keeps its low half
  let maxMs := UInt64.ofNat (c.s2cRetryOptions.maxDelaySeconds.toNat * 1000)
  let multiplier := (checkedShl 1 (attempt - 1)).getD 18446744073709551615
  let baseBackoffMs := c.s2cRetryOptions.baseDelayMs
  let calculatedMs := saturatingMul baseBackoffMs multiplier
  min maxMs calculatedMs

def Affords (c : BackoffCounter) : ℕ → Prop
  | 0 => True
  | m + 1 => c.canAttempt = true ∧ c.awaitAttempt.Affords m

@[simp] theorem awaitAttempt_options (c : BackoffCounter) :
    c.awaitAttempt.s2cRetryOptions = c.s2cRetryOptions := by
  unfold awaitAttempt
  split <;> rfl

theorem affords_of_none {c : BackoffCounter} (hc : c.s2cRetryOptions.maxAttempts = none) (m : ℕ) :
    c.Affords m := by
  induction m generalizing c with
  | zero => trivial
  | succ m ih => exact ⟨by simp [canAttempt, hc], ih (by simpa using hc)⟩

theorem affords_iff {c : BackoffCounter} {n : UInt32} (hc : c.s2cRetryOptions.maxAttempts = some n)
    (hle : c.currentAttempt ≤ n) (m : ℕ) :
    c.Affords m ↔ c.currentAttempt.toNat + m ≤ n.toNat ∨ n.toNat = 2 ^ 32 - 1 := by
  induction m generalizing c with
  | zero =>
    have hle' := UInt32.le_iff_toNat_le.mp hle
    simp only [Affords, Nat.add_zero, true_iff]
    exact Or.inl hle'
  | succ m ih =>
    have hle' := UInt32.le_iff_toNat_le.mp hle
    have hn := n.toNat_lt
    have hsum : (c.currentAttempt + 1).toNat = (c.currentAttempt.toNat + 1) % 2 ^ 32 := by simp
    have hcan : c.canAttempt = true ↔ (c.currentAttempt.toNat + 1) % 2 ^ 32 ≤ n.toNat := by
      simp [canAttempt, hc, UInt32.le_iff_toNat_le]
    rw [Affords]
    by_cases hroom : c.canAttempt = true
    · have hnext : c.awaitAttempt = { c with currentAttempt := c.currentAttempt + 1 } := by
        simp [awaitAttempt, hroom]
      have hstep := ih (c := c.awaitAttempt) (by simpa using hc)
        (by rw [hnext]; exact UInt32.le_iff_toNat_le.mpr (by simpa using hcan.mp hroom))
      rw [hstep, hnext]
      dsimp only
      rw [hsum]
      have hle'' := hcan.mp hroom
      constructor
      · rintro ⟨_, h⟩
        omega
      · intro h
        exact ⟨hroom, by omega⟩
    · have := mt hcan.mpr hroom
      constructor
      · intro h
        exact absurd h.1 hroom
      · intro h
        omega

theorem affords_iff_iterate {c : BackoffCounter} (m : ℕ) :
    c.Affords m ↔ ∀ i < m, canAttempt (awaitAttempt^[i] c) = true := by
  induction m generalizing c with
  | zero => simp [Affords]
  | succ m ih =>
    rw [Affords, ih]
    constructor
    · rintro ⟨hcan, hrest⟩ i hi
      cases i with
      | zero => exact hcan
      | succ i => exact hrest i (Nat.lt_of_succ_lt_succ hi)
    · intro h
      exact ⟨h 0 (Nat.succ_pos m), fun i hi => h (i + 1) (Nat.succ_lt_succ hi)⟩

theorem affords_succ_iff {c : BackoffCounter} (m : ℕ) :
    c.Affords (m + 1) ↔ c.Affords m ∧ canAttempt (awaitAttempt^[m] c) = true := by
  rw [affords_iff_iterate, affords_iff_iterate]
  constructor
  · intro h
    exact ⟨fun i hi => h i (Nat.lt_succ_of_lt hi), h m (Nat.lt_succ_self m)⟩
  · rintro ⟨h, hm⟩ i hi
    rcases Nat.lt_succ_iff_lt_or_eq.mp hi with hlt | rfl
    · exact h i hlt
    · exact hm

def Within (c : BackoffCounter) : Prop := ∀ n, c.s2cRetryOptions.maxAttempts = some n → c.currentAttempt ≤ n

theorem within_new (o : S2cRetryOptions) : (new o).Within :=
  fun _ _ => UInt32.le_iff_toNat_le.mpr (Nat.zero_le _)

theorem within_reset (c : BackoffCounter) : c.reset.Within :=
  fun _ _ => UInt32.le_iff_toNat_le.mpr (Nat.zero_le _)

theorem affords_new_iff {o : S2cRetryOptions} {n : UInt32} (hn : o.maxAttempts = some n) (m : ℕ) :
    (new o).Affords m ↔ m ≤ n.toNat ∨ n.toNat = 2 ^ 32 - 1 := by
  rw [affords_iff (c := new o) hn (within_new o n hn) m]
  simp [new]

theorem Within.awaitAttempt {c : BackoffCounter} (hc : c.Within) : c.awaitAttempt.Within := by
  intro n hn
  rw [awaitAttempt_options] at hn
  unfold BackoffCounter.awaitAttempt
  split_ifs with hcan
  · simpa [canAttempt, hn] using hcan
  · exact hc n hn

theorem reset_awaitAttempt (c : BackoffCounter) : c.awaitAttempt.reset = c.reset := by
  unfold awaitAttempt
  split <;> rfl

theorem Affords.fresh {c : BackoffCounter} {m : ℕ} (h : c.Affords m) (hc : c.Within) :
    c.reset.Affords m := by
  cases hmax : c.s2cRetryOptions.maxAttempts with
  | none => exact affords_of_none (c := c.reset) hmax m
  | some n =>
    have hroom := (affords_iff hmax (hc n hmax) m).mp h
    apply (affords_iff (c := c.reset) hmax (within_reset c n hmax) m).mpr
    simp only [reset, UInt32.toNat_zero]
    omega

variable {α β : Type} {retries : α → Bool} {out : α → β} {c : BackoffCounter} {outcomes : Stream' α}
  {k : ℕ} {b : β}

theorem leaves_retry_iff_affords : Leaves (retry canAttempt awaitAttempt retries out) c outcomes k b ↔
    (∀ i < k, retries (outcomes.get i) = true) ∧ c.Affords k ∧
      (retries (outcomes.get k) = true → ¬c.Affords (k + 1)) ∧ b = out (outcomes.get k) := by
  rw [leaves_retry_iff, affords_succ_iff, affords_iff_iterate]
  constructor
  · rintro ⟨hbefore, hlast, hb⟩
    refine ⟨fun i hi => (hbefore i hi).1, fun i hi => (hbefore i hi).2, ?_, hb⟩
    intro hk hroom
    rw [hlast hk] at hroom
    cases hroom.2
  · rintro ⟨hbefore, hroom, hlast, hb⟩
    refine ⟨fun i hi => ⟨hbefore i hi, hroom i hi⟩, ?_, hb⟩
    intro hk
    by_contra hcan
    exact hlast hk ⟨hroom, Bool.of_not_eq_false hcan⟩

theorem leaves_retry_new_iff {o : S2cRetryOptions} {n : UInt32} (hn : o.maxAttempts = some n) :
    Leaves (retry canAttempt awaitAttempt retries out) (new o) outcomes k b ↔
      (∀ i < k, retries (outcomes.get i) = true) ∧ (k ≤ n.toNat ∨ n.toNat = 2 ^ 32 - 1) ∧
        (retries (outcomes.get k) = true → k = n.toNat ∧ n.toNat ≠ 2 ^ 32 - 1) ∧
          b = out (outcomes.get k) := by
  rw [leaves_retry_iff_affords, affords_new_iff hn, affords_new_iff hn]
  constructor
  · rintro ⟨hbefore, hroom, hlast, hb⟩
    refine ⟨hbefore, hroom, ?_, hb⟩
    intro hk
    have := hlast hk
    omega
  · rintro ⟨hbefore, hroom, hlast, hb⟩
    refine ⟨hbefore, hroom, ?_, hb⟩
    intro hk
    have := hlast hk
    omega

def maxDelayMs (c : BackoffCounter) : ℕ := 1000 * c.s2cRetryOptions.maxDelaySeconds.toNat

def exponentialMs (c : BackoffCounter) (k : UInt32) : ℕ := c.s2cRetryOptions.baseDelayMs.toNat * 2 ^ (k.toNat - 1)

def Exact (c : BackoffCounter) (k : UInt32) : Prop :=
  (c.calculateDuration k).toNat = min (min c.maxDelayMs (2 ^ 64 - 1)) (c.exponentialMs k)

structure CappedExponential (c : BackoffCounter) : Prop where
  exact : ∀ k, 1 ≤ k → c.Exact k
  monotone : ∀ j k, 1 ≤ j → j ≤ k → c.calculateDuration j ≤ c.calculateDuration k
  bounded : ∀ k, 1 ≤ k → (c.calculateDuration k).toNat ≤ min c.maxDelayMs (2 ^ 64 - 1)
  reached : ∀ k, 1 ≤ k → min c.maxDelayMs (2 ^ 64 - 1) ≤ c.exponentialMs k →
    (c.calculateDuration k).toNat = min c.maxDelayMs (2 ^ 64 - 1)

theorem toNat_saturatingMul (a b : UInt64) : (saturatingMul a b).toNat = min (2 ^ 64 - 1) (a.toNat * b.toNat) := by
  unfold saturatingMul
  split_ifs with hfits
  · rw [UInt64.toNat_mul, Nat.mod_eq_of_lt hfits]
    omega
  · have hlast : (18446744073709551615 : UInt64).toNat = 2 ^ 64 - 1 := rfl
    omega

theorem toNat_multiplier (n : UInt32) :
    ((checkedShl 1 n).getD 18446744073709551615).toNat = min (2 ^ 64 - 1) (2 ^ n.toNat) := by
  have hlt : n < 64 ↔ n.toNat < 64 := UInt32.lt_iff_toNat_lt
  unfold checkedShl
  split_ifs with hn
  · have hn' := hlt.mp hn
    have hpow : 2 ^ n.toNat < 2 ^ 64 := Nat.pow_lt_pow_right (by decide) hn'
    have hshift : ((1 : UInt64) <<< n.toUInt64).toNat = 2 ^ n.toNat := by
      rw [UInt64.toNat_shiftLeft, UInt32.toNat_toUInt64, Nat.mod_eq_of_lt hn', UInt64.toNat_one, Nat.one_shiftLeft,
        Nat.mod_eq_of_lt hpow]
    rw [Option.getD_some, hshift]
    omega
  · have hpow : 2 ^ 64 ≤ 2 ^ n.toNat := Nat.pow_le_pow_right (by decide) (by rw [hlt] at hn; omega)
    have hlast : (18446744073709551615 : UInt64).toNat = 2 ^ 64 - 1 := rfl
    rw [Option.getD_none, hlast]
    omega

theorem min_mul_min (m b p : ℕ) : min m (b * min m p) = min m (b * p) := by
  rcases Nat.eq_zero_or_pos b with rfl | hb
  · simp
  · rcases Nat.le_total p m with hle | hle
    · rw [min_eq_right hle]
    · rw [min_eq_left hle, min_eq_left (Nat.le_mul_of_pos_left m hb),
        min_eq_left (Nat.le_trans hle (Nat.le_mul_of_pos_left p hb))]

theorem toNat_calculateDuration (c : BackoffCounter) {k : UInt32} (hk : 1 ≤ k) :
    (c.calculateDuration k).toNat = min (c.maxDelayMs % 2 ^ 64) (c.exponentialMs k) := by
  have hpred : (k - 1).toNat = k.toNat - 1 := UInt32.toNat_sub_of_le _ _ hk
  have hmin : ∀ a b : UInt64, (min a b).toNat = min a.toNat b.toNat := by
    intro a b
    change (if a ≤ b then a else b).toNat = _
    split_ifs with hle
    · exact (min_eq_left (UInt64.le_iff_toNat_le.mp hle)).symm
    · rw [UInt64.le_iff_toNat_le] at hle
      exact (min_eq_right (Nat.le_of_not_le hle)).symm
  have hmax : (UInt64.ofNat (c.s2cRetryOptions.maxDelaySeconds.toNat * 1000)).toNat = c.maxDelayMs % 2 ^ 64 := by
    rw [UInt64.toNat_ofNat', maxDelayMs, Nat.mul_comm]
  have hle : c.maxDelayMs % 2 ^ 64 ≤ 2 ^ 64 - 1 := Nat.le_pred_of_lt (Nat.mod_lt _ (by decide))
  rw [calculateDuration]
  rw [hmin, hmax, toNat_saturatingMul, toNat_multiplier, hpred, min_mul_min, exponentialMs, ← min_assoc,
    min_eq_left hle]

theorem exact_iff (c : BackoffCounter) {k : UInt32} (hk : 1 ≤ k) :
    c.Exact k ↔ c.maxDelayMs < 2 ^ 64 ∨ c.exponentialMs k ≤ c.maxDelayMs % 2 ^ 64 := by
  rw [Exact, toNat_calculateDuration c hk, maxDelayMs]
  -- the limit is even, so what a wrap leaves of it is less than `2 ^ 64 - 1`
  omega

theorem exponentialMs_mono (c : BackoffCounter) {j k : UInt32} (h : j ≤ k) :
    c.exponentialMs j ≤ c.exponentialMs k := by
  have hle := UInt32.le_iff_toNat_le.mp h
  apply Nat.mul_le_mul_left
  exact Nat.pow_le_pow_right (by decide) (Nat.sub_le_sub_right hle 1)

theorem cappedExponential_of_exact {c : BackoffCounter} (h : ∀ k, 1 ≤ k → c.Exact k) : c.CappedExponential where
  exact := h
  monotone j k hj hjk := by
    have hk : 1 ≤ k := UInt32.le_trans hj hjk
    rw [UInt64.le_iff_toNat_le, h j hj, h k hk]
    have hexp := c.exponentialMs_mono hjk
    omega
  bounded k hk := by
    rw [h k hk]
    exact min_le_left _ _
  reached k hk hle := by
    rw [h k hk]
    exact min_eq_left hle

theorem cappedExponential_iff (c : BackoffCounter) :
    (∀ k, 1 ≤ k → (c.Exact k ↔ c.maxDelayMs < 2 ^ 64 ∨ c.exponentialMs k ≤ c.maxDelayMs % 2 ^ 64)) ∧
      (c.CappedExponential ↔ c.maxDelayMs < 2 ^ 64 ∨ c.s2cRetryOptions.baseDelayMs = 0) := by
  refine ⟨fun k => c.exact_iff, ?_⟩
  constructor
  · intro h
    rcases (c.exact_iff (k := 65) (by decide)).mp (h.exact 65 (by decide)) with hfits | hle
    · exact Or.inl hfits
    · right
      apply UInt64.toNat_inj.mp
      have hexp : c.exponentialMs 65 = c.s2cRetryOptions.baseDelayMs.toNat * 2 ^ 64 := rfl
      have hmod := Nat.mod_lt c.maxDelayMs (by decide : 0 < 2 ^ 64)
      rw [UInt64.toNat_zero]
      omega
  · intro h
    apply cappedExponential_of_exact
    intro k hk
    rw [c.exact_iff hk]
    apply h.imp_right
    intro hzero
    rw [exponentialMs, hzero, UInt64.toNat_zero, Nat.zero_mul]
    exact Nat.zero_le _

example : (new S2cRetryOptions.default).calculateDuration 6 = 5000 := by decide

theorem cappedExponential_fails : (new ⟨18446744073709552, 300, some 3⟩).calculateDuration 2 = 384 ∧
    ¬(new ⟨18446744073709552, 300, some 3⟩).CappedExponential := by
  refine ⟨by decide, ?_⟩
  intro h
  have hexact := h.exact 2 (by decide)
  revert hexact
  unfold Exact
  decide

end BackoffCounter

end S2c
