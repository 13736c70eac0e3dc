import S2c.Log.Head

namespace S2c

open Wire Loop BackoffCounter

variable {α : Type}

def failsTransiently : Except Error α → Bool
  | .ok _ => false
  | .error e => isTransient e

def spins : Except Error Unit → Bool
  | .error (.generic store source) => !isTransient (.generic store source)
  | _ => false

theorem failsTransiently_eq_true_iff (re : Except Error α) :
    failsTransiently re = true ↔ ∃ e, re = .error e ∧ isTransient e = true := by
  cases re <;> simp [failsTransiently]

theorem appendTurn_of_spins {answer : Except Error Unit} (h : spins answer = true) (c : BackoffCounter) :
    S2cLog.appendTurn c answer = .again c := by
  unfold spins at h
  split at h
  · rw [S2cLog.appendTurn, if_neg (by simpa using h)]
  · cases h

theorem appendTurn_eq_retry {answer : Except Error Unit} (h : spins answer = false) (c : BackoffCounter) :
    S2cLog.appendTurn c answer = retry canAttempt awaitAttempt failsTransiently id c answer := by
  unfold S2cLog.appendTurn retry
  split
  · rfl
  · rfl
  · next store source =>
    have htransient : isTransient (.generic store source) = true := by simpa [spins] using h
    simp [failsTransiently, htransient]
  · next e _ hgeneric =>
    have hfinal : isTransient e = false := by
      cases e with
      | generic store source => exact absurd rfl (hgeneric store source)
      | _ => rfl
    simp [failsTransiently, hfinal]

namespace S2cLog

variable (log : S2cLog) (index : UInt64) (payload : Bytes)

def answers (store : ObjectStore) (fates : Stream' Fate) : Stream' (Except Error Unit) :=
  Stream'.corec (fun s => (s.1.putOpts (log.entryPath index) payload s.2.head).2)
    (fun s => ((s.1.putOpts (log.entryPath index) payload s.2.head).1, s.2.tail)) (store, fates)

theorem answers_eq (store : ObjectStore) (fates : Stream' Fate) : log.answers index payload store fates =
    Stream'.cons (store.putOpts (log.entryPath index) payload fates.head).2
      (log.answers index payload (store.putOpts (log.entryPath index) payload fates.head).1 fates.tail) :=
  Stream'.corec_eq _ _ _

theorem leaves_appendBody_iff (store : ObjectStore) (fates : Stream' Fate) (c : BackoffCounter) (k : ℕ)
    (re : Except Error Unit) :
    (∃ store', Leaves (log.appendBody index payload) (store, c) fates k (store', re)) ↔
      Leaves appendTurn c (log.answers index payload store fates) k re := by
  induction k generalizing store fates c with
  | zero =>
    rw [answers_eq]
    simp only [leaves_zero, appendBody, Stream'.head_cons]
    cases appendTurn c (store.putOpts (log.entryPath index) payload fates.head).2 <;> simp
  | succ k ih =>
    rw [answers_eq, leaves_succ, Stream'.head_cons, Stream'.tail_cons]
    simp only [leaves_succ, ← ih, appendBody]
    cases appendTurn c (store.putOpts (log.entryPath index) payload fates.head).2 <;> simp

end S2cLog

/-- `append` returns within its budget, with what the last put said, and puts no more after an error
that is not transient. -/
def AppendBounded (o : S2cRetryOptions) (n : UInt32) (outcomes : Stream' (Except Error Unit)) : Prop :=
  ∃ k ≤ n.toNat, ∃ re, Leaves S2cLog.appendTurn (new o) outcomes k re ∧
    (re = .ok () ↔ outcomes.get k = .ok ()) ∧
    ∀ i ≤ k, ∀ e, outcomes.get i = .error e → isTransient e = false → i = k ∧ re = .error e

def AppendSettles (n : UInt32) (outcomes : Stream' (Except Error Unit)) : Prop :=
  (∃ k ≤ n.toNat, (∀ i < k, failsTransiently (outcomes.get i) = true) ∧
    failsTransiently (outcomes.get k) = false ∧ spins (outcomes.get k) = false) ∨
  n.toNat ≠ 2 ^ 32 - 1 ∧ ∀ i ≤ n.toNat, failsTransiently (outcomes.get i) = true

theorem spins_of_failsTransiently {answer : Except Error Unit} (h : failsTransiently answer = true) :
    spins answer = false := by
  obtain ⟨e, rfl, htransient⟩ := (failsTransiently_eq_true_iff answer).mp h
  cases e with
  | generic store source => simpa [spins] using htransient
  | _ => rfl

theorem leaves_appendTurn_iff {outcomes : Stream' (Except Error Unit)} {k : ℕ} {o : S2cRetryOptions}
    {n : UInt32} (hn : o.maxAttempts = some n) (hspins : ∀ i ≤ k, spins (outcomes.get i) = false)
    (re : Except Error Unit) :
    Leaves S2cLog.appendTurn (new o) outcomes k re ↔
      (∀ i < k, failsTransiently (outcomes.get i) = true) ∧ (k ≤ n.toNat ∨ n.toNat = 2 ^ 32 - 1) ∧
        (failsTransiently (outcomes.get k) = true → k = n.toNat ∧ n.toNat ≠ 2 ^ 32 - 1) ∧
          re = outcomes.get k := by
  rw [leaves_congr (fun i hi c => appendTurn_eq_retry (hspins i hi) c), leaves_retry_new_iff hn]
  rfl

theorem appendSettles_iff (n : UInt32) (outcomes : Stream' (Except Error Unit)) : AppendSettles n outcomes ↔
    ∃ k ≤ n.toNat, (∀ i < k, failsTransiently (outcomes.get i) = true) ∧ spins (outcomes.get k) = false ∧
      (failsTransiently (outcomes.get k) = true → k = n.toNat ∧ n.toNat ≠ 2 ^ 32 - 1) := by
  constructor
  · rintro (⟨k, hk, hbefore, hfinal, hspins⟩ | ⟨hne, hall⟩)
    · refine ⟨k, hk, hbefore, hspins, ?_⟩
      intro htransient
      cases hfinal.symm.trans htransient
    · have hlast := hall n.toNat (Nat.le_refl _)
      exact ⟨n.toNat, Nat.le_refl _, fun i hi => hall i hi.le, spins_of_failsTransiently hlast,
        fun _ => ⟨rfl, hne⟩⟩
  · rintro ⟨k, hk, hbefore, hspins, hlast⟩
    by_cases htransient : failsTransiently (outcomes.get k) = true
    · obtain ⟨rfl, hne⟩ := hlast htransient
      refine Or.inr ⟨hne, ?_⟩
      intro i hi
      rcases Nat.lt_or_eq_of_le hi with hlt | rfl
      · exact hbefore i hlt
      · exact htransient
    · exact Or.inl ⟨k, hk, hbefore, Bool.of_not_eq_true htransient, hspins⟩

theorem not_spins_of_leaves {outcomes : Stream' (Except Error Unit)} {c : BackoffCounter} {k : ℕ}
    {re : Except Error Unit} (h : Leaves S2cLog.appendTurn c outcomes k re) :
    spins (outcomes.get k) = false := by
  obtain ⟨t, _, ht⟩ := h
  by_contra hspins
  cases (appendTurn_of_spins (Bool.of_not_eq_false hspins) t).symm.trans ht

theorem final_of_spins {answer : Except Error Unit} (h : spins answer = true) :
    ∃ e, answer = .error e ∧ isTransient e = false := by
  cases answer with
  | ok u => cases h
  | error e =>
    refine ⟨e, rfl, ?_⟩
    by_contra he
    have htransient : failsTransiently (.error e : Except Error Unit) = true := Bool.of_not_eq_false he
    cases h.symm.trans (spins_of_failsTransiently htransient)

theorem appendBounded_iff {o : S2cRetryOptions} {n : UInt32} (hn : o.maxAttempts = some n)
    (outcomes : Stream' (Except Error Unit)) : AppendBounded o n outcomes ↔ AppendSettles n outcomes := by
  rw [appendSettles_iff]
  constructor
  · rintro ⟨k, hk, re, hleaves, _, hfinal⟩
    have hspins : ∀ i ≤ k, spins (outcomes.get i) = false := by
      intro i hi
      by_contra hspin
      -- an error that spins is not transient, so it would have been the last one
      obtain ⟨e, hanswer, he⟩ := final_of_spins (Bool.of_not_eq_false hspin)
      obtain ⟨rfl, _⟩ := hfinal i hi e hanswer he
      exact hspin (not_spins_of_leaves hleaves)
    obtain ⟨hbefore, _, hlast, _⟩ := (leaves_appendTurn_iff hn hspins re).mp hleaves
    exact ⟨k, hk, hbefore, hspins k (Nat.le_refl k), hlast⟩
  · rintro ⟨k, hk, hbefore, hspin, hlast⟩
    have hspins : ∀ i ≤ k, spins (outcomes.get i) = false := by
      intro i hi
      rcases Nat.lt_or_eq_of_le hi with hlt | rfl
      · exact spins_of_failsTransiently (hbefore i hlt)
      · exact hspin
    have hleaves := (leaves_appendTurn_iff hn hspins _).mpr ⟨hbefore, Or.inl hk, hlast, rfl⟩
    refine ⟨k, hk, outcomes.get k, hleaves, Iff.rfl, ?_⟩
    intro i hi e hanswer he
    rcases Nat.lt_or_eq_of_le hi with hlt | rfl
    · have htransient := hbefore i hlt
      rw [hanswer] at htransient
      cases he.symm.trans htransient
    · exact ⟨rfl, hanswer⟩

def refused : Error := .generic "S3" "connection refused"

def slowedDown : Stream' (Except Error Unit) :=
  Stream'.cons (.error (.generic "S3" "503 slowdown"))
    (Stream'.cons (.error (.generic "S3" "requesttimeout")) (Stream'.const (.ok ())))

theorem appendBounded_sample : S2cRetryOptions.default.maxAttempts = some 3 ∧
    (AppendBounded S2cRetryOptions.default 3 slowedDown ↔ AppendSettles 3 slowedDown) :=
  ⟨rfl, appendBounded_iff rfl _⟩

theorem appendBounded_fails : S2cRetryOptions.default.maxAttempts = some 3 ∧
    ¬AppendBounded S2cRetryOptions.default 3 (Stream'.const (.error refused)) := by
  have hspins : spins (.error refused) = true := by decide
  refine ⟨rfl, ?_⟩
  rintro ⟨k, _, re, hleaves, _⟩
  cases hspins.symm.trans (not_spins_of_leaves hleaves)

def bodyFails : Except Error (Except Error Bytes) → Bool
  | .ok re => failsTransiently re
  | .error _ => false

def retriable (answer : Except Error (Except Error Bytes)) : Bool := failsTransiently answer || bodyFails answer

theorem getAtTurn_request {answer : Except Error (Except Error Bytes)} (h : failsTransiently answer = true)
    (c : BackoffCounter) : ∃ e, answer = .error e ∧
      getAtTurn c answer = if c.canAttempt then .again c.awaitAttempt else .leave (.error e) := by
  obtain ⟨e, rfl, htransient⟩ := (failsTransiently_eq_true_iff answer).mp h
  exact ⟨e, rfl, by simp [getAtTurn, htransient]⟩

theorem getAtTurn_body {answer : Except Error (Except Error Bytes)} (h : bodyFails answer = true)
    (c : BackoffCounter) : ∃ e, answer = .ok (.error e) ∧
      getAtTurn c answer =
        if c.reset.canAttempt then .again c.reset.awaitAttempt else .leave (.error e) := by
  cases answer with
  | error e => cases h
  | ok re =>
    obtain ⟨e, rfl, htransient⟩ := (failsTransiently_eq_true_iff re).mp h
    exact ⟨e, rfl, by simp [getAtTurn, htransient]⟩

theorem getAtTurn_final {answer : Except Error (Except Error Bytes)} (h : retriable answer = false)
    (c : BackoffCounter) : ∃ re, getAtTurn c answer = .leave re := by
  rw [retriable, Bool.or_eq_false_iff] at h
  obtain ⟨hrequest, hbody⟩ := h
  cases answer with
  | error e =>
    have he : isTransient e = false := hrequest
    exact ⟨.error e, by simp [getAtTurn, he]⟩
  | ok re =>
    cases re with
    | error e =>
      have he : isTransient e = false := hbody
      exact ⟨.error e, by simp [getAtTurn, he]⟩
    | ok bytes => exact ⟨.ok bytes, rfl⟩

theorem getAtTurn_ok {c : BackoffCounter} {answer : Except Error (Except Error Bytes)} {bytes : Bytes}
    (h : getAtTurn c answer = .leave (.ok bytes)) : answer = .ok (.ok bytes) := by
  unfold getAtTurn at h
  split at h
  · cases h
    rfl
  · split_ifs at h
    cases h
  · split_ifs at h
    cases h

variable (c : BackoffCounter) (m : ℕ) (outcomes : Stream' (Except Error (Except Error Bytes)))

def RowFirst : Prop := ∃ k < m, (∀ i ≤ k, failsTransiently (outcomes.get i) = true) ∧ ¬c.Affords (k + 1)

def RowAfter (j : ℕ) : Prop :=
  ∃ k, j + k < m ∧ retriable (outcomes.get j) = true ∧
    (∀ i < k, failsTransiently (outcomes.get (j + i + 1)) = true) ∧ ¬c.reset.Affords (k + 1)

def RunsOut : Prop := RowFirst c m outcomes ∨ ∃ j, RowAfter c m outcomes j

variable {c m outcomes}

theorem rowAfter_succ {d : BackoffCounter} (hreset : d.reset = c.reset) (j : ℕ) :
    RowAfter c (m + 1) outcomes (j + 1) ↔ RowAfter d m outcomes.tail j := by
  unfold RowAfter
  rw [hreset]
  have hshift (i : ℕ) : outcomes.get (j + 1 + i + 1) = outcomes.tail.get (j + i + 1) := by
    rw [Stream'.get_tail]
    congr 1
    omega
  have hlt (k : ℕ) : j + 1 + k < m + 1 ↔ j + k < m := by omega
  simp only [hshift, hlt, Stream'.get_tail]

theorem rowFirst_succ (hcan : c.canAttempt = true) (hhead : failsTransiently outcomes.head = true) :
    RowFirst c (m + 1) outcomes ↔ RowFirst c.awaitAttempt m outcomes.tail := by
  constructor
  · rintro ⟨k, hk, hrow, hspent⟩
    cases k with
    | zero => exact absurd ⟨hcan, trivial⟩ hspent
    | succ k =>
      exact ⟨k, Nat.lt_of_succ_lt_succ hk, fun i hi => hrow (i + 1) (Nat.succ_le_succ hi),
        fun h => hspent ⟨hcan, h⟩⟩
  · rintro ⟨k, hk, hrow, hspent⟩
    refine ⟨k + 1, Nat.succ_lt_succ hk, ?_, fun h => hspent h.2⟩
    intro i hi
    cases i with
    | zero => exact hhead
    | succ i => exact hrow i (Nat.le_of_succ_le_succ hi)

theorem rowAfter_zero (hcan : c.reset.canAttempt = true) (hhead : retriable outcomes.head = true) :
    RowAfter c (m + 1) outcomes 0 ↔ RowFirst c.reset.awaitAttempt m outcomes.tail := by
  constructor
  · rintro ⟨k, hk, _, hrow, hspent⟩
    cases k with
    | zero => exact absurd ⟨hcan, trivial⟩ hspent
    | succ k =>
      refine ⟨k, by omega, ?_, fun h => hspent ⟨hcan, h⟩⟩
      intro i hi
      have h := hrow i (Nat.lt_succ_of_le hi)
      rwa [Nat.zero_add] at h
  · rintro ⟨k, hk, hrow, hspent⟩
    refine ⟨k + 1, by omega, hhead, ?_, fun h => hspent h.2⟩
    intro i hi
    rw [Nat.zero_add]
    exact hrow i (Nat.le_of_lt_succ hi)

theorem runsOut_request (hc : c.Within)
    (hhead : failsTransiently outcomes.head = true) (hcan : c.canAttempt = true) :
    RunsOut c (m + 1) outcomes ↔ RunsOut c.awaitAttempt m outcomes.tail := by
  -- a row that begins with the first answer is also one that the counter as it stands pays for
  have hzero : RowAfter c (m + 1) outcomes 0 → RowFirst c (m + 1) outcomes := by
    rintro ⟨k, hk, _, hrow, hspent⟩
    refine ⟨k, by omega, ?_, fun h => hspent (h.fresh hc)⟩
    intro i hi
    cases i with
    | zero => exact hhead
    | succ i =>
      have h := hrow i hi
      rwa [Nat.zero_add] at h
  unfold RunsOut
  rw [← rowFirst_succ hcan hhead]
  simp only [← rowAfter_succ (reset_awaitAttempt c)]
  constructor
  · rintro (hfirst | ⟨j, hj⟩)
    · exact Or.inl hfirst
    · cases j with
      | zero => exact Or.inl (hzero hj)
      | succ j => exact Or.inr ⟨j, hj⟩
  · rintro (hfirst | ⟨j, hj⟩)
    · exact Or.inl hfirst
    · exact Or.inr ⟨j + 1, hj⟩

theorem runsOut_body (hhead : bodyFails outcomes.head = true) (hcan : c.reset.canAttempt = true) :
    RunsOut c (m + 1) outcomes ↔ RunsOut c.reset.awaitAttempt m outcomes.tail := by
  have hnever : ¬RowFirst c (m + 1) outcomes := by
    rintro ⟨k, _, hrow, _⟩
    obtain ⟨e, he, _⟩ := (failsTransiently_eq_true_iff _).mp (hrow 0 (Nat.zero_le k))
    have hbody : bodyFails (outcomes.get 0) = true := hhead
    rw [he] at hbody
    cases hbody
  have hretriable : retriable outcomes.head = true := by simp [retriable, hhead]
  unfold RunsOut
  rw [← rowAfter_zero hcan hretriable]
  simp only [← rowAfter_succ (reset_awaitAttempt c.reset)]
  constructor
  · rintro (hfirst | ⟨j, hj⟩)
    · exact absurd hfirst hnever
    · cases j with
      | zero => exact Or.inl hj
      | succ j => exact Or.inr ⟨j, hj⟩
  · rintro (hzero | ⟨j, hj⟩)
    · exact Or.inr ⟨0, hzero⟩
    · exact Or.inr ⟨j + 1, hj⟩

theorem stops_getAtTurn_iff (hc : c.Within) : Stops getAtTurn c outcomes m ↔
    (∃ k < m, retriable (outcomes.get k) = false) ∨ RunsOut c m outcomes := by
  induction m generalizing c outcomes with
  | zero => simp [Stops, RunsOut, RowFirst, RowAfter]
  | succ m ih =>
    rw [stops_succ, Nat.exists_lt_succ_left]
    cases hhead : retriable outcomes.head with
    | false =>
      constructor
      · intro _
        exact Or.inl (Or.inl rfl)
      · intro _
        exact Or.inl (getAtTurn_final hhead c)
    | true =>
      have hsome : ¬(true = false) := Bool.noConfusion
      rw [or_iff_right hsome]
      rcases Bool.or_eq_true_iff.mp hhead with hrequest | hbody
      · obtain ⟨e, _, hturn⟩ := getAtTurn_request hrequest c
        by_cases hcan : c.canAttempt = true
        · have hrest : Stops getAtTurn c.awaitAttempt outcomes.tail m ↔
              (∃ k < m, retriable (outcomes.get (k + 1)) = false) ∨ RunsOut c.awaitAttempt m outcomes.tail :=
            ih hc.awaitAttempt
          rw [runsOut_request hc hrequest hcan, ← hrest, hturn, if_pos hcan]
          simp
        · have hspent : RunsOut c (m + 1) outcomes := by
            refine Or.inl ⟨0, Nat.succ_pos m, ?_, fun h => hcan h.1⟩
            intro i hi
            rw [Nat.le_zero.mp hi]
            exact hrequest
          rw [hturn, if_neg hcan]
          simp [hspent]
      · obtain ⟨e, _, hturn⟩ := getAtTurn_body hbody c
        by_cases hcan : c.reset.canAttempt = true
        · have hrest : Stops getAtTurn c.reset.awaitAttempt outcomes.tail m ↔
              (∃ k < m, retriable (outcomes.get (k + 1)) = false) ∨
                RunsOut c.reset.awaitAttempt m outcomes.tail :=
            ih (within_reset c).awaitAttempt
          rw [runsOut_body hbody hcan, ← hrest, hturn, if_pos hcan]
          simp
        · have hspent : RunsOut c (m + 1) outcomes :=
            Or.inr ⟨0, 0, Nat.succ_pos m, hhead, by simp, fun h => hcan h.1⟩
          rw [hturn, if_neg hcan]
          simp [hspent]

def GetAtBounded (o : S2cRetryOptions) (m : ℕ) (outcomes : Stream' (Except Error (Except Error Bytes))) : Prop :=
  ∃ k < m, ∃ re, Leaves getAtTurn (new o) outcomes k re ∧
    ∀ bytes, re = .ok bytes → outcomes.get k = .ok (.ok bytes)

theorem getAtBounded_iff_stops (o : S2cRetryOptions) :
    GetAtBounded o m outcomes ↔ Stops getAtTurn (new o) outcomes m := by
  constructor
  · rintro ⟨k, hk, re, hleaves, _⟩
    exact ⟨k, hk, re, hleaves⟩
  · rintro ⟨k, hk, re, t, hfeed, hturn⟩
    refine ⟨k, hk, re, ⟨t, hfeed, hturn⟩, ?_⟩
    rintro bytes rfl
    exact getAtTurn_ok hturn

def GetAtSettles (n : UInt32) (m : ℕ) (outcomes : Stream' (Except Error (Except Error Bytes))) : Prop :=
  (∃ k < m, retriable (outcomes.get k) = false) ∨
  n.toNat ≠ 2 ^ 32 - 1 ∧ ∃ j, j + n.toNat < m ∧ retriable (outcomes.get j) = true ∧
    ∀ i < n.toNat, failsTransiently (outcomes.get (j + i + 1)) = true

theorem runsOut_new_iff {o : S2cRetryOptions} {n : UInt32} (hn : o.maxAttempts = some n) :
    RunsOut (new o) m outcomes ↔ n.toNat ≠ 2 ^ 32 - 1 ∧ ∃ j, j + n.toNat < m ∧
      retriable (outcomes.get j) = true ∧
        ∀ i < n.toNat, failsTransiently (outcomes.get (j + i + 1)) = true := by
  have hspent (k : ℕ) : ¬(new o).Affords (k + 1) ↔ n.toNat ≤ k ∧ n.toNat ≠ 2 ^ 32 - 1 := by
    rw [affords_new_iff hn]
    omega
  have hreset : (new o).reset = new o := rfl
  unfold RunsOut RowFirst RowAfter
  rw [hreset]
  simp only [hspent]
  constructor
  · rintro (⟨k, hk, hrow, hle, hne⟩ | ⟨j, k, hk, hj, hrow, hle, hne⟩)
    · refine ⟨hne, 0, by omega, by simp [retriable, hrow 0 (Nat.zero_le k)], ?_⟩
      intro i hi
      rw [Nat.zero_add]
      exact hrow (i + 1) (by omega)
    · exact ⟨hne, j, by omega, hj, fun i hi => hrow i (by omega)⟩
  · rintro ⟨hne, j, hlt, hj, hrow⟩
    exact Or.inr ⟨j, n.toNat, hlt, hj, hrow, Nat.le_refl _, hne⟩

def timedOut : Error := .generic "S3" "timeout"

def halfRead : Stream' (Except Error (Except Error Bytes)) := Stream'.const (.ok (.error timedOut))

theorem not_getAtBounded_halfRead {o : S2cRetryOptions} {n : UInt32} (hn : o.maxAttempts = some n)
    (hpos : n ≠ 0) (m : ℕ) : ¬GetAtBounded o m halfRead := by
  have hbody (i : ℕ) : bodyFails (halfRead.get i) = true := by
    rw [halfRead, Stream'.get_const]
    decide
  have hrequest (i : ℕ) : failsTransiently (halfRead.get i) = false := rfl
  have hsome : 0 < n.toNat := by
    apply Nat.pos_of_ne_zero
    intro h
    exact hpos (UInt32.toNat_inj.mp h)
  rw [getAtBounded_iff_stops, stops_getAtTurn_iff (within_new o), runsOut_new_iff hn]
  rintro (⟨k, _, hfinal⟩ | ⟨_, j, _, _, hrow⟩)
  · rw [retriable, hbody, Bool.or_true] at hfinal
    cases hfinal
  · have h := hrow 0 hsome
    rw [hrequest] at h
    cases h

theorem getAtBounded_iff {o : S2cRetryOptions} {n : UInt32} (hn : o.maxAttempts = some n) :
    (∀ m outcomes, GetAtBounded o m outcomes ↔ GetAtSettles n m outcomes) ∧
      ((∃ m, ∀ outcomes, GetAtBounded o m outcomes) ↔ n = 0) := by
  have hiff (m : ℕ) (outcomes : Stream' (Except Error (Except Error Bytes))) :
      GetAtBounded o m outcomes ↔ GetAtSettles n m outcomes := by
    rw [getAtBounded_iff_stops, stops_getAtTurn_iff (within_new o), runsOut_new_iff hn, GetAtSettles]
  refine ⟨hiff, ?_⟩
  constructor
  · rintro ⟨m, hm⟩
    by_contra hpos
    exact not_getAtBounded_halfRead hn hpos m (hm halfRead)
  · rintro rfl
    refine ⟨1, ?_⟩
    intro outcomes
    rw [hiff]
    cases hhead : retriable (outcomes.get 0) with
    | false => exact Or.inl ⟨0, Nat.one_pos, hhead⟩
    | true => exact Or.inr ⟨by decide, 0, by decide, hhead, by simp⟩

theorem getAtBounded_sample : S2cRetryOptions.default.maxAttempts = some 3 ∧
    (GetAtBounded S2cRetryOptions.default 1 halfRead ↔ GetAtSettles 3 1 halfRead) :=
  ⟨rfl, (getAtBounded_iff rfl).1 1 halfRead⟩

theorem getAtBounded_fails : ¬∃ bound : UInt32 → ℕ, ∀ o n, o.maxAttempts = some n → ∀ outcomes,
    GetAtBounded o (bound n) outcomes := by
  rintro ⟨bound, hbound⟩
  exact not_getAtBounded_halfRead (o := S2cRetryOptions.default) rfl (by decide) (bound 3)
    (hbound S2cRetryOptions.default 3 rfl halfRead)

end S2c
