import S2c.Backoff
import S2c.Network.Error
import S2c.Proto.Messages

namespace S2c

open Loop BackoffCounter

def connectTurn (c : BackoffCounter) : Except ClientError Unit → Turn BackoffCounter (Except ClientError Unit)
  | .ok _ => .leave (.ok ())
  | .error e => if c.canAttempt then .again c.awaitAttempt else .leave (.error e)

def followTurn (c : BackoffCounter) : Except ClientError S2cMessage → Turn BackoffCounter (Except ClientError Unit)
  | .ok _ => .leave (.ok ())
  | .error (.io err) => if c.canAttempt then .again c.awaitAttempt else .leave (.error (.io err))
  | .error e => .leave (.error e)

def bindTurn {ε listener : Type} (c : BackoffCounter) : Except ε listener → Turn BackoffCounter (Except ε listener)
  | .ok l => .leave (.ok l)
  | .error err => if c.canAttempt then .again c.awaitAttempt else .leave (.error err)

variable {ε α β : Type}

def finalFollow : ClientError → Bool
  | .io _ => false
  | _ => true

def retriedBy (final : ε → Bool) : Except ε α → Bool
  | .ok _ => false
  | .error e => !final e

theorem retriedBy_iff {final : ε → Bool} {re : Except ε α} :
    retriedBy final re = true ↔ ∃ e, re = .error e ∧ final e = false := by
  cases re <;> simp [retriedBy]

theorem connectTurn_eq : connectTurn =
    retry canAttempt awaitAttempt (retriedBy (fun _ => false)) (Except.map (fun _ => ())) := by
  funext c re
  cases re <;> simp [connectTurn, retry, retriedBy, Except.map]

theorem followTurn_eq : followTurn =
    retry canAttempt awaitAttempt (retriedBy finalFollow) (Except.map (fun _ => ())) := by
  funext c re
  rcases re with e | m
  · cases e <;> simp [followTurn, retry, retriedBy, finalFollow, Except.map]
  · rfl

theorem bindTurn_eq : @bindTurn ε α =
    retry canAttempt awaitAttempt (retriedBy (fun _ => false)) (Except.map id) := by
  funext c re
  cases re <;> simp [bindTurn, retry, retriedBy, Except.map]

structure Tries (turn : BackoffCounter → Except ε α → Turn BackoffCounter (Except ε β)) (f : α → β)
    (final : ε → Bool) (o : S2cRetryOptions) (n : ℕ) (outcomes : Stream' (Except ε α)) (k : ℕ)
    (re : Except ε β) : Prop where
  leaves : Leaves turn (new o) outcomes k re
  bounded : k ≤ n
  last : re = (outcomes.get k).map f
  before : ∀ i < k, ∃ e, outcomes.get i = .error e ∧ final e = false
  ok : (∃ v, re = .ok v) ↔ ∃ i ≤ n, (∃ v, outcomes.get i = .ok v) ∧
    ∀ j < i, ∀ e, outcomes.get j = .error e → final e = false
  error : ∀ e, re = .error e → final e = true ∨ k = n

theorem exists_first (p : ℕ → Bool) (n : ℕ) : ∃ k ≤ n, (∀ i < k, p i = true) ∧ (p k = true → k = n) := by
  induction n with
  | zero => exact ⟨0, Nat.le_refl 0, by simp, fun _ => rfl⟩
  | succ n ih =>
    obtain ⟨k, hk, hbefore, hlast⟩ := ih
    cases hp : p k with
    | false => exact ⟨k, Nat.le_succ_of_le hk, hbefore, by simp [hp]⟩
    | true =>
      obtain rfl := hlast hp
      refine ⟨k + 1, Nat.le_refl _, ?_, fun _ => rfl⟩
      intro i hi
      rcases Nat.lt_succ_iff_lt_or_eq.mp hi with hlt | rfl
      · exact hbefore i hlt
      · exact hp

theorem tries_of_retry {turn : BackoffCounter → Except ε α → Turn BackoffCounter (Except ε β)} {f : α → β}
    {final : ε → Bool} (hturn : turn = retry canAttempt awaitAttempt (retriedBy final) (Except.map f))
    {o : S2cRetryOptions} {n : UInt32} (hn : o.maxAttempts = some n) (hlt : n.toNat < 2 ^ 32 - 1)
    (outcomes : Stream' (Except ε α)) : ∃ k re, Tries turn f final o n.toNat outcomes k re := by
  obtain ⟨k, hk, hretried, hlast⟩ := exists_first (fun i => retriedBy final (outcomes.get i)) n.toNat
  have hbefore : ∀ i < k, ∃ e, outcomes.get i = .error e ∧ final e = false :=
    fun i hi => retriedBy_iff.mp (hretried i hi)
  refine ⟨k, (outcomes.get k).map f, ?_, hk, rfl, hbefore, ?_, ?_⟩
  · rw [hturn, leaves_retry_new_iff hn]
    exact ⟨hretried, Or.inl hk, fun h => ⟨hlast h, Nat.ne_of_lt hlt⟩, rfl⟩
  · constructor
    · rintro ⟨v, hv⟩
      refine ⟨k, hk, ?_, ?_⟩
      · cases hanswer : outcomes.get k with
        | ok u => exact ⟨u, rfl⟩
        | error e =>
          rw [hanswer] at hv
          cases hv
      · intro j hj e he
        obtain ⟨e', he', hfinal⟩ := hbefore j hj
        cases he.symm.trans he'
        exact hfinal
    · rintro ⟨i, hi, ⟨v, hv⟩, hfinal⟩
      cases hanswer : outcomes.get k with
      | ok u => exact ⟨f u, rfl⟩
      | error e =>
        -- the success at `i` would be later than the attempt that ended the loop with an error
        have hki : k < i := by
          by_contra hle
          rcases Nat.lt_or_eq_of_le (Nat.le_of_not_lt hle) with hik | rfl
          · obtain ⟨e', he', _⟩ := hbefore i hik
            cases hv.symm.trans he'
          · cases hv.symm.trans hanswer
        have hk' := hlast (retriedBy_iff.mpr ⟨e, hanswer, hfinal k hki e hanswer⟩)
        omega
  · intro e he
    cases hanswer : outcomes.get k with
    | ok u =>
      rw [hanswer] at he
      cases he
    | error e' =>
      rw [hanswer] at he
      cases he
      cases hfinal : final e with
      | true => exact Or.inl rfl
      | false => exact Or.inr (hlast (retriedBy_iff.mpr ⟨e, hanswer, hfinal⟩))

theorem setUp_bounded {o : S2cRetryOptions} {n : UInt32} (hn : o.maxAttempts = some n)
    (hlt : n.toNat < 2 ^ 32 - 1) :
    (∀ outcomes, ∃ k re, Tries connectTurn (fun _ => ()) (fun _ => false) o n.toNat outcomes k re) ∧
    (∀ outcomes, ∃ k re, Tries followTurn (fun _ => ()) finalFollow o n.toNat outcomes k re) ∧
    ∀ (ε listener : Type) (outcomes : Stream' (Except ε listener)),
      ∃ k re, Tries bindTurn id (fun _ => false) o n.toNat outcomes k re :=
  ⟨tries_of_retry connectTurn_eq hn hlt, tries_of_retry followTurn_eq hn hlt,
    fun _ _ => tries_of_retry bindTurn_eq hn hlt⟩

theorem setUp_bounded_sample : S2cRetryOptions.default.maxAttempts = some 3 ∧ (3 : UInt32).toNat < 2 ^ 32 - 1 ∧
    ∃ k re, Tries connectTurn (fun _ => ()) (fun _ => false) S2cRetryOptions.default 3
      (Stream'.const (.error .closed)) k re :=
  ⟨rfl, by decide, (setUp_bounded (n := 3) rfl (by decide)).1 _⟩

end S2c
