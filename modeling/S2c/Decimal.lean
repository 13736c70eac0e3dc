import Mathlib.Algebra.Group.Nat.Defs
import Mathlib.Data.Nat.Notation
import Mathlib.Tactic.Common
import Std.Data.ExtTreeMap.Lemmas

namespace S2c.Decimal

def value (ds : List Char) : ℕ := Nat.ofDigitChars 10 ds 0

def AllDigits (ds : List Char) : Prop := ∀ c ∈ ds, c.isDigit = true

theorem value_cons (c : Char) (ds : List Char) :
    value (c :: ds) = 10 ^ ds.length * (c.toNat - 48) + value ds := by
  rw [value, Nat.ofDigitChars_cons, Nat.ofDigitChars_eq_ofDigitChars_zero]
  simp [value]

theorem digit_bounds {c : Char} (hc : c.isDigit = true) : 48 ≤ c.toNat ∧ c.toNat ≤ 57 := by
  simp only [Char.isDigit, Bool.and_eq_true, decide_eq_true_eq] at hc
  exact hc

theorem value_lt {ds : List Char} (hds : AllDigits ds) : value ds < 10 ^ ds.length := by
  induction ds with
  | nil => simp [value]
  | cons c ds ih =>
    have hc := digit_bounds (hds c List.mem_cons_self)
    have hrest := ih (fun d hd => hds d (List.mem_cons_of_mem _ hd))
    have hscale : 10 ^ ds.length * (c.toNat - 48) ≤ 10 ^ ds.length * 9 :=
      Nat.mul_le_mul_left _ (by omega)
    rw [value_cons, List.length_cons, Nat.pow_succ]
    omega

theorem compare_char_of_lt {c e : Char} (h : c.toNat < e.toNat) : compare c e = .lt :=
  if_pos h

theorem compare_of_value_lt {ds es : List Char} (hds : AllDigits ds) (hes : AllDigits es)
    (hlen : ds.length = es.length) (h : value ds < value es) : compare ds es = .lt := by
  induction ds generalizing es with
  | nil =>
    obtain rfl : es = [] := List.length_eq_zero_iff.mp hlen.symm
    simp at h
  | cons c ds ih =>
    obtain ⟨e, es, rfl⟩ : ∃ e es', es = e :: es' := List.exists_cons_of_length_eq_add_one hlen.symm
    have hlen' : ds.length = es.length := by simpa using hlen
    have hc := digit_bounds (hds c List.mem_cons_self)
    have he := digit_bounds (hes e List.mem_cons_self)
    have hds' : AllDigits ds := fun d hd => hds d (List.mem_cons_of_mem _ hd)
    have hes' : AllDigits es := fun d hd => hes d (List.mem_cons_of_mem _ hd)
    have hbound := value_lt hes'
    rw [value_cons, value_cons, hlen'] at h
    rw [List.compare_cons_cons]
    rcases Nat.lt_trichotomy c.toNat e.toNat with hlt | heq | hgt
    · rw [compare_char_of_lt hlt]
      rfl
    · obtain rfl : c = e := Char.toNat_inj.mp heq
      rw [Std.ReflOrd.compare_self, ih hds' hes' hlen' (by omega)]
      rfl
    · have hscale : 10 ^ es.length * (e.toNat - 48 + 1) ≤ 10 ^ es.length * (c.toNat - 48) :=
        Nat.mul_le_mul_left _ (by omega)
      rw [Nat.mul_add] at hscale
      omega

theorem compare_append (pre ds es : List Char) : compare (pre ++ ds) (pre ++ es) = compare ds es := by
  induction pre with
  | nil => rfl
  | cons c pre ih =>
    rw [List.cons_append, List.cons_append, List.compare_cons_cons, Std.ReflOrd.compare_self, ih]
    rfl

def numeral (n : ℕ) : List Char := Nat.toDigits 10 n

theorem allDigits_numeral (n : ℕ) : AllDigits (numeral n) :=
  fun _ hc => Nat.isDigit_of_mem_toDigits (by omega) (by omega) hc

@[simp] theorem value_numeral (n : ℕ) : value (numeral n) = n := Nat.ofDigitChars_ten_toDigits

@[simp] theorem numeral_ne_nil (n : ℕ) : numeral n ≠ [] := Nat.toDigits_ne_nil

theorem numeral_injective : Function.Injective numeral := by
  intro a b h
  rw [← value_numeral a, h, value_numeral]

theorem length_numeral {n k : ℕ} (hlow : 10 ^ k ≤ n) (hhigh : n < 10 ^ (k + 1)) :
    (numeral n).length = k + 1 := by
  have hle := (Nat.length_toDigits_le_iff (by omega) (Nat.succ_pos k)).mpr hhigh
  have hgt : ¬(numeral n).length ≤ k := by
    intro h
    rcases Nat.eq_zero_or_pos k with rfl | hk
    · exact numeral_ne_nil n (List.length_eq_zero_iff.mp (Nat.le_zero.mp h))
    · exact absurd ((Nat.length_toDigits_le_iff (by omega) hk).mp h) (by omega)
  simp only [numeral] at hgt ⊢
  omega

theorem compare_numeral {a b k : ℕ} (hlow : 10 ^ k ≤ a) (h : a < b) (hhigh : b < 10 ^ (k + 1)) :
    compare (numeral a) (numeral b) = .lt := by
  apply compare_of_value_lt (allDigits_numeral a) (allDigits_numeral b)
  · rw [length_numeral hlow (by omega), length_numeral (by omega) hhigh]
  · simpa using h

end S2c.Decimal
