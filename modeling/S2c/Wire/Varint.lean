import Mathlib.Algebra.Group.Nat.Defs
import Mathlib.Data.Nat.Notation
import Mathlib.Tactic.Common

namespace S2c.Wire

abbrev Bytes := List UInt8

def putVarint : ℕ → ℕ → Bytes
  | 0, _ => []
  | n + 1, v =>
    if v < 128 then [UInt8.ofNat v] else UInt8.ofNat (v % 128 + 128) :: putVarint n (v / 128)

def takeVarint : ℕ → Bytes → Option (ℕ × Bytes)
  | 0, _ => none
  | _ + 1, [] => none
  | n + 1, b :: bs =>
    if b.toNat < 128 then
      if n = 0 ∧ 2 ≤ b.toNat then none else some (b.toNat, bs)
    else (takeVarint n bs).map (fun p => (b.toNat - 128 + 128 * p.1, p.2))

def encodeVarint (v : UInt64) : Bytes := putVarint 10 v.toNat

def decodeVarint (bs : Bytes) : Option (UInt64 × Bytes) :=
  (takeVarint 10 bs).map (fun p => (UInt64.ofNat p.1, p.2))

theorem byte_toNat {n : ℕ} (hn : n < 256) : (UInt8.ofNat n).toNat = n :=
  UInt8.toNat_ofNat_of_lt' hn

theorem putVarint_length_pos (n v : ℕ) : 0 < (putVarint (n + 1) v).length := by
  rw [putVarint]
  split <;> simp

theorem putVarint_length_le (n v : ℕ) : (putVarint n v).length ≤ n := by
  induction n generalizing v with
  | zero => exact Nat.le_refl 0
  | succ n ih =>
    rw [putVarint]
    split
    · simp
    · simpa using ih (v / 128)

theorem takeVarint_putVarint (n v : ℕ) (rest : Bytes) (hv : v < 2 ^ (7 * n + 1)) :
    takeVarint (n + 1) (putVarint (n + 1) v ++ rest) = some (v, rest) := by
  induction n generalizing v with
  | zero =>
    have hv2 : v < 2 := by simpa using hv
    have hb : (UInt8.ofNat v).toNat = v := byte_toNat (by omega)
    simp only [putVarint, show v < 128 by omega, ↓reduceIte, List.cons_append, List.nil_append,
      takeVarint, hb]
    simp only [show ¬2 ≤ v by omega, and_false, ↓reduceIte]
  | succ n ih =>
    by_cases hsmall : v < 128
    · have hb : (UInt8.ofNat v).toNat = v := byte_toNat (by omega)
      rw [putVarint, if_pos hsmall]
      simp [takeVarint, hb, hsmall]
    · have hb : (UInt8.ofNat (v % 128 + 128)).toNat = v % 128 + 128 := byte_toNat (by omega)
      have hnext : v / 128 < 2 ^ (7 * n + 1) := by
        have hpow : 2 ^ (7 * (n + 1) + 1) = 2 ^ (7 * n + 1) * 128 := by
          rw [show 7 * (n + 1) + 1 = 7 * n + 1 + 7 by omega, Nat.pow_add]
        exact (Nat.div_lt_iff_lt_mul (by omega)).mpr (hpow ▸ hv)
      rw [putVarint, if_neg hsmall, List.cons_append, takeVarint, hb,
        if_neg (by omega), ih _ hnext, Option.map_some]
      congr 2
      omega

theorem decodeVarint_encodeVarint (v : UInt64) (rest : Bytes) :
    decodeVarint (encodeVarint v ++ rest) = some (v, rest) := by
  rw [decodeVarint, encodeVarint, takeVarint_putVarint 9 _ _ v.toNat_lt]
  simp

end S2c.Wire
