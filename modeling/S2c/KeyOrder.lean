import Mathlib.Data.Set.Basic
import Mathlib.Tactic.Common
import Std.Data.ExtTreeMap.Lemmas

namespace S2c.KeyOrder

variable {cs ds : List Char}

theorem utf8EncodeChar_lt {c d : Char} (h : c < d) (xs ys : List UInt8) :
    String.utf8EncodeChar c ++ xs < String.utf8EncodeChar d ++ ys := by
  have hlt : c.val.toNat < d.val.toNat := h
  have hlast : d.val.toNat < 0x110000 := by
    rcases d.valid with hlow | ⟨_, hhigh⟩
    · exact Nat.lt_trans hlow (by decide)
    · exact hhigh
  unfold String.utf8EncodeChar
  dsimp only
  -- the lengths of the two characters; a longer one begins with a greater byte
  split_ifs <;> simp only [List.cons_append, List.nil_append, List.cons_lt_cons_iff, UInt8.lt_iff_toNat_lt,
    ← UInt8.toNat_inj, UInt8.toNat_ofNat'] <;>
  simp (disch := omega) only [Nat.mod_eq_of_lt] <;> omega

theorem toList_toUTF8 (s : String) : s.toUTF8.data.toList = s.toList.flatMap String.utf8EncodeChar := by
  have hbytes : s.toUTF8 = s.toList.utf8Encode := String.utf8Encode_toList.symm
  rw [hbytes, List.utf8Encode]
  simp

theorem flatMap_utf8EncodeChar_lt_iff :
    cs.flatMap String.utf8EncodeChar < ds.flatMap String.utf8EncodeChar ↔ cs < ds := by
  have hmono : ∀ cs ds : List Char, cs < ds →
      cs.flatMap String.utf8EncodeChar < ds.flatMap String.utf8EncodeChar := by
    intro cs ds h
    induction h with
    | @nil d ds =>
      rw [List.flatMap_nil, List.flatMap_cons]
      obtain ⟨b, bs, hb⟩ := List.exists_cons_of_ne_nil (String.utf8EncodeChar_ne_nil (c := d))
      rw [hb]
      exact List.nil_lt_cons _ _
    | rel h => exact utf8EncodeChar_lt h _ _
    | cons _ ih => exact List.append_left_lt ih
  constructor
  · intro h
    by_contra hle
    rcases List.le_iff_lt_or_eq.mp (List.not_lt.mp hle) with hgt | heq
    · exact List.lt_asymm h (hmono ds cs hgt)
    · rw [heq] at h
      exact List.lt_irrefl _ h
  · exact hmono cs ds

theorem compare_eq_lt_iff : compare cs ds = .lt ↔ cs < ds := by
  induction cs generalizing ds with
  | nil => cases ds <;> simp [List.compare_nil_cons]
  | cons c cs ih =>
    cases ds with
    | nil => simp
    | cons d ds =>
      rw [List.compare_cons_cons, Ordering.then_eq_lt, ih, List.cons_lt_cons_iff, Std.LawfulEqOrd.compare_eq_iff_eq]
      have hchar : compare c d = .lt ↔ c < d := compareOfLessAndEq_eq_lt
      rw [hchar]

variable {ι κ : Type} [LE ι] [LT ι] [Std.IsLinearOrder ι] [Std.LawfulOrderLT ι]
  {r : κ → κ → Prop} {key : ι → κ} {indices : Set ι} {listing : List κ}

theorem exists_head_of_antitone (hasymm : ∀ p q, r p q → ¬r q p)
    (hkey : ∀ i ∈ indices, ∀ j ∈ indices, i < j → r (key j) (key i)) (hne : indices.Nonempty)
    (hsorted : listing.Pairwise r) (hmem : ∀ k, k ∈ listing ↔ ∃ i ∈ indices, k = key i) :
    ∃ newest ∈ indices, (∀ i ∈ indices, i ≤ newest) ∧ listing.head? = some (key newest) := by
  cases listing with
  | nil =>
    obtain ⟨i, hi⟩ := hne
    cases (hmem (key i)).mpr ⟨i, hi, rfl⟩
  | cons p rest =>
    obtain ⟨newest, hnewest, rfl⟩ := (hmem p).mp List.mem_cons_self
    refine ⟨newest, hnewest, ?_, rfl⟩
    intro i hi
    rw [← Std.not_lt]
    intro hlt
    have hbefore := hkey newest hnewest i hi hlt
    rcases List.mem_cons.mp ((hmem (key i)).mpr ⟨i, hi, rfl⟩) with heq | hrest
    · rw [heq] at hbefore
      exact hasymm _ _ hbefore hbefore
    · exact hasymm _ _ hbefore ((List.pairwise_cons.mp hsorted).1 _ hrest)

end S2c.KeyOrder
