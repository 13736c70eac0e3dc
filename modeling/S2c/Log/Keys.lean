import S2c.KeyOrder
import S2c.Log.Head
import S2c.Wire.Message

namespace S2c

open Wire

namespace KeysResolver

def entryKey (groupId : String) (index : UInt64) : String := (new groupId).logEntry (invert index)

/-- Later indices have smaller keys, each key tells its index, and so a listing begins with the greatest. -/
structure NewestFirst (groupId : String) : Prop where
  ordered : ∀ i j, i < j → j ≤ lastOrderedIndex → utf8 (entryKey groupId j) < utf8 (entryKey groupId i)
  parsed : ∀ i, ((filename (entryKey groupId i).toList).bind parseU64).map invert = some i
  first : ∀ (indices : Set UInt64) (listing : List String), indices.Nonempty →
    (∀ i ∈ indices, i ≤ lastOrderedIndex) → listing.Pairwise (fun p q => utf8 p < utf8 q) →
    (∀ key, key ∈ listing ↔ ∃ i ∈ indices, key = entryKey groupId i) →
      ∃ newest ∈ indices, (∀ i ∈ indices, i ≤ newest) ∧ listing.head? = some (entryKey groupId newest)

theorem utf8_lt_iff {s t : String} : utf8 s < utf8 t ↔ compare s.toList t.toList = .lt := by
  rw [utf8, utf8, KeyOrder.toList_toUTF8, KeyOrder.toList_toUTF8, KeyOrder.flatMap_utf8EncodeChar_lt_iff,
    KeyOrder.compare_eq_lt_iff]

theorem toList_entryKey (groupId : String) (index : UInt64) : (entryKey groupId index).toList =
    ("s2c/" ++ groupId ++ "/log").toList ++ '/' :: Decimal.numeral (invert index).toNat := by
  have hrepr : (invert index).toNat.repr.toList = Decimal.numeral (invert index).toNat := Nat.toList_repr
  rw [entryKey, logEntry, String.toList_append, hrepr, PathEncoding.logPrefix_toList]

theorem entryKey_lt {i j : UInt64} (groupId : String) (h : i < j) (hj : j ≤ lastOrderedIndex) :
    utf8 (entryKey groupId j) < utf8 (entryKey groupId i) := by
  rw [utf8_lt_iff, toList_entryKey, toList_entryKey]
  exact S2cLog.compare_inverted _ h hj

theorem newestFirst_entryKey (groupId : String) : NewestFirst groupId := by
  constructor
  · intro i j
    exact entryKey_lt groupId
  · intro i
    rw [toList_entryKey, S2cLog.filename_numeral, Option.bind_some, parseU64_numeral, Option.map_some, invert_invert]
  · intro indices listing hne hbound hsorted hmem
    apply KeyOrder.exists_head_of_antitone _ _ hne hsorted hmem
    · intro p q
      exact List.lt_asymm
    · intro i _ j hj h
      exact entryKey_lt groupId h (hbound j hj)

example : entryKey "g" 1 = "s2c/g/log/18446744073709551614" := by decide

end KeysResolver

end S2c
