import S2c.Decimal
import S2c.ObjectStore

namespace S2c

def u64Max : UInt64 := 18446744073709551615

structure KeysResolver where
  groupPrefix : String
  logPrefix : String
  snapshot : String
  deriving DecidableEq

namespace KeysResolver

def new (groupId : String) : KeysResolver :=
  let groupPrefix := "s2c/" ++ groupId ++ "/"
  let snapshot := groupPrefix ++ "snapshot.pb"
  let logPrefix := groupPrefix ++ "log/"
  { groupPrefix, logPrefix, snapshot }

def logEntry (k : KeysResolver) (index : UInt64) : String := k.logPrefix ++ index.toNat.repr

def invert (index : UInt64) : UInt64 := u64Max - index

theorem invert_toNat (index : UInt64) : (invert index).toNat = 2 ^ 64 - 1 - index.toNat := by
  have hle : index ≤ u64Max := UInt64.le_iff_toNat_le.mpr (by have := index.toNat_lt; simp [u64Max]; omega)
  rw [invert, UInt64.toNat_sub_of_le _ _ hle]
  rfl

theorem invert_invert (index : UInt64) : invert (invert index) = index := by
  have := index.toNat_lt
  apply UInt64.toNat_inj.mp
  rw [invert_toNat, invert_toNat]
  omega

theorem invert_ne_self (index : UInt64) : invert index ≠ index := by
  intro h
  have hnat := congrArg UInt64.toNat h
  rw [invert_toNat] at hnat
  have := index.toNat_lt
  omega

end KeysResolver

def parseU64 (s : List Char) : Option UInt64 :=
  let ds := if s.length ≠ 1 ∧ s.head? = some '+' then s.tail else s
  if ds ≠ [] ∧ ds.all Char.isDigit = true ∧ Decimal.value ds < 2 ^ 64 then
    some (UInt64.ofNat (Decimal.value ds))
  else none

theorem parseU64_numeral (v : UInt64) : parseU64 (Decimal.numeral v.toNat) = some v := by
  have hdigits := Decimal.allDigits_numeral v.toNat
  have hplus : (Decimal.numeral v.toNat).head? ≠ some '+' := by
    intro h
    have hmem := hdigits '+' (List.mem_of_head? h)
    simp at hmem
  have hall : (Decimal.numeral v.toNat).all Char.isDigit = true := List.all_eq_true.mpr hdigits
  simp only [parseU64, hplus, and_false, ↓reduceIte]
  rw [if_pos ⟨Decimal.numeral_ne_nil _, hall, by simpa using v.toNat_lt⟩]
  simp

theorem intercalate_append {xs ys : List (List Char)} (hxs : xs ≠ []) (hys : ys ≠ []) :
    ['/'].intercalate (xs ++ ys) = ['/'].intercalate xs ++ '/' :: ['/'].intercalate ys := by
  induction xs with
  | nil => exact absurd rfl hxs
  | cons x xs ih =>
    cases xs with
    | nil => rw [List.singleton_append, List.intercalate_cons_of_ne_nil hys, List.intercalate_singleton,
        List.append_assoc, List.singleton_append]
    | cons z zs =>
      have hrest := ih (by simp)
      rw [List.cons_append] at hrest
      rw [List.cons_append, List.cons_append, List.intercalate_cons_cons, List.intercalate_cons_cons, hrest]
      simp only [List.append_assoc]

theorem intercalate_concat {xs : List (List Char)} (hxs : xs ≠ []) (d : List Char) :
    ['/'].intercalate (xs ++ [d]) = ['/'].intercalate xs ++ '/' :: d := by
  rw [intercalate_append hxs (by simp), List.intercalate_singleton]

namespace PathEncoding

variable (enc : PathEncoding) (groupId : String)

def logDirectory : List (List Char) :=
  (("s2c/" ++ groupId ++ "/log").toList.splitOn '/').filter (fun part => part ≠ [])

def logRoot : Path := ['/'].intercalate ((logDirectory groupId).map enc.encode)

theorem logDirectory_ne_nil : logDirectory groupId ≠ [] := by
  have hhead : ("s2c/" ++ groupId ++ "/log").toList.splitOn '/' =
      ['s', '2', 'c'] :: (groupId ++ "/log").toList.splitOn '/' := by
    rw [String.append_assoc, String.toList_append]
    have hslash : '/' ∉ ['s', '2', 'c'] := by decide
    exact List.splitOn_append_cons_self_of_not_mem hslash _
  rw [logDirectory, hhead]
  simp

theorem intercalate_logEntry (d : List Char) :
    ['/'].intercalate ((logDirectory groupId).map enc.encode ++ [d]) = enc.logRoot groupId ++ '/' :: d := by
  apply intercalate_concat
  rw [ne_eq, List.map_eq_nil_iff]
  exact logDirectory_ne_nil groupId

theorem filter_splitOn_concat (xs d : List Char) (hd : '/' ∉ d) :
    ((xs ++ '/' :: d).splitOn '/').filter (fun part => part ≠ []) =
      (xs.splitOn '/').filter (fun part => part ≠ []) ++ [d].filter (fun part => part ≠ []) := by
  rw [List.splitOn_append_cons_self, List.splitOn_eq_singleton hd, List.filter_append]

theorem logPrefix_toList (d : List Char) : (KeysResolver.new groupId).logPrefix.toList ++ d =
    ("s2c/" ++ groupId ++ "/log").toList ++ '/' :: d := by
  simp [KeysResolver.new]

theorem path_logPrefix : enc.path (KeysResolver.new groupId).logPrefix = enc.logRoot groupId := by
  have hsplit := logPrefix_toList groupId []
  rw [List.append_nil] at hsplit
  rw [path, hsplit, filter_splitOn_concat _ _ (by simp)]
  simp [logRoot, logDirectory]

theorem path_logEntry (i : UInt64) : enc.path ((KeysResolver.new groupId).logEntry i) =
    enc.logRoot groupId ++ '/' :: Decimal.numeral i.toNat := by
  have hdigits := Decimal.allDigits_numeral i.toNat
  have hslash : '/' ∉ Decimal.numeral i.toNat := by
    intro h
    have := hdigits '/' h
    simp at this
  have hrepr : i.toNat.repr.toList = Decimal.numeral i.toNat := Nat.toList_repr
  rw [path, KeysResolver.logEntry, String.toList_append, hrepr, logPrefix_toList,
    filter_splitOn_concat _ _ hslash]
  have hkeep : [Decimal.numeral i.toNat].filter (fun part => part ≠ []) = [Decimal.numeral i.toNat] := by
    simp
  rw [hkeep, List.map_append, List.map_singleton, enc.digits _ hdigits]
  exact enc.intercalate_logEntry groupId _

theorem logDirectory_eq : logDirectory groupId =
    (("s2c/" ++ groupId).toList.splitOn '/').filter (fun part => part ≠ []) ++ [['l', 'o', 'g']] := by
  have hsplit := filter_splitOn_concat ("s2c/" ++ groupId).toList ['l', 'o', 'g'] (by decide)
  rw [logDirectory, String.toList_append]
  exact hsplit

theorem ne_nil_of_mem_logDirectory {part : List Char} (h : part ∈ logDirectory groupId) : part ≠ [] := by
  simpa using (List.mem_filter.mp h).2

theorem splitOn_logRoot : (enc.logRoot groupId).splitOn '/' = (logDirectory groupId).map enc.encode := by
  apply List.splitOn_intercalate
  · intro part hpart
    obtain ⟨raw, _, rfl⟩ := List.mem_map.mp hpart
    exact enc.noSlash raw
  · rw [ne_eq, List.map_eq_nil_iff]
    exact logDirectory_ne_nil groupId

theorem logRoot_ne_nil : enc.logRoot groupId ≠ [] := by
  intro h
  have hsplit := enc.splitOn_logRoot groupId
  rw [h, List.splitOn_nil] at hsplit
  have hmem : [] ∈ (logDirectory groupId).map enc.encode := by simp [← hsplit]
  obtain ⟨part, hpart, hempty⟩ := List.mem_map.mp hmem
  exact enc.nonempty part (ne_nil_of_mem_logDirectory groupId hpart) hempty

theorem prefixMatch_logRoot_iff (a b : String) {d : List Char} (hd : ∀ c ∈ d, c.isDigit = true) :
    prefixMatch (enc.logRoot a) (enc.logRoot b ++ '/' :: d) = true ↔ logDirectory a <+: logDirectory b := by
  have hslash : '/' ∉ d := by
    intro h
    have := hd '/' h
    simp at this
  rw [prefixMatch, if_neg (enc.logRoot_ne_nil a), List.isPrefixOf_iff_prefix]
  constructor
  · rintro ⟨rest, hrest⟩
    rw [List.append_assoc, List.singleton_append] at hrest
    have hsplit := congrArg (List.splitOn '/') hrest
    rw [List.splitOn_append_cons_self, List.splitOn_append_cons_self, List.splitOn_eq_singleton hslash,
      splitOn_logRoot, splitOn_logRoot] at hsplit
    have hprefix : (logDirectory a).map enc.encode <+: (logDirectory b).map enc.encode ++ [d] := ⟨_, hsplit⟩
    rcases List.prefix_concat_iff.mp hprefix with hall | hprefix
    · -- a directory ends in `log`, a key in digits
      have hdigits : enc.encode d = d := enc.digits d hd
      rw [logDirectory_eq a, List.map_append, List.map_singleton] at hall
      have hlast := List.append_inj_right' hall rfl
      rw [← hdigits, List.cons.injEq, enc.injective.eq_iff] at hlast
      have hlog := hd 'l' (by rw [← hlast.1]; decide)
      simp at hlog
    · exact (List.prefix_map_iff_of_injective enc.injective).mp hprefix
  · rintro ⟨rest, hrest⟩
    have hkey : enc.logRoot b ++ '/' :: d =
        ['/'].intercalate ((logDirectory a).map enc.encode ++ (rest.map enc.encode ++ [d])) := by
      rw [← enc.intercalate_logEntry b, ← hrest, List.map_append, List.append_assoc]
    rw [hkey, intercalate_append (by simp [logDirectory_ne_nil]) (by simp)]
    exact ⟨_, by rw [List.append_assoc, List.singleton_append]; rfl⟩

end PathEncoding

end S2c
