import S2c.Log.Append

namespace S2c

open Wire Loop

def lastOrderedIndex : UInt64 := 8446744073709551615

def headLoop (c : BackoffCounter) : List (Except Error Path) → Option (Except Error (Option UInt64))
  | [] => some (.ok none)
  | .error e :: stream =>
    if isTransient e then
      if c.canAttempt then headLoop c.awaitAttempt stream else headLoop c stream
    else some (.error e)
  | .ok location :: _ =>
    match filename location with
    | none => some (.ok none)
    -- the number in the key is returned as it stands, not inverted back
    | some name => (parseU64 name).map (fun index => .ok (some index))

def getAtTurn (c : BackoffCounter) : Except Error (Except Error Bytes) → Turn BackoffCounter (Except Error Bytes)
  | .ok (.ok bytes) => .leave (.ok bytes)
  | .ok (.error e) =>
    if isTransient e ∧ c.reset.canAttempt then .again c.reset.awaitAttempt else .leave (.error e)
  | .error e => if isTransient e ∧ c.canAttempt then .again c.awaitAttempt else .leave (.error e)

namespace S2cLog

theorem filename_numeral (directory : Path) (n : ℕ) :
    filename (directory ++ '/' :: Decimal.numeral n) = some (Decimal.numeral n) := by
  have hdigits := Decimal.allDigits_numeral n
  rw [filename, if_neg (by simp), List.reverse_append, List.reverse_cons, List.append_assoc,
    List.takeWhile_append_of_pos]
  · simp
  · intro c hc
    have hdigit := hdigits c (List.mem_reverse.mp hc)
    simp only [ne_eq, decide_eq_true_eq]
    rintro rfl
    simp at hdigit

theorem compare_inverted (directory : Path) {i j : UInt64} (h : i < j) (hj : j ≤ lastOrderedIndex) :
    compare (directory ++ '/' :: Decimal.numeral (KeysResolver.invert j).toNat)
      (directory ++ '/' :: Decimal.numeral (KeysResolver.invert i).toNat) = .lt := by
  have hlt := UInt64.lt_iff_toNat_lt.mp h
  have hle := UInt64.le_iff_toNat_le.mp hj
  have hlast : lastOrderedIndex.toNat = 8446744073709551615 := rfl
  have hi := i.toNat_lt
  rw [Decimal.compare_append, List.compare_cons_cons, Std.ReflOrd.compare_self,
    KeysResolver.invert_toNat, KeysResolver.invert_toNat]
  apply Decimal.compare_numeral (k := 19) <;> omega

variable (log : S2cLog) (store : ObjectStore) (index : UInt64)

def getHead (stream : List (Except Error Path)) : Option (Except Error (Option UInt64)) :=
  headLoop (BackoffCounter.new log.s2cOptions.retry) stream

def getAt (answers : List (Except Error (Except Error Bytes))) : Turn BackoffCounter (Except Error Bytes) :=
  feed getAtTurn (BackoffCounter.new log.s2cOptions.retry) answers

def listing : List (Except Error Path) := (store.list (log.encoding.path log.keyResolver.logPrefix)).map .ok

def reading : Except Error (Except Error Bytes) := (store.get (log.entryPath index)).map .ok

theorem getAt_reading : log.getAt [log.reading store index] = .leave (store.get (log.entryPath index)) := by
  unfold getAt reading
  apply feed_leave
  cases hget : store.get (log.entryPath index) with
  | ok bytes => rfl
  | error e =>
    have he : e = .notFound := by
      unfold ObjectStore.get at hget
      split at hget
      · cases hget
      · exact (Except.error.inj hget).symm
    subst he
    rfl

theorem filename_entryPath : filename (log.entryPath index) =
    some (Decimal.numeral (KeysResolver.invert index).toNat) := by
  rw [entryPath_eq, filename_numeral]

theorem prefixMatch_entryPath :
    prefixMatch (log.encoding.path log.keyResolver.logPrefix) (log.entryPath index) = true := by
  rw [keyResolver, PathEncoding.path_logPrefix, entryPath_eq, prefixMatch]
  split_ifs
  · rfl
  · rw [List.isPrefixOf_iff_prefix]
    exact ⟨Decimal.numeral (KeysResolver.invert index).toNat, by simp⟩

theorem compare_entryPath {i j : UInt64} (h : i < j) (hj : j ≤ lastOrderedIndex) :
    compare (log.entryPath j) (log.entryPath i) = .lt := by
  rw [entryPath_eq, entryPath_eq]
  exact compare_inverted _ h hj

end S2cLog

end S2c
