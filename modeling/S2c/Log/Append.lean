import S2c.Backoff
import S2c.Loop
import S2c.Paths
import S2c.WriteOnce

namespace S2c

open Wire Loop

/-- Every log is built by `new`, so its keys are those of its group. -/
structure S2cLog where
  encoding : PathEncoding
  groupId : String
  s2cOptions : S2cOptions

namespace S2cLog

variable (log : S2cLog) (index : UInt64) (payload : Bytes)

def keyResolver : KeysResolver := KeysResolver.new log.groupId

def entryPath : Path := log.encoding.path (log.keyResolver.logEntry (KeysResolver.invert index))

def appendTurn (c : BackoffCounter) : Except Error Unit → Turn BackoffCounter (Except Error Unit)
  | .ok re => .leave (.ok re)
  | .error .alreadyExists => .leave (.error .alreadyExists)
  | .error (.generic store source) =>
    if isTransient (.generic store source) then
      if c.canAttempt then .again c.awaitAttempt else .leave (.error (.generic store source))
    -- not transient: the loop puts again at once, without touching the counter
    else .again c
  | .error e => .leave (.error e)

def appendBody (s : ObjectStore × BackoffCounter) (fate : Fate) :
    Turn (ObjectStore × BackoffCounter) (ObjectStore × Except Error Unit) :=
  let (store, answer) := s.1.putOpts (log.entryPath index) payload fate
  match appendTurn s.2 answer with
  | .again c => .again (store, c)
  | .leave re => .leave (store, re)

def append (store : ObjectStore) (fates : List Fate) :
    Turn (ObjectStore × BackoffCounter) (ObjectStore × Except Error Unit) :=
  feed (log.appendBody index payload) (store, BackoffCounter.new log.s2cOptions.retry) fates

theorem appendBody_served (store : ObjectStore) (c : BackoffCounter) :
    log.appendBody index payload (store, c) .served =
      .leave (store.insertIfNew (log.entryPath index) payload,
        if log.entryPath index ∈ store then .error .alreadyExists else .ok ()) := by
  simp only [appendBody, ObjectStore.putOpts]
  split_ifs <;> rfl

theorem appendTurn_leave {c : BackoffCounter} {answer re : Except Error Unit}
    (h : appendTurn c answer = .leave re) : answer = re := by
  unfold appendTurn at h
  split at h
  · cases h
    rfl
  · cases h
    rfl
  · split_ifs at h
    cases h
    rfl
  · cases h
    rfl

def entries (store : ObjectStore) : UInt64 → Option Bytes := fun i => store[log.entryPath i]?

theorem entryPath_eq : log.entryPath index = log.encoding.logRoot log.groupId ++
    '/' :: Decimal.numeral (KeysResolver.invert index).toNat := by
  rw [entryPath, keyResolver, PathEncoding.path_logEntry]

theorem entryPath_injective : Function.Injective log.entryPath := by
  intro i j h
  rw [entryPath_eq, entryPath_eq] at h
  have hnum := List.cons.inj (List.append_cancel_left h)
  have hinv := UInt64.toNat_inj.mp (Decimal.numeral_injective hnum.2)
  rw [← KeysResolver.invert_invert i, hinv, KeysResolver.invert_invert]

theorem mem_iff_entries (store : ObjectStore) :
    log.entryPath index ∈ store ↔ log.entries store index ≠ none := by
  rw [Std.ExtTreeMap.mem_iff_isSome_getElem?, entries]
  cases store[log.entryPath index]? <;> simp

theorem entries_insertIfNew (store : ObjectStore) :
    log.entries (store.insertIfNew (log.entryPath index) payload) =
      WriteOnce.create (log.entries store) index payload := by
  funext j
  by_cases hj : j = index
  · subst hj
    have hmem := mem_iff_entries log j store
    cases hentry : log.entries store j with
    | none =>
      rw [WriteOnce.create_free payload hentry, entries, Std.ExtTreeMap.getElem?_insertIfNew, if_pos]
      exact ⟨Std.ReflOrd.compare_self, fun h => hmem.mp h hentry⟩
    | some b =>
      rw [WriteOnce.create_taken payload hentry, entries, Std.ExtTreeMap.getElem?_insertIfNew, if_neg]
      · rfl
      · exact fun h => h.2 (hmem.mpr (by simp [hentry]))
  · have hpath : compare (log.entryPath index) (log.entryPath j) ≠ .eq := by
      intro h
      exact hj (log.entryPath_injective (Std.LawfulEqOrd.eq_of_compare h)).symm
    rw [WriteOnce.create_ne payload hj, entries, Std.ExtTreeMap.getElem?_insertIfNew, if_neg]
    · rfl
    · exact fun h => hpath h.1

theorem extends_putOpts (store : ObjectStore) (p : Path) (fate : Fate) :
    WriteOnce.Extends (log.entries store) (log.entries (store.putOpts p payload fate).1) :=
  fun _ _ h => ObjectStore.getElem?_putOpts h p payload fate

theorem entries_putOpts (store : ObjectStore) (fate : Fate) :
    log.entries (store.putOpts (log.entryPath index) payload fate).1 = log.entries store ∨
    log.entries (store.putOpts (log.entryPath index) payload fate).1 =
      WriteOnce.create (log.entries store) index payload := by
  cases fate with
  | refused e => exact Or.inl rfl
  | served => exact Or.inr (entries_insertIfNew log index payload store)
  | lostReply s source => exact Or.inr (entries_insertIfNew log index payload store)

theorem putOpts_ok {store store' : ObjectStore} {fate : Fate}
    (h : store.putOpts (log.entryPath index) payload fate = (store', .ok ())) :
    log.entries store index = none ∧
      log.entries store' = WriteOnce.create (log.entries store) index payload := by
  cases fate with
  | served =>
    simp only [ObjectStore.putOpts, Prod.mk.injEq] at h
    obtain ⟨rfl, hanswer⟩ := h
    refine ⟨?_, entries_insertIfNew log index payload store⟩
    by_contra htaken
    rw [if_pos ((mem_iff_entries log index store).mpr htaken)] at hanswer
    cases hanswer
  | refused e => simp [ObjectStore.putOpts] at h
  | lostReply s source => simp [ObjectStore.putOpts] at h

theorem putOpts_alreadyExists {store store' : ObjectStore} {fate : Fate}
    (h : store.putOpts (log.entryPath index) payload fate = (store', .error .alreadyExists)) :
    log.entries store' index ≠ none := by
  cases fate with
  | served =>
    simp only [ObjectStore.putOpts, Prod.mk.injEq] at h
    obtain ⟨rfl, _⟩ := h
    rw [entries_insertIfNew]
    simp [WriteOnce.create]
  | refused e =>
    simp only [ObjectStore.putOpts, Prod.mk.injEq, Except.error.injEq] at h
    exact absurd h.2 e.property
  | lostReply s source => simp [ObjectStore.putOpts] at h

end S2cLog

end S2c
