import S2c.Fsm.Leadership
import S2c.Fsm.Listing

namespace S2c

open Wire Loop

namespace S2cLog

variable (log : S2cLog) (index : UInt64) (payload : Bytes)

def appendAmid (s : ObjectStore × BackoffCounter) (turn : List Put × Fate) :
    Turn (ObjectStore × BackoffCounter) (ObjectStore × Except Error Unit) :=
  log.appendBody index payload (s.1.puts turn.1, s.2) turn.2

def getAtAmid (s : ObjectStore × BackoffCounter) (turn : List Put × ReadFate) :
    Turn (ObjectStore × BackoffCounter) (ObjectStore × Except Error Bytes) :=
  let store := s.1.puts turn.1
  match getAtTurn s.2 (store.answer (log.entryPath index) turn.2) with
  | .again c => .again (store, c)
  | .leave re => .leave (store, re)

/-- What the entry at `index` is to every client of the log, whatever options it has. -/
structure Kept (store : ObjectStore) : Prop where
  read : ∀ options c reads store' re,
    feed (getAtAmid { log with s2cOptions := options } index) (store, c) reads = .leave (store', re) →
      re = .ok payload ∨ ∃ read ∈ reads, ∃ e, read.2.error = some e ∧ re = .error e
  append : ∀ options c payload' turns store' re,
    feed (appendAmid { log with s2cOptions := options } index payload') (store, c) turns = .leave (store', re) →
      re ≠ .ok ()
  getHead : ∀ options (faults : List Error), getHead { log with s2cOptions := options }
    (faults.map .error ++ listing { log with s2cOptions := options } store) ≠ some (.ok none)

variable {log index payload} {store store' : ObjectStore} {c : BackoffCounter}

theorem getAtTurn_leave {answer : Except Error (Except Error Bytes)} {re : Except Error Bytes}
    (h : getAtTurn c answer = .leave re) : answer = .ok re ∨ ∃ e, answer = .error e ∧ re = .error e := by
  unfold getAtTurn at h
  split at h
  · cases h
    exact Or.inl rfl
  · split_ifs at h
    cases h
    exact Or.inl rfl
  · split_ifs at h
    cases h
    exact Or.inr ⟨_, rfl, rfl⟩

theorem answer_of_entry (hentry : log.entries store index = some payload) (fate : ReadFate) :
    store.answer (log.entryPath index) fate = .ok (.ok payload) ∨ ∃ e, fate.error = some e ∧
      (store.answer (log.entryPath index) fate = .error e ∨
        store.answer (log.entryPath index) fate = .ok (.error e)) := by
  have hget : store.get (log.entryPath index) = .ok payload := by
    rw [ObjectStore.get, show store[log.entryPath index]? = some payload from hentry]
  cases fate with
  | served => exact Or.inl (by simp [ObjectStore.answer, hget, Except.map])
  | refused e => exact Or.inr ⟨e, rfl, Or.inl rfl⟩
  | cut e => exact Or.inr ⟨e, rfl, Or.inr (by simp [ObjectStore.answer, hget, Except.map])⟩

theorem entries_puts (hentry : log.entries store index = some payload) (ps : List Put) :
    log.entries (store.puts ps) index = some payload := ObjectStore.getElem?_puts hentry ps

theorem getAtAmid_again {s t : ObjectStore × BackoffCounter} {turn : List Put × ReadFate}
    (hentry : log.entries s.1 index = some payload) (h : log.getAtAmid index s turn = .again t) :
    log.entries t.1 index = some payload := by
  simp only [getAtAmid] at h
  split at h
  · cases h
    exact entries_puts hentry turn.1
  · cases h

theorem appendAmid_again {s t : ObjectStore × BackoffCounter} {turn : List Put × Fate} {payload' : Bytes}
    (hentry : log.entries s.1 index = some payload) (h : log.appendAmid index payload' s turn = .again t) :
    log.entries t.1 index = some payload := by
  simp only [appendAmid, appendBody] at h
  split at h
  · cases h
    exact ObjectStore.getElem?_putOpts (entries_puts hentry turn.1) _ _ _
  · cases h

theorem appendAmid_ok {s : ObjectStore × BackoffCounter} {turn : List Put × Fate}
    (h : log.appendAmid index payload s turn = .leave (store', .ok ())) :
    log.entries (s.1.puts turn.1) index = none ∧ log.entries store' index = some payload := by
  simp only [appendAmid, appendBody] at h
  split at h
  · cases h
  · rename_i re hturn
    cases h
    have hok := appendTurn_leave hturn
    obtain ⟨hfree, hcreate⟩ := log.putOpts_ok index payload (Prod.ext rfl hok)
    refine ⟨hfree, ?_⟩
    rw [hcreate]
    exact WriteOnce.create_free payload hfree

theorem read_of_entry (hentry : log.entries store index = some payload) {reads : List (List Put × ReadFate)}
    {re : Except Error Bytes} (h : feed (log.getAtAmid index) (store, c) reads = .leave (store', re)) :
    re = .ok payload ∨ ∃ read ∈ reads, ∃ e, read.2.error = some e ∧ re = .error e := by
  obtain ⟨t, read, hread, ht, hleave⟩ := exists_of_feed_leave
    (I := fun s => log.entries s.1 index = some payload) (fun _ _ _ => getAtAmid_again) hentry h
  simp only [getAtAmid] at hleave
  split at hleave
  · cases hleave
  · rename_i re' hturn
    cases hleave
    have hanswer := answer_of_entry (entries_puts ht read.1) read.2
    rcases getAtTurn_leave hturn with hre | ⟨e, hre, rfl⟩ <;> rw [hre] at hanswer
    · rcases hanswer with hok | ⟨e, he, herror | hcut⟩
      · exact Or.inl (Except.ok.inj hok)
      · cases herror
      · exact Or.inr ⟨read, hread, e, he, Except.ok.inj hcut⟩
    · rcases hanswer with hok | ⟨e', he, herror | hcut⟩
      · cases hok
      · cases herror
        exact Or.inr ⟨read, hread, e, he, rfl⟩
      · cases hcut

theorem append_of_entry (hentry : log.entries store index = some payload) {payload' : Bytes}
    {turns : List (List Put × Fate)} {re : Except Error Unit}
    (h : feed (log.appendAmid index payload') (store, c) turns = .leave (store', re)) : re ≠ .ok () := by
  rintro rfl
  obtain ⟨t, turn, _, ht, hleave⟩ := exists_of_feed_leave
    (I := fun s => log.entries s.1 index = some payload) (fun _ _ _ => appendAmid_again) hentry h
  obtain ⟨hfree, _⟩ := appendAmid_ok hleave
  cases hfree.symm.trans (entries_puts ht turn.1)

theorem headLoop_faults {listing : List (Except Error Path)} (h : ∀ c, headLoop c listing ≠ some (.ok none))
    (faults : List Error) (c : BackoffCounter) : headLoop c (faults.map .error ++ listing) ≠ some (.ok none) := by
  induction faults generalizing c with
  | nil => exact h c
  | cons e faults ih =>
    rw [List.map_cons, List.cons_append, headLoop]
    split_ifs
    · exact ih c.awaitAttempt
    · exact ih c
    · simp

theorem listing_ne_nil (hentry : log.entries store index = some payload) : log.listing store ≠ [] := by
  have hmem : log.entryPath index ∈ store := (log.mem_iff_entries index store).mpr (by simp [hentry])
  have hlisted : .ok (log.entryPath index) ∈ log.listing store := by
    apply List.mem_map_of_mem
    exact List.mem_filter.mpr ⟨Std.ExtTreeMap.mem_keys.mpr hmem, log.prefixMatch_entryPath index⟩
  exact List.ne_nil_of_mem hlisted

theorem headLoop_listing (hentry : log.entries store index = some payload) (c : BackoffCounter) :
    headLoop c (log.listing store) ≠ some (.ok none) := by
  obtain ⟨item, rest, hlisting⟩ := List.exists_cons_of_ne_nil (listing_ne_nil hentry)
  have hitem : item ∈ log.listing store := by
    rw [hlisting]
    exact List.mem_cons_self
  obtain ⟨location, hlocation, rfl⟩ := List.mem_map.mp hitem
  have hprefix := (List.mem_filter.mp hlocation).2
  have hne : location ≠ [] := by
    rintro rfl
    rw [keyResolver, PathEncoding.path_logPrefix, prefixMatch, if_neg (log.encoding.logRoot_ne_nil _)] at hprefix
    simp at hprefix
  rw [hlisting]
  exact headLoop_entry_ne hne c

theorem kept_of_entry (hentry : log.entries store index = some payload) : log.Kept index payload store := by
  have hoptions : ∀ options, entries { log with s2cOptions := options } store index = some payload := fun _ => hentry
  constructor
  · intro options c reads store' re
    exact read_of_entry (hoptions options)
  · intro options c payload' turns store' re
    exact append_of_entry (hoptions options)
  · intro options faults
    exact headLoop_faults (headLoop_listing (hoptions options)) faults _

/-- What `append` has acknowledged stays: it is read back, never put a second time, and never
taken for an empty log, whatever anybody puts during the call and after it. -/
theorem kept_of_append {turns : List (List Put × Fate)}
    (h : feed (log.appendAmid index payload) (store, BackoffCounter.new log.s2cOptions.retry) turns =
      .leave (store', .ok ())) (later : List Put) : log.Kept index payload (store'.puts later) := by
  obtain ⟨t, turn, _, _, hleave⟩ := exists_of_feed_leave (I := fun _ => True) (fun _ _ _ _ _ => trivial) trivial h
  exact kept_of_entry (entries_puts (appendAmid_ok hleave).2 later)

theorem kept_of_append_sample :
    sampleLog.Kept 1 sampleAttempt.payload (sampleStore.puts [⟨sampleLog.entryPath 1, [9], .served⟩]) := by
  have hfree : sampleLog.entryPath 1 ∉ (∅ : ObjectStore) := Std.ExtTreeMap.not_mem_empty
  have hserved := sampleLog.appendBody_served 1 sampleAttempt.payload ∅
    (BackoffCounter.new sampleLog.s2cOptions.retry)
  rw [if_neg hfree] at hserved
  have happend : feed (sampleLog.appendAmid 1 sampleAttempt.payload)
      (∅, BackoffCounter.new sampleLog.s2cOptions.retry) [([], .served)] = .leave (sampleStore, .ok ()) :=
    feed_leave hserved
  exact kept_of_append happend _

end S2cLog

end S2c
