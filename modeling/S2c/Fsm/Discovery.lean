import S2c.Fsm.Leadership
import S2c.KeyOrder
import S2c.Log.Head

namespace S2c

open Wire Loop

def parseLeaderState (bytes : Bytes) : Option LeaderState :=
  (LogEntry.message.decode bytes).bind LogEntry.leaderState

structure Look where
  head : Option (Except Error (Option UInt64))
  read : UInt64 → Except Error Bytes

def discoverTurn (c : BackoffCounter) (look : Look) :
    Turn BackoffCounter (Option (Except Error (Option LeaderState))) :=
  match look.head with
  | none => .leave none
  | some (.ok (some head)) =>
    match look.read head with
    | .ok bytes => .leave ((parseLeaderState bytes).map (fun leaderState => .ok (some leaderState)))
    | .error e => if isTransient e ∧ c.canAttempt then .again c.awaitAttempt else .leave (some (.error e))
  | some (.ok none) => .leave (some (.ok none))
  | some (.error e) =>
    if isTransient e ∧ c.canAttempt then .again c.awaitAttempt else .leave (some (.error e))

namespace S2cLog

variable (log : S2cLog)

def look (store : ObjectStore) : Look where
  head := log.getHead (log.listing store)
  read index := store.get (log.entryPath index)

def appendNext (store : ObjectStore) (write : UInt64 × Bytes) : Option ObjectStore :=
  match log.append write.1 write.2 store [.served] with
  | .leave (store, .ok _) => some store
  | _ => none

def appendAll (store : ObjectStore) (writes : List (UInt64 × Bytes)) : Option ObjectStore :=
  writes.foldlM log.appendNext store

variable {log} {store store' : ObjectStore} {write : UInt64 × Bytes} {writes : List (UInt64 × Bytes)}

theorem appendNext_some (h : log.appendNext store write = some store') :
    store' = store.insertIfNew (log.entryPath write.1) write.2 ∧ log.entries store write.1 = none := by
  unfold appendNext at h
  rw [append, feed_leave (appendBody_served log write.1 write.2 store _)] at h
  by_cases hmem : log.entryPath write.1 ∈ store
  · simp [hmem] at h
  · simp only [hmem, if_false, Option.some.injEq] at h
    rw [mem_iff_entries, not_not] at hmem
    exact ⟨h.symm, hmem⟩

theorem appendNext_free (hfree : log.entryPath write.1 ∉ store) :
    log.appendNext store write = some (store.insertIfNew (log.entryPath write.1) write.2) := by
  rw [appendNext, append, feed_leave (appendBody_served _ _ _ _ _), if_neg hfree]

theorem entries_appendNext (h : log.appendNext store write = some store') :
    log.entries store' = WriteOnce.create (log.entries store) write.1 write.2 := by
  rw [(appendNext_some h).1, entries_insertIfNew]

theorem extends_appendAll (h : log.appendAll store writes = some store') :
    WriteOnce.Extends (log.entries store) (log.entries store') := by
  induction writes generalizing store with
  | nil =>
    cases h
    exact WriteOnce.Extends.refl _
  | cons write writes ih =>
    obtain ⟨store₁, hnext, hrest⟩ := Option.bind_eq_some_iff.mp h
    apply WriteOnce.Extends.trans _ (ih hrest)
    rw [entries_appendNext hnext]
    exact WriteOnce.extends_create _ _ _

theorem entries_appendAll (h : log.appendAll store writes = some store') (hw : write ∈ writes) :
    log.entries store' write.1 = some write.2 := by
  induction writes generalizing store with
  | nil => cases hw
  | cons first writes ih =>
    obtain ⟨store₁, hnext, hrest⟩ := Option.bind_eq_some_iff.mp h
    rcases List.mem_cons.mp hw with rfl | hw
    · apply extends_appendAll hrest
      rw [entries_appendNext hnext]
      exact WriteOnce.create_free _ (appendNext_some hnext).2
    · exact ih hrest hw

theorem getAt_appendAll (h : log.appendAll store writes = some store') (hw : write ∈ writes) :
    log.getAt [log.reading store' write.1] = .leave (.ok write.2) := by
  have hentry : store'[log.entryPath write.1]? = some write.2 := entries_appendAll h hw
  rw [getAt_reading, ObjectStore.get, hentry]

theorem mem_appendAll (h : log.appendAll store writes = some store') (p : Path) :
    p ∈ store' ↔ p ∈ store ∨ ∃ write ∈ writes, p = log.entryPath write.1 := by
  induction writes generalizing store with
  | nil =>
    cases h
    simp
  | cons write writes ih =>
    obtain ⟨store₁, hnext, hrest⟩ := Option.bind_eq_some_iff.mp h
    rw [ih hrest, (appendNext_some hnext).1, Std.ExtTreeMap.mem_insertIfNew,
      Std.LawfulEqCmp.compare_eq_iff_eq, or_assoc, or_left_comm]
    simp only [List.mem_cons, exists_eq_or_imp, eq_comm (a := p)]

def Unlisted (log : S2cLog) (store : ObjectStore) : Prop :=
  store.list (log.encoding.path log.keyResolver.logPrefix) = []

theorem unlisted_empty (log : S2cLog) : log.Unlisted ∅ := by
  unfold Unlisted ObjectStore.list
  simp

theorem mem_list_appendAll (hempty : log.Unlisted store) (h : log.appendAll store writes = some store')
    (p : Path) : p ∈ store'.list (log.encoding.path log.keyResolver.logPrefix) ↔
      ∃ write ∈ writes, p = log.entryPath write.1 := by
  rw [ObjectStore.list, List.mem_filter, Std.ExtTreeMap.mem_keys, mem_appendAll h]
  constructor
  · rintro ⟨hmem | hmem, hprefix⟩
    · have hlisted : p ∈ store.list (log.encoding.path log.keyResolver.logPrefix) :=
        List.mem_filter.mpr ⟨Std.ExtTreeMap.mem_keys.mpr hmem, hprefix⟩
      rw [hempty] at hlisted
      cases hlisted
    · exact hmem
  · rintro ⟨write, hwrite, rfl⟩
    exact ⟨Or.inr ⟨write, hwrite, rfl⟩, log.prefixMatch_entryPath write.1⟩

def indices (writes : List (UInt64 × Bytes)) : Set UInt64 := { i | ∃ write ∈ writes, write.1 = i }

theorem getHead_appendAll (hempty : log.Unlisted store) (hne : writes ≠ [])
    (hbound : ∀ write ∈ writes, write.1 ≤ lastOrderedIndex)
    (h : log.appendAll store writes = some store') :
    ∃ newest ∈ writes, (∀ write ∈ writes, write.1 ≤ newest.1) ∧
      log.getHead (log.listing store') = some (.ok (some (KeysResolver.invert newest.1))) := by
  have hordered : (store'.list (log.encoding.path log.keyResolver.logPrefix)).Pairwise
      (fun p q => compare p q = .lt) := Std.ExtTreeMap.ordered_keys.filter _
  have hasymm : ∀ p q : Path, compare p q = .lt → ¬compare q p = .lt := by
    intro p q hlt hgt
    rw [Std.OrientedOrd.eq_swap, hgt] at hlt
    cases hlt
  have hkey : ∀ i ∈ indices writes, ∀ j ∈ indices writes, i < j →
      compare (log.entryPath j) (log.entryPath i) = .lt := by
    rintro i _ _ ⟨write, hwrite, rfl⟩ hlt
    exact log.compare_entryPath hlt (hbound write hwrite)
  have hsome : (indices writes).Nonempty := by
    obtain ⟨write, hwrite⟩ := List.exists_mem_of_ne_nil _ hne
    exact ⟨write.1, write, hwrite, rfl⟩
  have hmem : ∀ p, p ∈ store'.list (log.encoding.path log.keyResolver.logPrefix) ↔
      ∃ i ∈ indices writes, p = log.entryPath i := by
    intro p
    rw [mem_list_appendAll hempty h]
    simp [indices]
  obtain ⟨_, ⟨newest, hnewest, rfl⟩, hgreatest, hhead⟩ :=
    KeyOrder.exists_head_of_antitone hasymm hkey hsome hordered hmem
  refine ⟨newest, hnewest, fun write hwrite => hgreatest _ ⟨write, hwrite, rfl⟩, ?_⟩
  obtain ⟨rest, hlist⟩ := List.head?_eq_some_iff.mp hhead
  rw [getHead, listing, hlist]
  simp only [List.map_cons, headLoop, filename_entryPath, parseU64_numeral]
  rfl

end S2cLog

namespace FSM

variable (f : FSM)

def discoverLeaderState (looks : List Look) :
    Turn BackoffCounter (Option (Except Error (Option LeaderState))) :=
  feed discoverTurn (BackoffCounter.new f.s2cOptions.retry) looks

def HeadRight (store : ObjectStore) (writes : List (UInt64 × Bytes)) : Prop :=
  ∃ newest ∈ writes, (∀ write ∈ writes, write.1 ≤ newest.1) ∧
    f.s2cLog.getHead (f.s2cLog.listing store) = some (.ok (some newest.1)) ∧
    f.s2cLog.getAt [f.s2cLog.reading store newest.1] = .leave (.ok newest.2) ∧
    f.discoverLeaderState [f.s2cLog.look store] =
      .leave ((parseLeaderState newest.2).map (fun leaderState => .ok (some leaderState)))

variable {f} {store store' : ObjectStore} {writes : List (UInt64 × Bytes)}

theorem discover_appendAll (hempty : f.s2cLog.Unlisted store) (hne : writes ≠ [])
    (hbound : ∀ write ∈ writes, write.1 ≤ lastOrderedIndex)
    (h : f.s2cLog.appendAll store writes = some store') :
    f.discoverLeaderState [f.s2cLog.look store'] = .leave (some (.error .notFound)) := by
  obtain ⟨newest, hnewest, _, hhead⟩ := S2cLog.getHead_appendAll hempty hne hbound h
  have hread : store'.get (f.s2cLog.entryPath (KeysResolver.invert newest.1)) = .error .notFound := by
    have habsent : f.s2cLog.entryPath (KeysResolver.invert newest.1) ∉ store' := by
      intro hmem
      have hlisted := (S2cLog.mem_list_appendAll hempty h _).mp
        (List.mem_filter.mpr ⟨Std.ExtTreeMap.mem_keys.mpr hmem, f.s2cLog.prefixMatch_entryPath _⟩)
      obtain ⟨write, hwrite, hpath⟩ := hlisted
      have hindex := congrArg UInt64.toNat (f.s2cLog.entryPath_injective hpath)
      have hle := UInt64.le_iff_toNat_le.mp (hbound write hwrite)
      have hle' := UInt64.le_iff_toNat_le.mp (hbound newest hnewest)
      have hlast : lastOrderedIndex.toNat = 8446744073709551615 := rfl
      rw [KeysResolver.invert_toNat] at hindex
      omega
    simp [ObjectStore.get, Std.ExtTreeMap.getElem?_eq_none habsent]
  apply feed_leave
  simp only [discoverTurn, S2cLog.look, hhead, hread]
  rfl

theorem headRight_never (hempty : f.s2cLog.Unlisted store) (hne : writes ≠ [])
    (hbound : ∀ write ∈ writes, 1 ≤ write.1 ∧ write.1 ≤ lastOrderedIndex)
    (h : f.s2cLog.appendAll store writes = some store') : ¬f.HeadRight store' writes := by
  rintro ⟨newest, hnewest, hgreatest, hhead, _⟩
  obtain ⟨newest', hnewest', hgreatest', hhead'⟩ := S2cLog.getHead_appendAll hempty hne
    (fun write hwrite => (hbound write hwrite).2) h
  rw [hhead'] at hhead
  have hinvert : KeysResolver.invert newest'.1 = newest.1 := by simpa using hhead
  have hsame : newest.1 = newest'.1 := UInt64.le_antisymm (hgreatest' newest hnewest) (hgreatest newest' hnewest')
  rw [hsame] at hinvert
  exact KeysResolver.invert_ne_self newest'.1 hinvert

theorem appendNext_sample :
    sampleLog.appendNext ∅ (1, sampleAttempt.payload) = some sampleStore :=
  S2cLog.appendNext_free Std.ExtTreeMap.not_mem_empty

theorem appendAll_sample :
    sampleLog.appendAll ∅ [(1, sampleAttempt.payload)] = some sampleStore := by
  simp [S2cLog.appendAll, appendNext_sample]

def sampleWrites : List (UInt64 × Bytes) :=
  [(1, sampleAttempt.payload), (2, LogEntry.message.encode sampleLeader.attemptEntry)]

theorem appendAll_sampleWrites : ∃ store, sampleLog.appendAll ∅ sampleWrites = some store := by
  have hfree : sampleLog.entryPath 2 ∉ sampleStore := by
    rw [sampleStore, Std.ExtTreeMap.mem_insertIfNew, Std.LawfulEqCmp.compare_eq_iff_eq, not_or]
    constructor
    · intro hpath
      cases sampleLog.entryPath_injective hpath
    · exact Std.ExtTreeMap.not_mem_empty
  obtain ⟨store, hsecond⟩ : ∃ store, sampleLog.appendNext sampleStore
      (2, LogEntry.message.encode sampleLeader.attemptEntry) = some store :=
    ⟨_, S2cLog.appendNext_free hfree⟩
  refine ⟨store, ?_⟩
  simp [S2cLog.appendAll, sampleWrites, appendNext_sample, hsecond]

theorem headRight_never_sample : ∃ store, sampleLog.appendAll ∅ sampleWrites = some store ∧
    ¬sampleNode.HeadRight store sampleWrites := by
  obtain ⟨store, hstore⟩ := appendAll_sampleWrites
  exact ⟨store, hstore, headRight_never (f := sampleNode) sampleLog.unlisted_empty (List.cons_ne_nil _ _)
    (by decide) hstore⟩

theorem headRight_fails : sampleLog.Unlisted ∅ ∧
    sampleLog.appendAll ∅ [(1, sampleAttempt.payload)] = some sampleStore ∧
    ¬sampleNode.HeadRight sampleStore [(1, sampleAttempt.payload)] := by
  refine ⟨sampleLog.unlisted_empty, appendAll_sample, ?_⟩
  rintro ⟨newest, hnewest, _, hhead, _⟩
  obtain ⟨newest', hnewest', _, hhead'⟩ := S2cLog.getHead_appendAll sampleLog.unlisted_empty
    (List.cons_ne_nil _ _) (by decide) appendAll_sample
  obtain rfl := List.mem_singleton.mp hnewest
  obtain rfl := List.mem_singleton.mp hnewest'
  have hsame := hhead.symm.trans hhead'
  revert hsame
  decide

end FSM

end S2c
