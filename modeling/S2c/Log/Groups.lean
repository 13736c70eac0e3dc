import S2c.Log.Head

namespace S2c

open Wire Loop

/-- One turn of an `append` to the log of a group. The appends of several writers may alternate. -/
structure GroupAppend where
  groupId : String
  index : UInt64
  payload : Bytes
  fate : Fate

structure Groups where
  store : ObjectStore
  owner : Path → Option String

def headObject (c : BackoffCounter) : List (Except Error Path) → Option Path
  | [] => none
  | .error e :: stream =>
    if isTransient e then
      if c.canAttempt then headObject c.awaitAttempt stream else headObject c stream
    else none
  | .ok location :: _ => some location

theorem headLoop_of_headObject {c : BackoffCounter} {stream : List (Except Error Path)} :
    (headObject c stream = none → ∃ re, headLoop c stream = some re ∧ ∀ index, re ≠ .ok (some index)) ∧
    ∀ location, headObject c stream = some location → headLoop c stream = headLoop c [.ok location] := by
  induction stream generalizing c with
  | nil => exact ⟨fun _ => ⟨.ok none, rfl, by simp⟩, by simp [headObject]⟩
  | cons answer stream ih =>
    cases answer with
    | ok location =>
      refine ⟨by simp [headObject], ?_⟩
      rintro _ ⟨⟩
      rfl
    | error e =>
      simp only [headObject, headLoop]
      split_ifs with htransient hattempt
      · refine ⟨(ih (c := c.awaitAttempt)).1, ?_⟩
        intro location h
        exact ih.2 location h
      · exact ih
      · exact ⟨fun _ => ⟨_, rfl, by simp⟩, by simp⟩

namespace Groups

variable (enc : PathEncoding) (options : S2cOptions)

def empty : Groups := ⟨∅, fun _ => none⟩

def log (groupId : String) : S2cLog := ⟨enc, groupId, options⟩

def step (s : Groups) (e : GroupAppend) : Groups :=
  let store := (s.store.putOpts ((log enc options e.groupId).entryPath e.index) e.payload e.fate).1
  ⟨store, fun p => (s.owner p).or (if p ∈ store then some e.groupId else none)⟩

def run (es : List GroupAppend) : Groups := es.foldl (step enc options) empty

structure Unaffected (a b : String) (s : Groups) : Prop where
  append : ∀ index payload c fate store,
    (log enc options a).appendBody index payload (s.store, c) fate = .leave (store, .error .alreadyExists) →
      s.owner ((log enc options a).entryPath index) ≠ some b
  getAt : ∀ index answers bytes,
    (∀ answer ∈ answers, answer = (log enc options a).reading s.store index ∨
      ∃ e, answer = .error e ∨ answer = .ok (.error e)) →
    (log enc options a).getAt answers = .leave (.ok bytes) →
      s.owner ((log enc options a).entryPath index) ≠ some b
  getHead : ∀ stream location,
    stream.filter Except.isOk <+: (log enc options a).listing s.store →
    headObject (BackoffCounter.new options.retry) stream = some location → s.owner location ≠ some b

def Isolated (a b : String) : Prop :=
  ∀ es, (∀ e ∈ es, e.groupId = a ∨ e.groupId = b) →
    Unaffected enc options a b (run enc options es) ∧ Unaffected enc options b a (run enc options es)

structure Owned (s : Groups) : Prop where
  complete : ∀ p ∈ s.store, s.owner p ≠ none
  entry : ∀ p groupId, s.owner p = some groupId → ∃ index, p = (log enc options groupId).entryPath index

variable {enc options} {s : Groups} {a b : String}

theorem mem_putOpts {store : ObjectStore} {p q : Path} {payload : Bytes} {fate : Fate}
    (h : q ∈ (store.putOpts p payload fate).1) : q ∈ store ∨ q = p := by
  have hinsert : q ∈ store.insertIfNew p payload → q ∈ store ∨ q = p := by
    intro hq
    rcases Std.ExtTreeMap.mem_insertIfNew.mp hq with heq | hq
    · exact Or.inr (Std.LawfulEqOrd.eq_of_compare heq).symm
    · exact Or.inl hq
  cases fate with
  | served => exact hinsert h
  | refused e => exact Or.inl h
  | lostReply st source => exact hinsert h

theorem owned_step (h : s.Owned enc options) (e : GroupAppend) : (step enc options s e).Owned enc options := by
  constructor
  · intro p hp
    simp only [step] at hp ⊢
    rw [if_pos hp]
    cases s.owner p <;> simp
  · intro p groupId howner
    simp only [step] at howner
    rcases Option.or_eq_some_iff.mp howner with howner | ⟨hnone, howner⟩
    · exact h.entry p groupId howner
    · split_ifs at howner with hp
      cases howner
      rcases mem_putOpts hp with hp | hentry
      · exact absurd hnone (h.complete p hp)
      · exact ⟨e.index, hentry⟩

theorem owned_run (es : List GroupAppend) : (run enc options es).Owned enc options := by
  have hempty : empty.Owned enc options := ⟨by simp [empty], by simp [empty]⟩
  unfold run
  generalize empty = s at hempty
  induction es generalizing s with
  | nil => exact hempty
  | cons e es ih => exact ih _ (owned_step hempty e)

theorem prefixMatch_entryPath_iff (a b : String) (index : UInt64) :
    prefixMatch (enc.path (log enc options a).keyResolver.logPrefix) ((log enc options b).entryPath index) = true ↔
      PathEncoding.logDirectory a <+: PathEncoding.logDirectory b := by
  have hroot : enc.path (log enc options a).keyResolver.logPrefix = enc.logRoot a := enc.path_logPrefix a
  rw [hroot, S2cLog.entryPath_eq]
  exact enc.prefixMatch_logRoot_iff a b (Decimal.allDigits_numeral _)

theorem Owned.owner_ne (h : s.Owned enc options)
    (hab : ¬PathEncoding.logDirectory a <+: PathEncoding.logDirectory b) {p : Path}
    (hp : prefixMatch (enc.path (log enc options a).keyResolver.logPrefix) p = true) : s.owner p ≠ some b := by
  intro howner
  obtain ⟨index, hentry⟩ := h.entry p b howner
  rw [hentry] at hp
  exact hab ((prefixMatch_entryPath_iff a b index).mp hp)

theorem mem_of_headObject {c : BackoffCounter} {stream : List (Except Error Path)} {location : Path}
    (h : headObject c stream = some location) : .ok location ∈ stream.filter Except.isOk := by
  induction stream generalizing c with
  | nil => cases h
  | cons answer stream ih =>
    cases answer with
    | ok found =>
      cases h
      simp [Except.isOk, Except.toBool]
    | error e =>
      simp only [headObject] at h
      simp only [List.filter_cons, Except.isOk, Except.toBool]
      split_ifs at h
      · exact ih h
      · exact ih h

theorem mem_listing {log : S2cLog} {store : ObjectStore} {location : Path}
    (h : .ok location ∈ log.listing store) :
    prefixMatch (log.encoding.path log.keyResolver.logPrefix) location = true := by
  obtain ⟨found, hfound, heq⟩ := List.mem_map.mp h
  cases heq
  exact (List.mem_filter.mp hfound).2

theorem Owned.unaffected (h : s.Owned enc options)
    (hab : ¬PathEncoding.logDirectory a <+: PathEncoding.logDirectory b) : Unaffected enc options a b s := by
  constructor
  · intro index payload c fate store _
    exact h.owner_ne hab ((log enc options a).prefixMatch_entryPath index)
  · intro index answers bytes _ _
    exact h.owner_ne hab ((log enc options a).prefixMatch_entryPath index)
  · intro stream location hstream hlocation
    have hlisted : .ok location ∈ (log enc options a).listing s.store :=
      hstream.mem (mem_of_headObject hlocation)
    have hmatch := mem_listing hlisted
    exact h.owner_ne hab hmatch

def loneAppend (groupId : String) : List GroupAppend := [⟨groupId, 1, [], .served⟩]

theorem mem_loneAppend : (log enc options b).entryPath 1 ∈ (run enc options (loneAppend b)).store := by
  apply Std.ExtTreeMap.mem_insertIfNew.mpr
  exact Or.inl Std.ReflOrd.compare_self

theorem owner_loneAppend {p : Path} (hp : p ∈ (run enc options (loneAppend b)).store) :
    (run enc options (loneAppend b)).owner p = some b := if_pos hp

theorem not_unaffected (hab : PathEncoding.logDirectory a <+: PathEncoding.logDirectory b) :
    ¬Unaffected enc options a b (run enc options (loneAppend b)) := by
  intro h
  -- one entry of `b` is enough: `get_head` of `a` answers with it
  have hlisted : .ok ((log enc options b).entryPath 1) ∈
      (log enc options a).listing (run enc options (loneAppend b)).store := by
    apply List.mem_map_of_mem
    apply List.mem_filter.mpr
    exact ⟨Std.ExtTreeMap.mem_keys.mpr mem_loneAppend, (prefixMatch_entryPath_iff a b 1).mpr hab⟩
  obtain ⟨answer, stream, hlisting⟩ := List.exists_cons_of_ne_nil (List.ne_nil_of_mem hlisted)
  have hfirst : answer ∈ (log enc options a).listing (run enc options (loneAppend b)).store := by
    rw [hlisting]
    exact List.mem_cons_self
  obtain ⟨found, hfound, rfl⟩ := List.mem_map.mp hfirst
  have hstored : found ∈ (run enc options (loneAppend b)).store :=
    Std.ExtTreeMap.mem_keys.mp (List.mem_filter.mp hfound).1
  apply h.getHead [.ok found] found _ rfl (owner_loneAppend hstored)
  rw [hlisting]
  exact ⟨stream, rfl⟩

theorem isolated_iff (enc : PathEncoding) (options : S2cOptions) (a b : String) :
    Isolated enc options a b ↔ ¬PathEncoding.logDirectory a <+: PathEncoding.logDirectory b ∧
      ¬PathEncoding.logDirectory b <+: PathEncoding.logDirectory a := by
  constructor
  · intro h
    constructor
    · intro hab
      exact not_unaffected hab (h (loneAppend b) (by simp [loneAppend])).1
    · intro hba
      exact not_unaffected hba (h (loneAppend a) (by simp [loneAppend])).2
  · rintro ⟨hab, hba⟩ es _
    exact ⟨(owned_run es).unaffected hab, (owned_run es).unaffected hba⟩

theorem isolated_fails : ¬∀ a b : String, a ≠ b → Isolated PathEncoding.escape S2cOptions.default a b := by
  intro h
  -- the slash at the end of the id only adds an empty segment, so both groups have the same keys
  have hsame : PathEncoding.logDirectory "a" = PathEncoding.logDirectory "a/" := by decide
  have hpath : (log .escape .default "a").entryPath 1 = (log .escape .default "a/").entryPath 1 := by
    rw [S2cLog.entryPath_eq, S2cLog.entryPath_eq]
    simp only [log, PathEncoding.logRoot, hsame]
  obtain ⟨hunaffected, _⟩ := h "a" "a/" (by decide) (loneAppend "a/") (by simp [loneAppend])
  have htaken : (log .escape .default "a").entryPath 1 ∈ (run .escape .default (loneAppend "a/")).store := by
    rw [hpath]
    exact mem_loneAppend
  have hrefused := (log .escape .default "a").appendBody_served 1 []
    (run .escape .default (loneAppend "a/")).store (BackoffCounter.new S2cOptions.default.retry)
  rw [if_pos htaken] at hrefused
  exact hunaffected.append 1 [] _ .served _ hrefused (owner_loneAppend htaken)

end Groups

end S2c
