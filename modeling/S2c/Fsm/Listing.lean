import S2c.Fsm.Join
import S2c.Log.Budget

namespace S2c

open Wire Loop

def firstItem (stream : List (Except Error Path)) : Option (Except Error Path) :=
  stream.find? (fun item => !failsTransiently item)

theorem headLoop_skip {item : Except Error Path} (h : failsTransiently item = true) (c : BackoffCounter)
    (stream : List (Except Error Path)) : ∃ d, headLoop c (item :: stream) = headLoop d stream := by
  obtain ⟨e, rfl, htransient⟩ := (failsTransiently_eq_true_iff item).mp h
  rw [headLoop, if_pos htransient]
  split_ifs
  · exact ⟨c.awaitAttempt, rfl⟩
  -- a counter that is used up stops nothing: the stream is polled again
  · exact ⟨c, rfl⟩

theorem headLoop_of_firstItem_none {stream : List (Except Error Path)} (h : firstItem stream = none)
    (c : BackoffCounter) : headLoop c stream = some (.ok none) := by
  induction stream generalizing c with
  | nil => rfl
  | cons item stream ih =>
    have hall := List.find?_eq_none.mp h
    have hitem : failsTransiently item = true := by simpa using hall item List.mem_cons_self
    obtain ⟨d, hd⟩ := headLoop_skip hitem c stream
    rw [hd]
    apply ih
    apply List.find?_eq_none.mpr
    intro x hx
    exact hall x (List.mem_cons_of_mem _ hx)

theorem headLoop_of_firstItem_some {stream : List (Except Error Path)} {item : Except Error Path}
    (h : firstItem stream = some item) (c : BackoffCounter) :
    ∃ d, headLoop c stream = headLoop d [item] := by
  induction stream generalizing c with
  | nil => cases h
  | cons first stream ih =>
    cases hfirst : failsTransiently first with
    | true =>
      obtain ⟨d, hd⟩ := headLoop_skip hfirst c stream
      rw [hd]
      apply ih
      rwa [firstItem, List.find?_cons_of_neg (by simp [hfirst])] at h
    | false =>
      rw [firstItem, List.find?_cons_of_pos (by simp [hfirst])] at h
      cases h
      refine ⟨c, ?_⟩
      cases item with
      | ok location => rfl
      | error e =>
        have he : ¬isTransient e = true := by simpa [failsTransiently] using hfirst
        rw [headLoop, if_neg he, headLoop, if_neg he]

theorem headLoop_error {e : Error} (h : isTransient e = false) (c : BackoffCounter) :
    headLoop c [.error e] = some (.error e) := by
  simp [headLoop, h]

theorem headLoop_entry_ne {location : Path} (h : location ≠ []) (c : BackoffCounter) :
    headLoop c [.ok location] ≠ some (.ok none) := by
  rw [headLoop, filename, if_neg h]
  cases parseU64 (location.reverse.takeWhile (fun c => c ≠ '/')).reverse <;> simp

/-- A listing that failed is not taken for an empty log: not by `get_head`, and not by a `join` that
goes by what it discovered. -/
structure S2cLog.HeadSound (log : S2cLog) (stream : List (Except Error Path)) : Prop where
  empty : log.getHead stream = some (.ok none) → stream = []
  failed : stream ≠ [] → (∀ item ∈ stream, ∃ e, item = .error e) →
    ∃ e, .error e ∈ stream ∧ log.getHead stream = some (.error e)
  join : ∀ c read re backoff next, discoverTurn c ⟨log.getHead stream, read⟩ = .leave re →
    joinDiscovered backoff re = .attempt next → stream = []

theorem joinDiscovered_attempt {backoff next : BackoffCounter} {re : Option (Except Error (Option LeaderState))}
    (h : joinDiscovered backoff re = .attempt next) : re = some (.ok none) := by
  unfold joinDiscovered at h
  split at h
  · cases h
  · split at h <;> cases h
  · rfl
  · split_ifs at h

theorem discoverTurn_empty {c : BackoffCounter} {look : Look}
    (h : discoverTurn c look = .leave (some (.ok none))) : look.head = some (.ok none) := by
  unfold discoverTurn at h
  split at h
  · cases h
  · split at h
    · next bytes _ =>
      cases hparse : parseLeaderState bytes <;> simp [hparse] at h
    · split_ifs at h
      cases h
  · assumption
  · split_ifs at h
    cases h

theorem headSound_iff (log : S2cLog) (stream : List (Except Error Path)) : log.HeadSound stream ↔
    stream = [] ∨ ∃ item, firstItem stream = some item ∧ item ≠ .ok [] := by
  constructor
  · intro h
    cases hfirst : firstItem stream with
    | none => exact Or.inl (h.empty (headLoop_of_firstItem_none hfirst _))
    | some item =>
      by_cases hitem : item = .ok []
      · subst hitem
        obtain ⟨d, hd⟩ := headLoop_of_firstItem_some hfirst (BackoffCounter.new log.s2cOptions.retry)
        exact Or.inl (h.empty hd)
      · exact Or.inr ⟨item, rfl, hitem⟩
  · intro h
    have hempty : log.getHead stream = some (.ok none) → stream = [] := by
      intro hhead
      rcases h with rfl | ⟨item, hfirst, hitem⟩
      · rfl
      · obtain ⟨d, hd⟩ := headLoop_of_firstItem_some hfirst (BackoffCounter.new log.s2cOptions.retry)
        have hd' : headLoop d [item] = some (.ok none) := hd.symm.trans hhead
        cases item with
        | ok location =>
          exact absurd hd' (headLoop_entry_ne (fun hl => hitem (congrArg Except.ok hl)) d)
        | error e =>
          have he : isTransient e = false := by simpa [failsTransiently] using List.find?_some hfirst
          cases (headLoop_error he d).symm.trans hd'
    refine ⟨hempty, ?_, ?_⟩
    · intro hne herrors
      rcases h with rfl | ⟨item, hfirst, _⟩
      · exact absurd rfl hne
      · have hmem := List.mem_of_find?_eq_some hfirst
        obtain ⟨e, rfl⟩ := herrors item hmem
        have he : isTransient e = false := by simpa [failsTransiently] using List.find?_some hfirst
        obtain ⟨d, hd⟩ := headLoop_of_firstItem_some hfirst (BackoffCounter.new log.s2cOptions.retry)
        exact ⟨e, hmem, hd.trans (headLoop_error he d)⟩
    · intro c read re backoff next hturn hjoin
      cases joinDiscovered_attempt hjoin
      exact hempty (discoverTurn_empty hturn)

theorem headSound_fails : ¬sampleLog.HeadSound [.error timedOut] := by
  intro h
  cases h.empty (by decide)

end S2c
