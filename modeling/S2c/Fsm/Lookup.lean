import S2c.Fsm.Discovery
import S2c.Fsm.Listing
import S2c.Log.Groups

namespace S2c

open Wire Loop

inductive Lookup where
  | listing (backoff : BackoffCounter)
  | getting (backoff : BackoffCounter) (head : UInt64) (getting : BackoffCounter)

namespace FSM

abbrev LookupTurn := Turn Lookup (Option (Except Error (Option LeaderState)))

def startLookup (f : FSM) : Lookup := .listing (BackoffCounter.new f.s2cOptions.retry)

def lookupTurn (backoff : BackoffCounter) (look : Look) : LookupTurn :=
  match discoverTurn backoff look with
  | .again backoff => .again (.listing backoff)
  | .leave re => .leave re

def listed (f : FSM) (backoff : BackoffCounter) (stream : List (Except Error Path)) : LookupTurn :=
  match f.s2cLog.getHead stream with
  | some (.ok (some head)) => .again (.getting backoff head (BackoffCounter.new f.s2cLog.s2cOptions.retry))
  -- nothing is read here
  | re => lookupTurn backoff ⟨re, fun _ => .error .notFound⟩

def got (backoff : BackoffCounter) (head : UInt64) (c : BackoffCounter)
    (answer : Except Error (Except Error Bytes)) : LookupTurn :=
  match getAtTurn c answer with
  | .again c => .again (.getting backoff head c)
  | .leave re => lookupTurn backoff ⟨some (.ok (some head)), fun _ => re⟩

def lookedUp (f : FSM) (backoff : BackoffCounter) (store : ObjectStore) : LookupTurn :=
  match f.listed backoff (f.s2cLog.listing store) with
  | .again (.getting backoff head c) => got backoff head c (store.answer (f.s2cLog.entryPath head) .served)
  | turn => turn

variable {f : FSM} {backoff c : BackoffCounter} {stream : List (Except Error Path)} {store : ObjectStore}

theorem got_served (head : UInt64) : got backoff head c (store.answer (f.s2cLog.entryPath head) .served) =
    lookupTurn backoff ⟨some (.ok (some head)), fun _ => store.get (f.s2cLog.entryPath head)⟩ := by
  have hturn : getAtTurn c (store.answer (f.s2cLog.entryPath head) .served) =
      .leave (store.get (f.s2cLog.entryPath head)) := by
    unfold ObjectStore.answer ObjectStore.get
    cases store[f.s2cLog.entryPath head]? with
    | some bytes => rfl
    | none => rfl
  rw [got, hturn]

theorem lookedUp_eq (f : FSM) (backoff : BackoffCounter) (store : ObjectStore) :
    f.lookedUp backoff store = lookupTurn backoff (f.s2cLog.look store) := by
  unfold lookedUp listed S2cLog.look
  cases hhead : f.s2cLog.getHead (f.s2cLog.listing store) with
  | none => rfl
  | some re =>
    cases re with
    | error e =>
      simp only [lookupTurn, discoverTurn]
      split_ifs <;> rfl
    | ok head =>
      cases head with
      | none => rfl
      | some head =>
        dsimp only
        rw [got_served]
        simp only [lookupTurn, discoverTurn]

theorem getHead_location {log : S2cLog} {head : UInt64} (h : log.getHead stream = some (.ok (some head))) :
    ∃ location, .ok location ∈ stream ∧ (filename location).bind parseU64 = some head := by
  cases hobject : headObject (BackoffCounter.new log.s2cOptions.retry) stream with
  | none =>
    obtain ⟨re, hre, hne⟩ := headLoop_of_headObject.1 hobject
    cases hre.symm.trans h
    exact absurd rfl (hne head)
  | some location =>
    refine ⟨location, (List.mem_filter.mp (Groups.mem_of_headObject hobject)).1, ?_⟩
    have hhead := (headLoop_of_headObject.2 location hobject).symm.trans h
    simp only [headLoop] at hhead
    split at hhead
    · cases hhead
    · rename_i name hname
      obtain ⟨index, hindex, heq⟩ := Option.map_eq_some_iff.mp hhead
      cases heq
      rw [hname, Option.bind_some, hindex]

theorem lookupTurn_found {look : Look} {leaderState : LeaderState}
    (h : lookupTurn backoff look = .leave (some (.ok (some leaderState)))) :
    ∃ head bytes, look.head = some (.ok (some head)) ∧ look.read head = .ok bytes := by
  unfold lookupTurn at h
  split at h
  · cases h
  · rename_i re hturn
    cases h
    unfold discoverTurn at hturn
    split at hturn
    · cases hturn
    · rename_i head hhead
      split at hturn
      · exact ⟨head, _, hhead, ‹_›⟩
      · split_ifs at hturn
        cases hturn
    · cases hturn
    · split_ifs at hturn
      cases hturn

theorem listed_leave {leaderState : LeaderState} :
    f.listed backoff stream ≠ .leave (some (.ok (some leaderState))) := by
  unfold listed
  split
  · simp
  · intro h
    obtain ⟨_, _, _, hread⟩ := lookupTurn_found h
    cases hread

theorem listed_again {l : Lookup} (h : f.listed backoff stream = .again l) :
    (∃ backoff, l = .listing backoff) ∨ ∃ backoff head c, l = .getting backoff head c ∧
      f.s2cLog.getHead stream = some (.ok (some head)) := by
  unfold listed at h
  split at h
  · rename_i head hhead
    cases h
    exact Or.inr ⟨_, head, _, rfl, hhead⟩
  · unfold lookupTurn at h
    split at h
    · cases h
      exact Or.inl ⟨_, rfl⟩
    · cases h

theorem got_leave {head : UInt64} {answer : Except Error (Except Error Bytes)} {leaderState : LeaderState}
    (h : got backoff head c answer = .leave (some (.ok (some leaderState)))) : ∃ bytes, answer = .ok (.ok bytes) := by
  unfold got at h
  split at h
  · cases h
  · rename_i re hturn
    obtain ⟨_, bytes, _, hread⟩ := lookupTurn_found h
    cases hread
    exact ⟨bytes, (getAtTurn_ok hturn)⟩

theorem got_again {head : UInt64} {answer : Except Error (Except Error Bytes)} {l : Lookup}
    (h : got backoff head c answer = .again l) :
    (∃ backoff, l = .listing backoff) ∨ ∃ c, l = .getting backoff head c := by
  unfold got at h
  split at h
  · cases h
    exact Or.inr ⟨_, rfl⟩
  · unfold lookupTurn at h
    split at h
    · cases h
      exact Or.inl ⟨_, rfl⟩
    · cases h

end FSM

end S2c
