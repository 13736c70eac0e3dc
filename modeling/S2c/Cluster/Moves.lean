import S2c.Cluster.Progress

namespace S2c

open Wire Loop Machine

namespace Node

inductive Moves (n : Node) : NodeEvent → FSM → Prop where
  | still (e : NodeEvent) (hheard : ∀ input, e = .input (.heard input) → input = .closed)
      (hturn : ∀ a acc, e = .input (.turn a) → n.stage = .leading acc → n.fsm.leaderTurn acc a = .panicked) :
      Moves n e n.fsm
  | settled (e : NodeEvent) (state : FSMState) (commitIndex epoch : UInt64)
      (hheard : ∀ input, e ≠ .input (.heard input)) (hturn : ∀ a, e ≠ .input (.turn a))
      (hfrom : n.fsm.state = .notJoined) (hstate : state ≠ .notJoined) :
      Moves n e { n.fsm with state := state, commitIndex := commitIndex, epoch := epoch }
  | missed (hstage : n.stage = .follower)
      (hroom : n.fsm.missedHeartbeats + 1 < n.fsm.s2cOptions.maxMissedHeartbeats) :
      Moves n (.input (.heard .timedOut)) { n.fsm with missedHeartbeats := n.fsm.missedHeartbeats + 1 }
  | gaveUp (hstage : n.stage = .follower)
      (hspent : n.fsm.s2cOptions.maxMissedHeartbeats ≤ n.fsm.missedHeartbeats + 1) :
      Moves n (.input (.heard .timedOut))
        { n.fsm with missedHeartbeats := n.fsm.missedHeartbeats + 1, state := .notJoined }
  | received (hstage : n.stage = .follower) (msg : S2cMessageEnvelope) :
      Moves n (.input (.heard (.received msg))) (n.fsm.followerReceived msg.s2cMessage).1
  | turned (a : Arrivals) (acc acc' : List StateRequest) (f : FSM) (hstage : n.stage = .leading acc)
      (hdue : a.due.foldlM FSM.handleDue (n.fsm, acc) = some (f, acc'))
      (hturn : n.fsm.leaderTurn acc a ≠ .panicked) : Moves n (.input (.turn a)) f

variable {n n' : Node} {e : NodeEvent} {identity : NodeIdentity} {log : S2cLog}

theorem moves_joins (h : n.fsm.state = .notJoined) (hheard : ∀ input, e ≠ .input (.heard input))
    (hturn : ∀ a, e ≠ .input (.turn a)) (next : JoinNext) : Moves n e (joins n.fsm next).fsm := by
  by_cases hnext : next = .joined
  · subst hnext
    exact .settled e .follower n.fsm.commitIndex n.fsm.epoch hheard hturn h (by decide)
  · rw [StartRun.joins_fsm n.fsm hnext]
    exact .still e (fun input he => absurd he (hheard input)) (fun a _ he => absurd he (hturn a))

theorem moves_heard (hstage : n.stage = .follower) (input : FollowerInput) :
    Moves n (.input (.heard input)) (follows (n.fsm.followerTurn input)).fsm := by
  cases input with
  | timedOut =>
    simp only [FSM.followerTurn]
    split_ifs with hspent
    · exact .gaveUp hstage hspent
    · apply Moves.missed hstage
      rw [UInt32.lt_iff_toNat_lt]
      rw [UInt32.le_iff_toNat_le] at hspent
      omega
  | received msg => exact .received hstage msg
  | closed => exact .still _ (by simp) (by simp)

theorem moves_turn {acc : List StateRequest} (hstage : n.stage = .leading acc) (a : Arrivals) :
    Moves n (.input (.turn a)) (n.leads (n.fsm.leaderTurn acc a)).fsm := by
  by_cases hpanic : n.fsm.leaderTurn acc a = .panicked
  · rw [hpanic]
    apply Moves.still _ (by simp)
    intro a' acc' he hstage'
    cases he
    cases hstage.symm.trans hstage'
    exact hpanic
  · have hturn := hpanic
    unfold FSM.leaderTurn at hpanic ⊢
    cases hdue : a.due.foldlM FSM.handleDue (n.fsm, acc) with
    | none => simp [hdue] at hpanic
    | some s =>
      have hmoves : Moves n (.input (.turn a)) s.1 := .turned a acc s.2 s.1 hstage hdue hturn
      simp only [hdue] at hpanic ⊢
      split_ifs with hflush
      · cases hpayload : flushPayload s.2 with
        | none => simp [hflush, hpayload] at hpanic
        | some payload => exact hmoves
      · exact hmoves

theorem moves_input {i : NodeInput} (hn : n.Sound identity log) (h : n.input i = some n') :
    Moves n (.input i) n'.fsm := by
  unfold input at h
  split at h <;> cases h <;> rename_i hstage
  · rw [(StartRun.dispatch_fsm n.fsm).1]
    exact .still _ (by simp) (by simp)
  · exact moves_joins (hn.state_of hstage rfl) (by simp) (by simp) _
  · exact moves_joins (hn.state_of hstage rfl) (by simp) (by simp) _
  · exact moves_joins (hn.state_of hstage rfl) (by simp) (by simp) _
  · exact moves_heard hstage _
  · exact moves_turn hstage _
  · exact .still _ (by simp) (by simp)

theorem moves_answered (hn : n.Sound identity log) (answer : Except Error Unit) :
    Moves n (.answered answer) (n.answered answer).fsm := by
  have hstill : Moves n (.answered answer) n.fsm := .still _ (by simp) (by simp)
  unfold answered
  split
  · rename_i backoff a s hstage
    have hfrom : n.fsm.state = .notJoined := hn.state_of hstage rfl
    split
    · exact hstill
    · rename_i f hput
      have hmoves : Moves n (.answered answer) f := by
        rcases FSM.attemptPut_leave hput with ⟨_, rfl⟩ | ⟨_, rfl⟩ | rfl
        · exact .settled _ .leader a.commitIndex a.epoch (by simp) (by simp) hfrom (by decide)
        · exact hstill
        · exact .settled _ .stopped n.fsm.commitIndex n.fsm.epoch (by simp) (by simp) hfrom (by decide)
      split_ifs <;> exact hmoves
  · split <;> exact hstill
  · exact hstill

theorem moves (hn : n.Sound identity log) (h : n.step e = some n') : Moves n e n'.fsm := by
  cases e with
  | input i => exact moves_input hn h
  | answered answer =>
    obtain ⟨_, _, rfl⟩ := Option.map_eq_some_iff.mp h
    exact moves_answered hn answer

end Node

end S2c
