import Mathlib.Data.List.Range
import S2c.Fsm.Follower

namespace S2c

structure Ack where
  applyIndex : UInt64
  enqueued : List ReplicateRequest

inductive FollowerEvent where
  | heard (input : FollowerInput)
  | popped

def FollowerEvent.receives : FollowerEvent → Bool
  | .heard (.received _) => true
  | _ => false

structure FollowerRun where
  fsm : FSM
  enqueued : List ReplicateRequest
  acks : List Ack

def S2cMessage.acknowledges (s2cMessage : S2cMessage) (enqueued : List ReplicateRequest) : Option Ack :=
  match s2cMessage.body with
  | some (.replicateResponse replicate) => some ⟨replicate.applyIndex, enqueued⟩
  | _ => none

def ReplicateRequest.index (r : ReplicateRequest) : ℕ := r.commitIndex.toNat

/-- What is acknowledged is the requests with the indices 1, 2, ... up to the index of the response. -/
def Ack.Exact (ack : Ack) : Prop :=
  ack.enqueued.map ReplicateRequest.index = List.range' 1 ack.applyIndex.toNat

namespace FollowerRun

def start (f : FSM) (size : ℕ) : FollowerRun := ⟨{ f with syncQueue := .new size }, [], []⟩

def answer (s : FollowerRun) (f : FSM) (response : Option S2cMessageEnvelope) : FollowerRun :=
  -- the queue only ever grows at its end
  let enqueued := s.enqueued ++ f.syncQueue.queue.drop s.fsm.syncQueue.queue.length
  { fsm := f
    enqueued := enqueued
    acks := s.acks ++ response.toList.filterMap (fun msg => msg.s2cMessage.acknowledges enqueued) }

def step (s : FollowerRun) : FollowerEvent → FollowerRun
  | .heard input =>
    match s.fsm.followerTurn input with
    | .again f response => s.answer f response
    | .returned f => { s with fsm := f }
  | .popped => { s with fsm := { s.fsm with syncQueue := s.fsm.syncQueue.pop.2 } }

structure Counted (s : FollowerRun) : Prop where
  enqueued : s.enqueued.map ReplicateRequest.index = List.range' 1 s.enqueued.length
  last : s.fsm.syncQueue.lastReceivedIndex.toNat = s.enqueued.length
  exact : ∀ ack ∈ s.acks, ack.Exact
  covered : ∀ ack ∈ s.acks, ack.applyIndex.toNat ≤ s.enqueued.length
  sorted : s.acks.Pairwise (fun a b => a.applyIndex ≤ b.applyIndex)

variable {s : FollowerRun}

theorem Counted.acknowledge (h : s.Counted) {f : FSM}
    (hlast : f.syncQueue.lastReceivedIndex = s.fsm.syncQueue.lastReceivedIndex) :
    Counted ⟨f, s.enqueued, s.acks ++ [⟨f.syncQueue.lastReceivedIndex, s.enqueued⟩]⟩ := by
  have hcount : f.syncQueue.lastReceivedIndex.toNat = s.enqueued.length := by rw [hlast, h.last]
  refine ⟨h.enqueued, hcount, ?_, ?_, ?_⟩
  · intro ack hack
    rcases List.mem_append.mp hack with hack | hack
    · exact h.exact ack hack
    · obtain rfl := List.mem_singleton.mp hack
      simp only [Ack.Exact, h.enqueued, hcount]
  · intro ack hack
    rcases List.mem_append.mp hack with hack | hack
    · exact h.covered ack hack
    · obtain rfl := List.mem_singleton.mp hack
      exact Nat.le_of_eq hcount
  · apply List.pairwise_append.mpr
    refine ⟨h.sorted, List.pairwise_singleton _ _, ?_⟩
    intro a ha b hb
    obtain rfl := List.mem_singleton.mp hb
    calc a.applyIndex.toNat ≤ s.enqueued.length := h.covered a ha
      _ = f.syncQueue.lastReceivedIndex.toNat := hcount.symm

theorem Counted.enqueue (h : s.Counted) {f : FSM} {r : ReplicateRequest}
    (hr : r.commitIndex.toNat = s.enqueued.length + 1) (hlast : f.syncQueue.lastReceivedIndex = r.commitIndex) :
    Counted ⟨f, s.enqueued ++ [r], s.acks⟩ := by
  refine ⟨?_, ?_, h.exact, ?_, h.sorted⟩
  · rw [List.map_append, h.enqueued, List.length_append, List.length_singleton, List.range'_concat]
    simp only [List.map_cons, List.map_nil, ReplicateRequest.index, hr, Nat.one_mul, Nat.add_comm]
  · rw [hlast, hr, List.length_append, List.length_singleton]
  · intro ack hack
    have hle := h.covered ack hack
    rw [List.length_append]
    omega

theorem Counted.of_last (h : s.Counted) {f : FSM}
    (hlast : f.syncQueue.lastReceivedIndex = s.fsm.syncQueue.lastReceivedIndex) :
    Counted { s with fsm := f } :=
  ⟨h.enqueued, by rw [hlast, h.last], h.exact, h.covered, h.sorted⟩

theorem answer_queue (s : FollowerRun) (f : FSM) (msg : S2cMessageEnvelope)
    {rs : List ReplicateRequest} (hqueue : f.syncQueue.queue = s.fsm.syncQueue.queue ++ rs)
    (hbody : msg.s2cMessage.body = some (.replicateResponse ⟨f.syncQueue.lastReceivedIndex⟩)) :
    s.answer f (some msg) =
      ⟨f, s.enqueued ++ rs, s.acks ++ [⟨f.syncQueue.lastReceivedIndex, s.enqueued ++ rs⟩]⟩ := by
  simp only [answer, hqueue, List.drop_left, Option.toList_some, List.filterMap_cons, List.filterMap_nil,
    S2cMessage.acknowledges, hbody]

theorem answer_other (s : FollowerRun) (f : FSM) (response : Option S2cMessageEnvelope)
    (hqueue : f.syncQueue.queue = s.fsm.syncQueue.queue)
    (hbody : ∀ msg ∈ response, msg.s2cMessage.body = none) : s.answer f response = { s with fsm := f } := by
  have hnone : response.toList.filterMap (fun msg => msg.s2cMessage.acknowledges s.enqueued) = [] := by
    apply List.filterMap_eq_nil_iff.mpr
    intro msg hmsg
    simp only [S2cMessage.acknowledges, hbody msg (Option.mem_toList.mp hmsg)]
  simp only [answer, hqueue, List.drop_length, List.append_nil, hnone]

theorem counted_received (h : s.Counted) (msg : S2cMessageEnvelope) (hbound : s.enqueued.length + 1 < 2 ^ 64) :
    (s.step (.heard (.received msg))).Counted ∧
      (s.step (.heard (.received msg))).enqueued.length ≤ s.enqueued.length + 1 := by
  rcases s.fsm.followerReceived_cases msg.s2cMessage with ⟨response, hreceived, hbody⟩ |
    ⟨f, response, hreceived, hbody, hqueue⟩
  · have hstep : s.step (.heard (.received msg)) = s := by
      simp only [step, FSM.followerTurn, hreceived]
      apply answer_other
      · rfl
      · intro envelope henvelope
        obtain ⟨s2cMessage, hs2cMessage, rfl⟩ := Option.map_eq_some_iff.mp henvelope
        exact hbody s2cMessage hs2cMessage
    rw [hstep]
    exact ⟨h, Nat.le_succ _⟩
  · rcases hqueue with hsame | ⟨r, hindex, hput⟩
    · have hstep : s.step (.heard (.received msg)) =
          ⟨f, s.enqueued, s.acks ++ [⟨f.syncQueue.lastReceivedIndex, s.enqueued⟩]⟩ := by
        simp only [step, FSM.followerTurn, hreceived, Option.map_some]
        have hnone : f.syncQueue.queue = s.fsm.syncQueue.queue ++ [] := by rw [hsame, List.append_nil]
        rw [answer_queue _ _ _ hnone hbody, List.append_nil]
      rw [hstep]
      exact ⟨h.acknowledge (by rw [hsame]), Nat.le_succ _⟩
    · have hstep : s.step (.heard (.received msg)) =
          ⟨f, s.enqueued ++ [r], s.acks ++ [⟨f.syncQueue.lastReceivedIndex, s.enqueued ++ [r]⟩]⟩ := by
        simp only [step, FSM.followerTurn, hreceived, Option.map_some]
        exact answer_queue _ _ _ (by rw [hput]) hbody
      have hlast : f.syncQueue.lastReceivedIndex = r.commitIndex := by rw [hput]
      have hcount : r.commitIndex.toNat = s.enqueued.length + 1 := by
        rw [hindex, UInt64.toNat_add, h.last, UInt64.toNat_one, Nat.mod_eq_of_lt hbound]
      rw [hstep]
      refine ⟨(h.enqueue hcount hlast).acknowledge rfl, ?_⟩
      rw [List.length_append, List.length_singleton]

theorem counted_step (h : s.Counted) (e : FollowerEvent)
    (hbound : s.enqueued.length + [e].countP FollowerEvent.receives < 2 ^ 64) :
    (s.step e).Counted ∧
      (s.step e).enqueued.length ≤ s.enqueued.length + [e].countP FollowerEvent.receives := by
  cases e with
  | popped => exact ⟨h.of_last rfl, Nat.le_refl _⟩
  | heard input =>
    cases input with
    | received msg => exact counted_received h msg hbound
    | closed => exact ⟨h, Nat.le_refl _⟩
    | timedOut =>
      have hstep : ∃ f, s.step (.heard .timedOut) = { s with fsm := f } ∧ f.syncQueue = s.fsm.syncQueue := by
        simp only [step, FSM.followerTurn]
        split_ifs
        · exact ⟨_, rfl, rfl⟩
        · exact ⟨_, answer_other _ _ _ rfl (by simp), rfl⟩
      obtain ⟨f, hstep, hqueue⟩ := hstep
      rw [hstep]
      exact ⟨h.of_last (by rw [hqueue]), Nat.le_refl _⟩

theorem counted_run {es : List FollowerEvent} (h : s.Counted)
    (hbound : s.enqueued.length + es.countP FollowerEvent.receives < 2 ^ 64) :
    (es.foldl step s).Counted := by
  induction es generalizing s with
  | nil => exact h
  | cons e es ih =>
    have hsplit : ([e] ++ es).countP FollowerEvent.receives =
        [e].countP FollowerEvent.receives + es.countP FollowerEvent.receives := List.countP_append
    rw [← List.singleton_append, hsplit] at hbound
    obtain ⟨hcounted, hlength⟩ := counted_step h e (by omega)
    apply ih hcounted
    omega

theorem acknowledged_along_run (f : FSM) (size : ℕ) (es : List FollowerEvent)
    (hbound : es.countP FollowerEvent.receives < 2 ^ 64) :
    (∀ ack ∈ (es.foldl step (start f size)).acks, ack.Exact) ∧
      (es.foldl step (start f size)).acks.Pairwise (fun a b => a.applyIndex ≤ b.applyIndex) := by
  have hstart : (start f size).Counted := ⟨rfl, rfl, by simp [start], by simp [start], List.Pairwise.nil⟩
  have hcounted : (es.foldl step (start f size)).Counted := counted_run hstart (by simpa [start] using hbound)
  exact ⟨hcounted.exact, hcounted.sorted⟩

end FollowerRun

def sampleReplicate (commitIndex : UInt64) : FollowerEvent :=
  .heard (.received ⟨⟨"c1", some (.replicateRequest ⟨none, commitIndex, "g", none⟩), none⟩, ⟨"n2", "h2", 1, "a"⟩⟩)

theorem FollowerRun.acknowledged_sample :
    ([sampleReplicate 1, .popped, sampleReplicate 1, sampleReplicate 2].foldl step (start sampleNode 0)).acks.map
      Ack.applyIndex = [1, 1, 2] ∧
    ∀ ack ∈ ([sampleReplicate 1, .popped, sampleReplicate 1, sampleReplicate 2].foldl step
      (start sampleNode 0)).acks, ack.Exact :=
  ⟨by decide, (acknowledged_along_run sampleNode 0 _ (by decide)).1⟩

end S2c
