import S2c.BoundedQueue
import S2c.Machine
import S2c.Proto.Messages

namespace S2c

open Machine

structure ReplicateQueue where
  queue : List ReplicateRequest
  size : ℕ
  lastReceivedIndex : UInt64
  deriving DecidableEq

namespace ReplicateQueue

def new (size : ℕ) : ReplicateQueue := ⟨[], size, 0⟩

def put (q : ReplicateQueue) (synchronizeRequest : ReplicateRequest) : ReplicateQueue :=
  -- the guard as the source has it: a request is taken when the queue is full
  if q.size ≤ q.queue.length then
    { q with lastReceivedIndex := synchronizeRequest.commitIndex, queue := q.queue ++ [synchronizeRequest] }
  else q

def pop (q : ReplicateQueue) : Option ReplicateRequest × ReplicateQueue :=
  (q.queue.head?, { q with queue := q.queue.tail })

theorem put_cases (q : ReplicateQueue) (r : ReplicateRequest) :
    q.put r = { q with lastReceivedIndex := r.commitIndex, queue := q.queue ++ [r] } ∨ q.put r = q := by
  unfold put
  split_ifs
  · exact Or.inl rfl
  · exact Or.inr rfl

end ReplicateQueue

structure QueueRun where
  queue : ReplicateQueue
  popped : List ReplicateRequest

namespace QueueRun

def step (s : QueueRun) : QueueOp ReplicateRequest → QueueRun
  | .put r => { s with queue := s.queue.put r }
  | .pop => ⟨s.queue.pop.2, s.popped ++ s.queue.pop.1.toList⟩

/-- The queue is in the state of a bounded queue, and its index that of what was accepted last. -/
structure Refines {n : ℕ} (s : QueueRun) (q : BoundedQueue ReplicateRequest n) : Prop where
  size : s.queue.size = n
  held : s.queue.queue = q.held
  popped : s.popped = q.popped
  lastReceivedIndex : s.queue.lastReceivedIndex = (q.accepted.getLast?.map ReplicateRequest.commitIndex).getD 0

def bothStep {n : ℕ} (s : QueueRun × BoundedQueue ReplicateRequest n) (op : QueueOp ReplicateRequest) :
    Option (QueueRun × BoundedQueue ReplicateRequest n) :=
  some (s.1.step op, s.2.step op)

def start (n : ℕ) : QueueRun × BoundedQueue ReplicateRequest n := (⟨.new n, []⟩, .empty ReplicateRequest n)

variable {n : ℕ} {s : QueueRun} {q : BoundedQueue ReplicateRequest n}

theorem refines_pop (h : s.Refines q) : (s.step .pop).Refines q.pop := by
  refine ⟨h.size, ?_, ?_, h.lastReceivedIndex⟩
  · simp only [step, ReplicateQueue.pop, BoundedQueue.pop, h.held]
  · simp only [step, ReplicateQueue.pop, BoundedQueue.pop, h.held, h.popped]

theorem not_refines_put (h : s.Refines q) (r : ReplicateRequest) : ¬(s.step (.put r)).Refines (q.put r) := by
  intro hput
  have hheld := congrArg List.length hput.held
  have hsize := h.size
  rcases Nat.lt_or_ge q.held.length n with hlt | hfull
  · rw [BoundedQueue.held_put_of_lt hlt] at hheld
    simp only [step, ReplicateQueue.put, hsize, h.held, if_neg (Nat.not_le.mpr hlt), List.length_append,
      List.length_singleton] at hheld
    omega
  · rw [BoundedQueue.put_of_full hfull] at hheld
    simp only [step, ReplicateQueue.put, hsize, h.held, if_pos hfull, List.length_append,
      List.length_singleton] at hheld
    omega

theorem refines_iff (n : ℕ) (ops : List (QueueOp ReplicateRequest)) :
    Always bothStep (fun s => s.1.Refines s.2) (start n) ops ↔ ∀ op ∈ ops, op.puts = false := by
  rw [always_iff_along (J := fun _ => True) (P := fun _ op => op.puts = false)]
  · apply along_iff_forall
    intros
    rfl
  · intros
    trivial
  · rintro ⟨s, q⟩ op t _ hs hstep
    cases hstep
    cases op with
    | put r => exact iff_of_false (not_refines_put hs r) (by simp [QueueOp.puts])
    | pop => exact iff_of_true (refines_pop hs) rfl
  · trivial
  · exact ⟨rfl, rfl, rfl, rfl⟩

theorem refines_fails : ¬Always bothStep (fun s => s.1.Refines s.2) (start 1) [.put ⟨none, 1, "g", none⟩] := by
  intro h
  have hput := h _ (List.prefix_refl _) _ rfl
  cases hput.held

end QueueRun

end S2c
