import Mathlib.Data.Nat.Notation
import Mathlib.Tactic.Common

namespace S2c

/-- A queue of at most `n`, with what has been taken from it and what it has accepted so far. -/
structure BoundedQueue (α : Type) (n : ℕ) where
  held : List α
  popped : List α
  accepted : List α
  bounded : held.length ≤ n
  fifo : popped ++ held = accepted

inductive QueueOp (α : Type) where
  | put (a : α)
  | pop

def QueueOp.puts {α : Type} : QueueOp α → Bool
  | .put _ => true
  | .pop => false

namespace BoundedQueue

variable {α : Type} {n : ℕ}

def empty (α : Type) (n : ℕ) : BoundedQueue α n := ⟨[], [], [], Nat.zero_le n, rfl⟩

def put (q : BoundedQueue α n) (a : α) : BoundedQueue α n :=
  if h : q.held.length < n then
    { held := q.held ++ [a]
      popped := q.popped
      accepted := q.accepted ++ [a]
      bounded := by
        rw [List.length_append, List.length_singleton]
        omega
      fifo := by rw [← q.fifo, List.append_assoc] }
  else q

def pop (q : BoundedQueue α n) : BoundedQueue α n where
  held := q.held.tail
  popped := q.popped ++ q.held.head?.toList
  accepted := q.accepted
  bounded := by
    have := q.bounded
    rw [List.length_tail]
    omega
  fifo := by
    rw [← q.fifo, List.append_assoc]
    cases q.held <;> rfl

def step (q : BoundedQueue α n) : QueueOp α → BoundedQueue α n
  | .put a => q.put a
  | .pop => q.pop

variable {q : BoundedQueue α n}

theorem held_put_of_lt {a : α} (h : q.held.length < n) : (q.put a).held = q.held ++ [a] := by
  rw [put, dif_pos h]

theorem put_of_full {a : α} (h : n ≤ q.held.length) : q.put a = q := by
  rw [put, dif_neg (Nat.not_lt.mpr h)]

end BoundedQueue

end S2c
