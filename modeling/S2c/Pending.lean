import Mathlib.Data.Nat.Notation
import Mathlib.Logic.Function.Basic
import Mathlib.Tactic.Common

namespace S2c

inductive OneShot (β : Type) where
  | empty
  | filled (b : β)
  | dropped
  deriving DecidableEq

/-- Requests that wait for one answer each, in a table by their identifiers. Whose answer an
identifier stands for, and that nobody waits in the table with an answer at hand, are part of it. -/
structure Pending {κ ι : Type} (ident : κ → ι) (β : Type) where
  senders : ι → Option κ
  slots : κ → OneShot β
  own : ∀ i k, senders i = some k → ident k = i
  unanswered : ∀ i k, senders i = some k → slots k = .empty

namespace Pending

variable {κ ι β : Type} {ident : κ → ι}

def empty (ident : κ → ι) (β : Type) : Pending ident β where
  senders _ := none
  slots _ := .empty
  own _ _ h := by cases h
  unanswered _ _ h := by cases h

def Registered (p : Pending ident β) (k : κ) : Prop := p.senders (ident k) = some k

theorem Registered.empty {p : Pending ident β} {k : κ} (h : p.Registered k) : p.slots k = .empty :=
  p.unanswered _ _ h

theorem not_registered_empty (k : κ) : ¬(Pending.empty ident β).Registered k := nofun

variable [DecidableEq κ]

instance (p : Pending ident β) (k : κ) : Decidable (p.Registered k) :=
  inferInstanceAs (Decidable (p.senders (ident k) = some k))

def settle (p : Pending ident β) (which : ι → Bool) (slot : OneShot β) : Pending ident β where
  senders i := if which i then none else p.senders i
  slots k := if p.Registered k ∧ which (ident k) then slot else p.slots k
  own i k h := by
    split_ifs at h
    exact p.own i k h
  unanswered i k h := by
    split_ifs at h with hi
    rw [p.own i k h]
    simpa [hi] using p.unanswered i k h

variable {p : Pending ident β} {which : ι → Bool} {slot : OneShot β} {j k : κ}

@[simp] theorem registered_settle : (p.settle which slot).Registered k ↔
    p.Registered k ∧ which (ident k) = false := by
  cases hk : which (ident k) <;> simp [settle, Registered, hk]

theorem slots_settle : (p.settle which slot).slots k =
    if p.Registered k ∧ which (ident k) then slot else p.slots k := rfl

theorem slots_settle_of_not_registered (hk : ¬p.Registered k) : (p.settle which slot).slots k = p.slots k := by
  simp [slots_settle, hk]

theorem slots_settle_of_not (hk : which (ident k) = false) : (p.settle which slot).slots k = p.slots k := by
  simp [slots_settle, hk]

def Vacant (p : Pending ident β) : Prop := ∀ i, p.senders i = none

theorem Vacant.settle (h : p.Vacant) : (p.settle which slot).Vacant := by
  intro i
  simp [Pending.settle, h i]

theorem vacant_settle_all : (p.settle (fun _ => true) slot).Vacant := fun _ => rfl

variable [DecidableEq ι]

def add (p : Pending ident β) (k : κ) : Pending ident β where
  senders := Function.update p.senders (ident k) (some k)
  slots := Function.update (p.settle (· = ident k) .dropped).slots k .empty
  own i j h := by
    by_cases hi : i = ident k
    · subst hi
      obtain rfl : k = j := by simpa using h
      rfl
    · exact p.own i j (by simpa [hi] using h)
  unanswered i j h := by
    by_cases hj : j = k
    · simp [hj]
    · have hi : i ≠ ident k := by
        rintro rfl
        exact hj (by simpa using h.symm)
      have hsender : p.senders i = some j := by simpa [hi] using h
      have hident : ident j ≠ ident k := by rwa [p.own i j hsender]
      simpa [hj, settle, hident] using p.unanswered i j hsender

@[simp] theorem registered_add_self : (p.add k).Registered k := by simp [add, Registered]

@[simp] theorem slots_add_self : (p.add k).slots k = .empty := by simp [add]

theorem slots_add_cases (j k : κ) :
    (p.add k).slots j = p.slots j ∨ (p.add k).slots j = .empty ∨ (p.add k).slots j = .dropped := by
  by_cases hjk : j = k
  · exact .inr (.inl (by simp [hjk]))
  · simp only [add, Function.update_of_ne hjk, slots_settle]
    split_ifs
    · exact .inr (.inr rfl)
    · exact .inl rfl

theorem slots_add_of_not_registered (hjk : j ≠ k) (hj : ¬p.Registered j) : (p.add k).slots j = p.slots j := by
  simp [add, hjk, slots_settle_of_not_registered hj]

theorem not_registered_add (hjk : j ≠ k) (hj : ¬p.Registered j) : ¬(p.add k).Registered j := by
  unfold Registered at hj
  by_cases hident : ident j = ident k
  · simpa [add, Registered, hident] using hjk.symm
  · simpa [add, Registered, hident] using hj

theorem registered_add_of_ne (hident : ident j ≠ ident k) : (p.add k).Registered j ↔ p.Registered j := by
  simp [add, Registered, hident]

theorem slots_add_of_ne (hident : ident j ≠ ident k) : (p.add k).slots j = p.slots j := by
  have hjk : j ≠ k := fun h => hident (h ▸ rfl)
  simp [add, hjk, slots_settle, hident]

end Pending

end S2c
