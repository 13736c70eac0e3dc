import Mathlib.Logic.Function.Basic
import Mathlib.Order.Defs.Unbundled
import S2c.Machine

namespace S2c.WriteOnce

variable {κ α : Type}

def Extends (m m' : κ → Option α) : Prop := ∀ k v, m k = some v → m' k = some v

theorem Extends.refl (m : κ → Option α) : Extends m m := fun _ _ h => h

theorem Extends.trans {m m' m'' : κ → Option α} (h : Extends m m') (h' : Extends m' m'') :
    Extends m m'' := fun k v hk => h' k v (h k v hk)

theorem extends_of_reachable {σ ε : Type} {step : σ → ε → Option σ} (view : σ → κ → Option α)
    (hstep : ∀ s e t, step s e = some t → Extends (view s) (view t)) {s t : σ}
    (h : Machine.Reachable step s t) : Extends (view s) (view t) := by
  apply Machine.invariant (I := fun u => Extends (view s) (view u)) _ (Extends.refl _) h
  intro u e w hu he
  exact hu.trans (hstep u e w he)

variable [DecidableEq κ]

def create (m : κ → Option α) (k : κ) (v : α) : κ → Option α :=
  Function.update m k (some ((m k).getD v))

theorem create_free {m : κ → Option α} {k : κ} (v : α) (h : m k = none) : create m k v k = some v := by
  simp [create, h]

theorem create_taken {m : κ → Option α} {k : κ} {w : α} (v : α) (h : m k = some w) :
    create m k v = m := by
  funext j
  by_cases hj : j = k
  · subst hj
    simp [create, h]
  · simp [create, hj]

theorem create_ne {m : κ → Option α} {k j : κ} (v : α) (h : j ≠ k) : create m k v j = m j := by
  simp [create, h]

theorem extends_create (m : κ → Option α) (k : κ) (v : α) : Extends m (create m k v) := by
  intro j w hj
  by_cases h : j = k
  · subst h
    rw [create_taken v hj, hj]
  · rw [create_ne v h, hj]

end S2c.WriteOnce
