import Mathlib.Data.List.Induction
import Mathlib.Tactic.Common

namespace S2c.Machine

variable {σ ε : Type}

/-- The state a list of events leads to; `none` when one of them is not enabled where it falls. -/
def exec (step : σ → ε → Option σ) : σ → List ε → Option σ
  | s, [] => some s
  | s, e :: es => (step s e).bind (fun t => exec step t es)

def Reachable (step : σ → ε → Option σ) (s t : σ) : Prop := ∃ es, exec step s es = some t

def Along (step : σ → ε → Option σ) (P : σ → ε → Prop) : σ → List ε → Prop
  | _, [] => True
  | s, e :: es => ∀ t, step s e = some t → P s e ∧ Along step P t es

def Always (step : σ → ε → Option σ) (I : σ → Prop) (s : σ) (es : List ε) : Prop :=
  ∀ pre, pre <+: es → ∀ t, exec step s pre = some t → I t

variable {step : σ → ε → Option σ} {P : σ → ε → Prop} {I : σ → Prop} {s t : σ} {es : List ε}

@[simp] theorem exec_nil : exec step s [] = some s := rfl

theorem exec_cons {e : ε} : exec step s (e :: es) = (step s e).bind (fun t => exec step t es) := rfl

theorem exec_append (fs : List ε) :
    exec step s (es ++ fs) = (exec step s es).bind (fun t => exec step t fs) := by
  induction es generalizing s with
  | nil => rfl
  | cons e es ih =>
    simp only [List.cons_append, exec_cons]
    cases step s e with
    | none => rfl
    | some m => exact ih

theorem exec_map {τ δ : Type} {step' : τ → δ → Option τ} (g : σ → τ) (f : ε → δ)
    (hstep : ∀ s, ∀ e ∈ es, step' (g s) (f e) = (step s e).map g) :
    exec step' (g s) (es.map f) = (exec step s es).map g := by
  induction es generalizing s with
  | nil => rfl
  | cons e es ih =>
    rw [List.map_cons, exec_cons, hstep s e List.mem_cons_self, exec_cons]
    cases step s e with
    | none => rfl
    | some m => exact ih (fun s e he => hstep s e (List.mem_cons_of_mem _ he))

theorem Reachable.refl (s : σ) : Reachable step s s := ⟨[], rfl⟩

theorem Reachable.trans {u : σ} (h : Reachable step s t) (h' : Reachable step t u) :
    Reachable step s u := by
  obtain ⟨es, hes⟩ := h
  obtain ⟨fs, hfs⟩ := h'
  exact ⟨es ++ fs, by rw [exec_append, hes]; exact hfs⟩

theorem Reachable.single {e : ε} (h : step s e = some t) : Reachable step s t :=
  ⟨[e], by simp [exec_cons, h]⟩

theorem invariant_along (hstep : ∀ s e t, I s → P s e → step s e = some t → I t)
    (hI : I s) (hP : Along step P s es) (h : exec step s es = some t) : I t := by
  induction es generalizing s with
  | nil =>
    cases h
    exact hI
  | cons e es ih =>
    obtain ⟨m, hm, hes⟩ := Option.bind_eq_some_iff.mp h
    obtain ⟨hPe, hrest⟩ := hP m hm
    exact ih (hstep s e m hI hPe hm) hrest hes

theorem along_of_forall (hP : ∀ s e, e ∈ es → P s e) : Along step P s es := by
  induction es generalizing s with
  | nil => trivial
  | cons e es ih =>
    intro m _
    exact ⟨hP s e List.mem_cons_self, ih (fun s e he => hP s e (List.mem_cons_of_mem _ he))⟩

theorem along_iff_forall {Q : ε → Prop} (htotal : ∀ s e, (step s e).isSome) :
    Along step (fun _ e => Q e) s es ↔ ∀ e ∈ es, Q e := by
  constructor
  · intro h
    induction es generalizing s with
    | nil => simp
    | cons e es ih =>
      obtain ⟨m, hm⟩ := Option.isSome_iff_exists.mp (htotal s e)
      obtain ⟨hQe, hrest⟩ := h m hm
      exact List.forall_mem_cons.mpr ⟨hQe, ih hrest⟩
  · intro h
    apply along_of_forall
    intro _ e he
    exact h e he

theorem along_cons {e : ε} (h : step s e = some t) :
    Along step P s (e :: es) ↔ P s e ∧ Along step P t es := by
  constructor
  · intro hall
    exact hall t h
  · intro hboth m hm
    cases h.symm.trans hm
    exact hboth

theorem invariant (hstep : ∀ s e t, I s → step s e = some t → I t)
    (hI : I s) (h : Reachable step s t) : I t := by
  obtain ⟨es, hes⟩ := h
  exact invariant_along (P := fun _ _ => True) (fun s e t hs _ => hstep s e t hs) hI
    (along_of_forall (fun _ _ _ => trivial)) hes

theorem reachable_view {τ δ : Type} {step' : τ → δ → Option τ} (view : τ → σ)
    (hsim : ∀ s e t, step' s e = some t → Reachable step (view s) (view t)) {s t : τ}
    (h : Reachable step' s t) : Reachable step (view s) (view t) := by
  apply invariant (I := fun u => Reachable step (view s) (view u)) _ (Reachable.refl _) h
  intro u e w hu he
  exact hu.trans (hsim u e w he)

theorem Along.of_exec {pre post : List ε} {m : σ} {e : ε} (h : Along step P s (pre ++ e :: post))
    (hpre : exec step s pre = some m) (hm : step m e = some t) : P m e := by
  induction pre generalizing s with
  | nil =>
    cases hpre
    exact (h t hm).1
  | cons d pre ih =>
    obtain ⟨u, hu, hrest⟩ := Option.bind_eq_some_iff.mp hpre
    exact ih (h u hu).2 hrest

theorem Along.mono {Q : σ → ε → Prop} (hstep : ∀ s e t, I s → P s e → step s e = some t → I t ∧ Q s e)
    (hI : I s) (h : Along step P s es) : Along step Q s es := by
  induction es generalizing s with
  | nil => trivial
  | cons e es ih =>
    intro m hm
    obtain ⟨hPe, hrest⟩ := h m hm
    obtain ⟨hIm, hQ⟩ := hstep s e m hI hPe hm
    exact ⟨hQ, ih hIm hrest⟩

theorem along_congr {J : σ → Prop} {Q : σ → ε → Prop} (hkeep : ∀ s e t, J s → step s e = some t → J t)
    (hiff : ∀ s e t, J s → step s e = some t → (P s e ↔ Q s e)) (hJ : J s) :
    Along step P s es ↔ Along step Q s es := by
  constructor
  · apply Along.mono _ hJ
    intro s e t hs hP h
    exact ⟨hkeep s e t hs h, (hiff s e t hs h).mp hP⟩
  · apply Along.mono _ hJ
    intro s e t hs hQ h
    exact ⟨hkeep s e t hs h, (hiff s e t hs h).mpr hQ⟩

theorem forall_of_exec {Q : ε → Prop} (hstep : ∀ s e t, step s e = some t → I t → I s ∧ Q e)
    (h : exec step s es = some t) (hI : I t) : ∀ e ∈ es, Q e := by
  have hback : I s ∧ ∀ e ∈ es, Q e := by
    induction es generalizing s with
    | nil =>
      cases h
      exact ⟨hI, by simp⟩
    | cons e es ih =>
      obtain ⟨m, hm, hes⟩ := Option.bind_eq_some_iff.mp h
      obtain ⟨hIm, hrest⟩ := ih hes
      obtain ⟨hIs, hQ⟩ := hstep s e m hm hIm
      exact ⟨hIs, List.forall_mem_cons.mpr ⟨hQ, hrest⟩⟩
  exact hback.2

theorem Along.of_prefix {pre : List ε} (h : Along step P s es) (hpre : pre <+: es) :
    Along step P s pre := by
  induction pre generalizing s es with
  | nil => trivial
  | cons e pre ih =>
    obtain ⟨rest, rfl⟩ := hpre
    intro m hm
    exact ⟨(h m hm).1, ih (h m hm).2 (List.prefix_append pre rest)⟩

/-- When one step keeps `I` exactly under `P`, a whole run keeps it exactly under `P` at each step.
`J` is what every step from `I` keeps. -/
theorem always_iff_along {J : σ → Prop} (hkeep : ∀ s e t, J s → I s → step s e = some t → J t)
    (hstep : ∀ s e t, J s → I s → step s e = some t → (I t ↔ P s e)) (hJ : J s) (hI : I s) :
    Always step I s es ↔ Along step P s es := by
  constructor
  · intro h
    induction es generalizing s with
    | nil => trivial
    | cons e es ih =>
      intro m hm
      have hIm : I m := h [e] (by simp) m (by simp [exec_cons, hm])
      refine ⟨(hstep s e m hJ hI hm).mp hIm, ih (hkeep s e m hJ hI hm) hIm ?_⟩
      intro pre hpre t ht
      exact h (e :: pre) (by simpa using hpre) t (by rw [exec_cons, hm]; exact ht)
  · intro h pre hpre t ht
    have hboth : J t ∧ I t := by
      apply invariant_along (I := fun s => J s ∧ I s) _ ⟨hJ, hI⟩ (h.of_prefix hpre) ht
      rintro s e m ⟨hs, hi⟩ hP hm
      exact ⟨hkeep s e m hs hi hm, (hstep s e m hs hi hm).mpr hP⟩
    exact hboth.2

end S2c.Machine
