import Mathlib.Logic.Relation

/-!
# Runs of a labelled transition system

`Run step s as s'` says that the actions `as`, taken in order from `s`, can end
in `s'`. The step relation may carry a guard, so "every run whose steps all meet
a condition" is a run of the guarded relation.

`Run.invariant` is the rule: what every step preserves holds at the end of every
run.
-/

namespace TinyOS.Lib

variable {σ α : Type*} {step : σ → α → σ → Prop}

/-- The actions, taken in order, lead from one state to the other. -/
inductive Run (step : σ → α → σ → Prop) : σ → List α → σ → Prop
  | nil (s : σ) : Run step s [] s
  | cons {s s₁ s₂ : σ} {a : α} {as : List α} (h : step s a s₁) (hs : Run step s₁ as s₂) :
      Run step s (a :: as) s₂

namespace Run

variable {s s' : σ} {as : List α}

/-- Inductive invariance over runs. -/
theorem invariant {inv : σ → Prop} (hstep : ∀ s a s', inv s → step s a s' → inv s')
    (hrun : Run step s as s') (hinit : inv s) : inv s' := by
  induction hrun with
  | nil s => exact hinit
  | cons h _ ih => exact ih (hstep _ _ _ hinit h)

theorem single {a : α} (h : step s a s') : Run step s [a] s' := .cons h (.nil s')

theorem append {s₁ : σ} {bs : List α} (h₁ : Run step s as s₁) (h₂ : Run step s₁ bs s') :
    Run step s (as ++ bs) s' := by
  induction h₁ with
  | nil s => exact h₂
  | cons h _ ih => exact .cons h (ih h₂)

/-- Actions carried out one after another by a function. -/
theorem of_foldl {f : σ → α → σ} (h : ∀ a ∈ as, ∀ s, step s a (f s a)) (s : σ) :
    Run step s as (as.foldl f s) := by
  induction as generalizing s with
  | nil => exact .nil s
  | cons a as ih =>
    have hrest : ∀ b ∈ as, ∀ s, step s b (f s b) := fun b hb => h b (.tail a hb)
    exact .cons (h a (.head as) s) (ih hrest (f s a))

/-- The same, where the function may fail. -/
theorem of_foldlM {ε : Type*} {f : σ → α → Except ε σ} (h : as.foldlM f s = .ok s') :
    Run (fun s a s' => f s a = .ok s') s as s' := by
  induction as generalizing s with
  | nil =>
    cases h
    exact .nil _
  | cons a as ih =>
    rw [List.foldlM_cons] at h
    rcases hf : f s a with e | s₁
    · rw [hf] at h
      cases h
    · rw [hf] at h
      exact .cons hf (ih h)

theorem of_foldlM_some {f : σ → α → Option σ} (h : as.foldlM f s = some s') :
    Run (fun s a s' => f s a = some s') s as s' := by
  induction as generalizing s with
  | nil =>
    cases h
    exact .nil _
  | cons a as ih =>
    obtain ⟨s₁, hf, hrest⟩ := Option.bind_eq_some_iff.mp h
    exact .cons hf (ih hrest)

theorem mono {step' : σ → α → σ → Prop} (hrun : Run step s as s')
    (h : ∀ s a s', step s a s' → step' s a s') : Run step' s as s' := by
  induction hrun with
  | nil s => exact .nil s
  | cons hstep _ ih => exact .cons (h _ _ _ hstep) ih

/-- The same, for actions that all meet a guard that is checked on the way. -/
theorem of_foldlM_some_guarded {f : σ → α → Option σ} {guard : σ → α → Prop}
    [∀ s a, Decidable (guard s a)]
    (h : as.foldlM (fun s a => if guard s a then f s a else none) s = some s') :
    Run (fun s a s' => guard s a ∧ f s a = some s') s as s' := by
  apply (of_foldlM_some h).mono
  intro s a s' hstep
  exact Option.ite_none_right_eq_some.mp hstep

theorem of_foldlM_guarded {ε : Type*} {f : σ → α → Except ε σ} {guard : σ → α → Prop}
    [∀ s a, Decidable (guard s a)] {e : ε}
    (h : as.foldlM (fun s a => if guard s a then f s a else .error e) s = .ok s') :
    Run (fun s a s' => guard s a ∧ f s a = .ok s') s as s' := by
  apply (of_foldlM h).mono
  intro s a s' hstep
  by_cases hguard : guard s a
  · rw [if_pos hguard] at hstep
    exact ⟨hguard, hstep⟩
  · rw [if_neg hguard] at hstep
    cases hstep

end Run

/-! ## Computations that return -/

section returns

universe u

variable {ε : Type*} {α β : Type u}

theorem map_returns {x : Except ε α} {f : α → β} {b : β} (h : x.map f = .ok b) :
    ∃ a, x = .ok a ∧ f a = b := by
  rcases x with e | a
  · cases h
  · exact ⟨a, rfl, Except.ok.inj h⟩

theorem bind_returns {x : Except ε α} {f : α → Except ε β} {b : β} (h : (x >>= f) = .ok b) :
    ∃ a, x = .ok a ∧ f a = .ok b := by
  rcases x with e | a
  · cases h
  · exact ⟨a, rfl, h⟩

/-- A computation that is seen to return something with a property. -/
theorem returns_of_any {x : Except ε α} {p : α → Bool} (h : x.toOption.any p = true) :
    ∃ a, x = .ok a ∧ p a = true := by
  rcases x with e | a
  · cases h
  · exact ⟨a, rfl, h⟩

/-- What every turn of a loop keeps, the loop keeps. -/
theorem foldlM_keeps {R : σ → Prop} {f : σ → α → Except ε σ} {as : List α} {s s' : σ}
    (hturn : ∀ s a s', R s → f s a = .ok s' → R s') (h : as.foldlM f s = .ok s') (hs : R s) :
    R s' :=
  (Run.of_foldlM h).invariant hturn hs

end returns

end TinyOS.Lib
