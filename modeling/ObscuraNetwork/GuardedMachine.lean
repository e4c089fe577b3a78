import Mathlib.Logic.Relation
import Mathlib.Tactic.Common

namespace ObscuraNetwork

section GuardedMachine

variable {σ ι : Type} (step : σ → ι → Option σ) (allowed : σ → ι → Bool)

/-- The states that allowed steps lead to. -/
inductive Reaches (s₀ : σ) : σ → Prop
  | start : Reaches s₀ s₀
  | step {s s' : σ} {i : ι} (h : Reaches s₀ s) (hallowed : allowed s i = true)
      (hstep : step s i = some s') : Reaches s₀ s'

/-- A sequence of steps, as long as each is possible and allowed. -/
def stepAll : List ι → σ → Option σ
  | [], s => some s
  | i :: rest, s => if allowed s i then (step s i).bind (stepAll rest) else none

variable {step allowed} {s₀ s s' : σ}

theorem Reaches.stepAll (h : Reaches step allowed s₀ s) {is : List ι}
    (hrun : stepAll step allowed is s = some s') : Reaches step allowed s₀ s' := by
  induction is generalizing s with
  | nil =>
    cases hrun
    exact h
  | cons i rest ih =>
    rw [ObscuraNetwork.stepAll] at hrun
    split at hrun
    next hallowed =>
      obtain ⟨next, hstep, hrest⟩ := Option.bind_eq_some_iff.mp hrun
      exact ih (h.step hallowed hstep) hrest
    next => cases hrun

/-- What the start satisfies and every allowed step preserves holds of every state reached. -/
theorem Reaches.invariant {P : σ → Prop} (start : P s₀)
    (preserved : ∀ s i s', P s → allowed s i = true → step s i = some s' → P s')
    (h : Reaches step allowed s₀ s) : P s := by
  induction h with
  | start => exact start
  | step _ hallowed hstep ih => exact preserved _ _ _ ih hallowed hstep

/-- What the start satisfies and every allowed step preserves holds after every sequence, of the
state and the sequence. -/
theorem stepAll_invariant {P : σ → List ι → Prop} (start : P s₀ [])
    (preserved : ∀ s done i s', P s done → allowed s i = true → step s i = some s' →
      P s' (done ++ [i])) {is : List ι} (h : ObscuraNetwork.stepAll step allowed is s₀ = some s) :
    P s is := by
  have hrun : ∀ (done : List ι) (s₁ : σ), P s₁ done →
      ObscuraNetwork.stepAll step allowed is s₁ = some s → P s (done ++ is) := by
    clear h
    induction is with
    | nil =>
      intro done s₁ hs₁ h
      cases h
      rw [List.append_nil]
      exact hs₁
    | cons i rest ih =>
      intro done s₁ hs₁ h
      rw [ObscuraNetwork.stepAll] at h
      split at h
      next hallowed =>
        obtain ⟨next, hstep, hrest⟩ := Option.bind_eq_some_iff.mp h
        have hnext := ih (done ++ [i]) next (preserved s₁ done i next hs₁ hallowed hstep) hrest
        rwa [List.append_assoc] at hnext
      next => cases h
  exact hrun [] s₀ start h

/-- Where every allowed step is a step of another system, every run is a run of it. -/
theorem Reaches.simulates {τ : Type} {R : τ → τ → Prop} (f : σ → τ)
    (simulates : ∀ s i s', allowed s i = true → step s i = some s' → R (f s) (f s'))
    (h : Reaches step allowed s₀ s) : Relation.ReflTransGen R (f s₀) (f s) := by
  induction h with
  | start => exact .refl
  | step _ hallowed hstep ih => exact ih.tail (simulates _ _ _ hallowed hstep)

end GuardedMachine

end ObscuraNetwork
