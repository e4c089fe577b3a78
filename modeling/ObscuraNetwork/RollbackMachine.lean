import Mathlib.Data.List.Induction
import Mathlib.Tactic.Common

namespace ObscuraNetwork

section EveryStep

variable {σ ι : Type} (next : σ → ι → σ)

/-- Every input of a run is taken in a state with which it stands in a relation. -/
def EveryStep (P : σ → ι → Prop) : σ → List ι → Prop
  | _, [] => True
  | s, i :: rest => P s i ∧ EveryStep P (next s i) rest

variable {next} {P : σ → ι → Prop}

theorem EveryStep.imp {Q : σ → ι → Prop} (h : ∀ s i, P s i → Q s i) {s : σ} {is : List ι}
    (hall : EveryStep next P s is) : EveryStep next Q s is := by
  induction is generalizing s with
  | nil => trivial
  | cons i rest ih => exact ⟨h s i hall.1, ih hall.2⟩

theorem everyStep_append {s : σ} {is js : List ι} :
    EveryStep next P s (is ++ js) ↔
      EveryStep next P s is ∧ EveryStep next P (is.foldl next s) js := by
  induction is generalizing s with
  | nil => exact (and_iff_right trivial).symm
  | cons i rest ih =>
    rw [List.cons_append, EveryStep, EveryStep, List.foldl_cons, ih, and_assoc]

theorem everyStep_concat {s : σ} {is : List ι} {i : ι} :
    EveryStep next P s (is ++ [i]) ↔ EveryStep next P s is ∧ P (is.foldl next s) i := by
  rw [everyStep_append, EveryStep, EveryStep, and_true]

/-- Where a property is kept by a step exactly when the relation holds, it is kept by every step of
a run exactly when the relation holds all along. -/
theorem everyStep_iff_forall_initial {I : σ → Prop} (h : ∀ s i, I s → (I (next s i) ↔ P s i))
    {s : σ} (hs : I s) {is : List ι} :
    EveryStep next P s is ↔ ∀ done, done <+: is → I (done.foldl next s) := by
  induction is generalizing s with
  | nil =>
    refine iff_of_true trivial fun done hdone => ?_
    rw [List.prefix_nil.mp hdone]
    exact hs
  | cons i rest ih =>
    constructor
    · intro hall done hdone
      rcases List.prefix_cons_iff.mp hdone with rfl | ⟨later, rfl, hlater⟩
      · exact hs
      · exact (ih ((h s i hs).mpr hall.1)).mp hall.2 later hlater
    · intro hall
      have hnext : I (next s i) := hall [i] (List.prefix_append [i] rest)
      refine ⟨(h s i hs).mp hnext, (ih hnext).mpr fun done hdone => ?_⟩
      exact hall (i :: done) (List.cons_prefix_cons.mpr ⟨rfl, hdone⟩)

end EveryStep

section RollbackMachine

variable {σ ι ε : Type} (step : ι → σ → Except ε σ)

/-- Take a step; a failed one is rolled back and leaves the state as it was. -/
def settle (s : σ) (i : ι) : σ :=
  match step i s with
  | .ok s' => s'
  | .error _ => s

def settleAll (s : σ) (is : List ι) : σ := is.foldl (settle step) s

/-- The steps of a sequence that did not fail, in order. -/
def accepted : σ → List ι → List ι
  | _, [] => []
  | s, i :: is =>
    match step i s with
    | .ok s' => i :: accepted s' is
    | .error _ => accepted s is

variable {step}

theorem accepted_sublist (s : σ) (is : List ι) : (accepted step s is).Sublist is := by
  induction is generalizing s with
  | nil => exact List.Sublist.refl []
  | cons i is ih =>
    unfold accepted
    split
    next s' _ => exact (ih s').cons_cons i
    next => exact (ih s).cons i

theorem settle_ok {s s' : σ} {i : ι} (h : step i s = .ok s') : settle step s i = s' := by
  simp [settle, h]

theorem settle_error {s : σ} {i : ι} {e : ε} (h : step i s = .error e) : settle step s i = s := by
  simp [settle, h]

theorem settleAll_append (s : σ) (is js : List ι) :
    settleAll step s (is ++ js) = settleAll step (settleAll step s is) js :=
  List.foldl_append

theorem settleAll_concat (s : σ) (is : List ι) (i : ι) :
    settleAll step s (is ++ [i]) = settle step (settleAll step s is) i :=
  settleAll_append s is [i]

variable (step) in
theorem accepted_append (s : σ) (is js : List ι) :
    accepted step s (is ++ js) = accepted step s is ++ accepted step (settleAll step s is) js := by
  induction is generalizing s with
  | nil => rfl
  | cons i is ih =>
    simp only [List.cons_append, accepted, settleAll, List.foldl_cons, settle]
    cases h : step i s with
    | ok s' => simpa [settleAll] using ih s'
    | error e => simpa [settleAll] using ih s

theorem accepted_singleton_ok {s s' : σ} {i : ι} (h : step i s = .ok s') :
    accepted step s [i] = [i] := by
  simp [accepted, h]

theorem accepted_singleton_error {s : σ} {i : ι} {e : ε} (h : step i s = .error e) :
    accepted step s [i] = [] := by
  simp [accepted, h]

/-- What the start satisfies and every successful step preserves holds after every sequence, of the
state and the steps accepted so far. -/
theorem run_invariant {P : σ → List ι → Prop} {s₀ : σ} (start : P s₀ [])
    (preserved : ∀ s done i s', P s done → step i s = .ok s' → P s' (done ++ [i]))
    (is : List ι) : P (settleAll step s₀ is) (accepted step s₀ is) := by
  induction is using List.reverseRecOn with
  | nil => exact start
  | append_singleton is i ih =>
    rw [settleAll_concat, accepted_append]
    cases h : step i (settleAll step s₀ is) with
    | ok s' =>
      rw [settle_ok h, accepted_singleton_ok h]
      exact preserved _ _ _ _ ih h
    | error e =>
      rw [settle_error h, accepted_singleton_error h, List.append_nil]
      exact ih

end RollbackMachine

section Morphism

variable {σ τ ι κ ε : Type} {step : ι → σ → Except ε σ} {step' : κ → τ → Except ε τ}

/-- Where each step of a machine, taken in a state that it keeps to, is the step of another under
two maps, so is every run, and the same steps fail. -/
theorem settleAll_map_of_invariant {I : σ → Prop} {f : σ → τ} {g : ι → κ} {s : σ} (start : I s)
    (kept : ∀ i s s', I s → step i s = .ok s' → I s')
    (h : ∀ i s, I s → f <$> step i s = step' (g i) (f s)) (is : List ι) :
    f (settleAll step s is) = settleAll step' (f s) (is.map g) ∧
      accepted step' (f s) (is.map g) = (accepted step s is).map g := by
  induction is generalizing s with
  | nil => exact ⟨rfl, rfl⟩
  | cons i is ih =>
    have hstep := h i s start
    simp only [settleAll, List.foldl_cons, List.map_cons, accepted]
    cases hi : step i s with
    | ok s' =>
      have hmapped : step' (g i) (f s) = .ok (f s') := by
        rw [← hstep, hi]
        rfl
      obtain ⟨hstate, haccepted⟩ := ih (kept i s s' start hi)
      rw [settle_ok hi, settle_ok hmapped, hmapped]
      exact ⟨hstate, congrArg (g i :: ·) haccepted⟩
    | error e =>
      have hmapped : step' (g i) (f s) = .error e := by
        rw [← hstep, hi]
        rfl
      rw [settle_error hi, settle_error hmapped, hmapped]
      exact ih start

theorem settleAll_map {f : σ → τ} {g : ι → κ} (h : ∀ i s, f <$> step i s = step' (g i) (f s))
    (s : σ) (is : List ι) :
    f (settleAll step s is) = settleAll step' (f s) (is.map g) ∧
      accepted step' (f s) (is.map g) = (accepted step s is).map g :=
  settleAll_map_of_invariant (I := fun _ => True) trivial (fun _ _ _ _ _ => trivial)
    (fun i s _ => h i s) is

end Morphism

end ObscuraNetwork
