import ObscuraNetwork.Outcome

namespace ObscuraNetwork

section Returns

variable {α β : Type} {Q : α → Prop} {R : β → Prop}

/-- The call does not panic, and what it returns, if anything, has the property. -/
def Returns (x : Outcome α) (Q : α → Prop) : Prop := NoPanic x ∧ ∀ a, x = .ok a → Q a

theorem returns_ok {a : α} : Returns (.ok a) Q ↔ Q a := by
  constructor
  · exact fun h => h.2 a rfl
  · intro h
    refine ⟨noPanic_ok a, fun a' ha => ?_⟩
    cases ha
    exact h

theorem returns_bail {message : String} : Returns (.error (.bail message)) Q :=
  ⟨noPanic_bail message, fun _ h => by simp at h⟩

theorem not_returns_panic {message : String} : ¬Returns (.error (.panic message)) Q :=
  fun h => h.1 message rfl

/-- What is left to show behind a call is shown of everything that it returns. -/
theorem returns_bind {x : Outcome α} {f : α → Outcome β} :
    Returns (x >>= f) R ↔ Returns x fun a => Returns (f a) R := by
  cases x with
  | ok a => rw [ok_bind, returns_ok]
  | error e =>
    cases e with
    | bail message => exact iff_of_true returns_bail returns_bail
    | panic message => exact iff_of_false not_returns_panic not_returns_panic

theorem returns_of_noPanic {x : Outcome α} (h : NoPanic x) :
    Returns x Q ↔ ∀ a, x = .ok a → Q a := and_iff_right h

end Returns

end ObscuraNetwork
