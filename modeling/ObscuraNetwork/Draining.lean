import Mathlib.Data.List.Chain
import Mathlib.Tactic.Common

namespace ObscuraNetwork

section Draining

variable {σ ε : Type}

/-- The states behind the calls that return true, up to the first one that returns false. -/
inductive Drains (next : σ → Except ε (Bool × σ)) : σ → List σ → Prop
  | refused {s s' : σ} (h : next s = .ok (false, s')) : Drains next s []
  | consumed {s s' : σ} {later : List σ} (h : next s = .ok (true, s'))
      (rest : Drains next s' later) : Drains next s (s' :: later)

/-- In the states of an invariant a number is what the calls are worth: one returns true as long as
it is positive and takes one away. -/
structure Worth (next : σ → Except ε (Bool × σ)) (I : σ → Prop) (worth : σ → Nat) : Prop where
  empty : ∀ s, I s → worth s = 0 → ∃ s', next s = .ok (false, s')
  take : ∀ s, I s → 0 < worth s → ∃ s', next s = .ok (true, s') ∧ worth s' + 1 = worth s ∧ I s'

variable {next : σ → Except ε (Bool × σ)} {I : σ → Prop} {worth : σ → Nat} {s : σ}

theorem Drains.unique {xs ys : List σ} (hx : Drains next s xs) (hy : Drains next s ys) :
    xs = ys := by
  induction hx generalizing ys with
  | refused h =>
    cases hy with
    | refused => rfl
    | consumed h' => simp [h] at h'
  | consumed h _ ih =>
    cases hy with
    | refused h' => simp [h] at h'
    | consumed h' rest' =>
      have hsame := Except.ok.inj (h.symm.trans h')
      obtain ⟨_, rfl⟩ := Prod.mk.inj hsame
      rw [ih rest']

/-- So many calls return true, each of them takes one away, and the next one returns false. -/
theorem Worth.drains (h : Worth next I worth) (hs : I s) :
    ∃ later, Drains next s later ∧ later.length = worth s ∧
      List.IsChain (fun a b => worth b + 1 = worth a) (s :: later) := by
  induction hn : worth s generalizing s with
  | zero =>
    obtain ⟨s', hrefused⟩ := h.empty s hs hn
    exact ⟨[], .refused hrefused, rfl, List.isChain_singleton s⟩
  | succ n ih =>
    obtain ⟨s', hconsumed, hworth, hs'⟩ := h.take s hs (by omega)
    obtain ⟨later, hrest, hlen, hchain⟩ := ih hs' (by omega)
    refine ⟨s' :: later, .consumed hconsumed hrest, ?_, List.isChain_cons_cons.mpr ⟨hworth, hchain⟩⟩
    rw [List.length_cons, hlen]

theorem Worth.pos_iff (h : Worth next I worth) (hs : I s) :
    0 < worth s ↔ ∃ s', next s = .ok (true, s') := by
  constructor
  · intro hpos
    obtain ⟨s', hconsumed, _⟩ := h.take s hs hpos
    exact ⟨s', hconsumed⟩
  · intro hconsumed
    obtain ⟨s', hconsumed⟩ := hconsumed
    by_contra hzero
    obtain ⟨s'', hrefused⟩ := h.empty s hs (by omega)
    simp [hconsumed] at hrefused

end Draining

end ObscuraNetwork
