import ObscuraNetwork.RollbackMachine
import Mathlib.Algebra.BigOperators.Group.Finset.Piecewise
import Mathlib.Algebra.GroupWithZero.Nat
import Mathlib.Algebra.Order.BigOperators.Group.Finset

namespace ObscuraNetwork

section MoveAmount

variable {κ : Type} [DecidableEq κ]

/-- One entry is debited and written back before the other one is read and credited. -/
def moveAmount (f : κ → Nat) (a b : κ) (n : Nat) : κ → Nat :=
  let debited := Function.update f a (f a - n)
  Function.update debited b (debited b + n)

/-- A sum over finitely many entries of which one is set anew. -/
theorem sum_update_entry (f : κ → Nat) {t : Finset κ} {a : κ} (ha : a ∈ t) (n : Nat) :
    ∑ k ∈ t, Function.update f a n k + f a = ∑ k ∈ t, f k + n := by
  have hbefore := Finset.sum_eq_add_sum_sdiff_singleton_of_mem ha f
  have hafter := Finset.sum_update_of_mem ha f n
  omega

variable [Fintype κ]

theorem sum_update (f : κ → Nat) (a : κ) (n : Nat) :
    ∑ k, Function.update f a n k + f a = ∑ k, f k + n :=
  sum_update_entry f (Finset.mem_univ a) n

theorem sum_single (a : κ) (n : Nat) : ∑ k, Function.update (fun _ => 0) a n k = n := by
  have h := sum_update (fun _ => 0) a n
  rw [Nat.add_zero, Finset.sum_const_zero (M := Nat), Nat.zero_add] at h
  exact h

/-- A move keeps the total, also one from an entry to itself. -/
theorem sum_moveAmount {f : κ → Nat} {a : κ} (b : κ) {n : Nat} (h : n ≤ f a) :
    ∑ k, moveAmount f a b n k = ∑ k, f k := by
  have hdebit := sum_update f a (f a - n)
  have hcredit := sum_update (Function.update f a (f a - n)) b
    (Function.update f a (f a - n) b + n)
  show ∑ k, Function.update (Function.update f a (f a - n)) b _ k = _
  omega

/-- What the other entry is credited to stays within the total. -/
theorem credit_le_sum {f : κ → Nat} {a : κ} (b : κ) {n : Nat} (h : n ≤ f a) :
    Function.update f a (f a - n) b + n ≤ ∑ k, f k := by
  have hentry : moveAmount f a b n b ≤ ∑ k, moveAmount f a b n k :=
    Finset.single_le_sum (fun _ _ => Nat.zero_le _) (Finset.mem_univ b)
  rw [sum_moveAmount b h, moveAmount, Function.update_self] at hentry
  exact hentry

omit [Fintype κ] in
theorem moveAmount_of_ne {f : κ → Nat} {a b k : κ} {n : Nat} (ha : k ≠ a) (hb : k ≠ b) :
    moveAmount f a b n k = f k := by
  rw [moveAmount, Function.update_of_ne hb, Function.update_of_ne ha]

end MoveAmount

section Budget

variable {σ ι ε : Type} {step : ι → σ → Except ε σ}

/-- Where every accepted step takes its cost out of a budget, what is left and the costs so far are
what there was. -/
theorem budget_run {budget : σ → Nat} {cost : ι → Nat} {P : ι → Prop}
    (hstep : ∀ s i s', step i s = .ok s' → P i → budget s' + cost i = budget s) {s : σ}
    {is : List ι} (h : ∀ i ∈ accepted step s is, P i) :
    budget (settleAll step s is) + ((accepted step s is).map cost).sum = budget s := by
  induction is generalizing s with
  | nil => rfl
  | cons i is ih =>
    rw [settleAll, List.foldl_cons]
    cases hi : step i s with
    | ok s' =>
      simp only [accepted, hi, List.forall_mem_cons] at h
      have hrest := ih h.2
      have hfirst := hstep s i s' hi h.1
      simp only [accepted, hi, settle_ok hi, List.map_cons, List.sum_cons]
      rw [settleAll] at hrest
      omega
    | error e =>
      simp only [accepted, hi] at h
      simp only [accepted, hi, settle_error hi]
      exact ih h

end Budget

end ObscuraNetwork
