import ObscuraNetwork.RollbackMachine
import Mathlib.Order.Interval.Finset.Nat

namespace ObscuraNetwork

namespace DwellTime

/-- The seconds from `a` up to `b` at which something holds. -/
def seconds (p : Nat → Bool) (a b : Nat) : Nat :=
  ((Finset.Ico a b).filter fun t => p t = true).card

theorem seconds_none {p : Nat → Bool} (h : ∀ t, p t = false) (a b : Nat) : seconds p a b = 0 := by
  rw [seconds, Finset.card_eq_zero, Finset.filter_eq_empty_iff]
  intro t _
  rw [h t]
  exact Bool.false_ne_true

theorem seconds_until {p : Nat → Bool} {expiry : Nat} (h : ∀ t, p t = decide (t < expiry))
    (a b : Nat) : seconds p a b = min b expiry - a := by
  have hfilter : ((Finset.Ico a b).filter fun t => p t = true) = Finset.Ico a (min b expiry) := by
    ext t
    rw [Finset.mem_filter, Finset.mem_Ico, Finset.mem_Ico, h t, decide_eq_true_eq, lt_min_iff]
    omega
  rw [seconds, hfilter, Nat.card_Ico]

section Machine

variable {σ ι : Type} (time : ι → Nat) (step : σ → ι → σ) (on : σ → Nat → Bool)

/-- How long a machine has been on from `clock` until `stop`, its inputs coming at their times. -/
def dwell : σ → Nat → List ι → Nat → Nat
  | s, clock, [], stop => seconds (on s) clock stop
  | s, clock, i :: rest, stop =>
    seconds (on s) clock (time i) + dwell (step s i) (time i) rest stop

/-- How many inputs of a run are taken in a state where they count. -/
def countSteps (counts : σ → ι → Bool) : σ → List ι → Nat
  | _, [] => 0
  | s, i :: rest => (counts s i).toNat + countSteps counts (step s i) rest

variable {time step on}

theorem countSteps_concat {counts : σ → ι → Bool} {s : σ} {is : List ι} {i : ι} :
    countSteps step counts s (is ++ [i]) =
      countSteps step counts s is + (counts (is.foldl step s) i).toNat := by
  induction is generalizing s with
  | nil => exact Nat.add_comm _ 0
  | cons j rest ih => rw [List.cons_append, countSteps, countSteps, List.foldl_cons, ih, add_assoc]

theorem dwell_concat {s : σ} {clock : Nat} {is : List ι} {i : ι} {stop : Nat} :
    dwell time step on s clock (is ++ [i]) stop = dwell time step on s clock is (time i) +
      seconds (on ((is ++ [i]).foldl step s)) (time i) stop := by
  induction is generalizing s clock with
  | nil => rfl
  | cons j rest ih =>
    rw [List.cons_append, dwell, dwell, List.foldl_cons, ih, add_assoc]

/-- Where the time that is left goes down by the seconds the machine is on, and up by a fixed grant
at every input that counts, what was used and what is left add up to the grants. -/
theorem dwell_add_left {left : σ → Nat → Nat} {counts : σ → ι → Bool} {grant : Nat}
    (hspend : ∀ s a b, a ≤ b → seconds (on s) a b + left s b = left s a) {s : σ} {clock : Nat}
    {is : List ι} {stop : Nat}
    (hgrant : EveryStep step (fun s i => left (step s i) (time i) =
      left s (time i) + grant * (counts s i).toNat) s is)
    (hordered : (is.map time).Pairwise (· ≤ ·)) (hstart : ∀ i ∈ is, clock ≤ time i)
    (hstop : ∀ i ∈ is, time i ≤ stop) (hclock : clock ≤ stop) :
    dwell time step on s clock is stop + left (is.foldl step s) stop =
      left s clock + grant * countSteps step counts s is := by
  induction is generalizing s clock with
  | nil => exact hspend s clock stop hclock
  | cons i rest ih =>
    obtain ⟨hi, hrest⟩ := hgrant
    rw [List.map_cons, List.pairwise_cons] at hordered
    have hlater : ∀ j ∈ rest, time i ≤ time j :=
      fun j hj => hordered.1 _ (List.mem_map_of_mem hj)
    have htail := ih hrest hordered.2 hlater (fun j hj => hstop j (List.mem_cons_of_mem i hj))
      (hstop i List.mem_cons_self)
    have hhead := hspend s clock (time i) (hstart i List.mem_cons_self)
    rw [dwell, countSteps, List.foldl_cons, Nat.mul_add]
    omega

end Machine

end DwellTime

end ObscuraNetwork
