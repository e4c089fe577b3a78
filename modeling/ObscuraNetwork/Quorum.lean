import Mathlib.Data.Finset.Card
import Mathlib.Data.List.Nodup

namespace ObscuraNetwork

namespace Quorum

variable {α : Type} [DecidableEq α] (quorum : Nat) (admits : α → Bool)

/-- Go through a list and collect the admitted entries, each once, until there are enough. -/
def collect : List α → List α → List α
  | [], seen => seen
  | a :: rest, seen =>
    if seen.length < quorum then
      if admits a = true ∧ a ∉ seen then collect rest (seen ++ [a]) else collect rest seen
    else seen

variable {quorum admits}

/-- What holds at first, and still when an admitted entry that is not among those collected is put
to them, holds in the end. -/
theorem collect_induction {P : List α → Prop} {xs seen : List α} (h : P seen)
    (step : ∀ seen, ∀ a ∈ xs, P seen → seen.length < quorum → admits a = true → a ∉ seen →
      P (seen ++ [a])) : P (collect quorum admits xs seen) := by
  induction xs generalizing seen with
  | nil => exact h
  | cons a rest ih =>
    have hrest : ∀ seen, P seen → P (collect quorum admits rest seen) :=
      fun seen h => ih h fun seen b hb => step seen b (List.mem_cons_of_mem a hb)
    rw [collect]
    split
    next hroom =>
      split
      next hnew => exact hrest _ (step seen a List.mem_cons_self h hroom hnew.1 hnew.2)
      next => exact hrest _ h
    next => exact h

theorem collect_length_le {xs seen : List α} (h : seen.length ≤ quorum) :
    (collect quorum admits xs seen).length ≤ quorum := by
  apply collect_induction (P := fun seen => seen.length ≤ quorum) h
  intro seen a _ _ hroom _ _
  rw [List.length_append, List.length_singleton]
  omega

theorem collect_nodup {xs seen : List α} (h : seen.Nodup) :
    (collect quorum admits xs seen).Nodup := by
  apply collect_induction h
  intro seen a _ hnodup _ _ hnew
  rw [← List.concat_eq_append]
  exact hnodup.concat hnew

/-- Whatever is collected was there before or is an admitted entry. -/
theorem mem_of_mem_collect {xs seen : List α} {a : α} (h : a ∈ collect quorum admits xs seen) :
    a ∈ seen ∨ (a ∈ xs ∧ admits a = true) := by
  have hall : ∀ a ∈ collect quorum admits xs seen, a ∈ seen ∨ (a ∈ xs ∧ admits a = true) := by
    apply collect_induction (P := fun taken => ∀ a ∈ taken, a ∈ seen ∨ (a ∈ xs ∧ admits a = true))
      (fun a ha => Or.inl ha)
    intro taken b hb htaken _ hadmits _ a ha
    rcases List.mem_append.mp ha with hold | hlast
    · exact htaken a hold
    · rw [List.mem_singleton.mp hlast]
      exact Or.inr ⟨hb, hadmits⟩
  exact hall a h

theorem collect_length_le_add {xs seen : List α} :
    (collect quorum admits xs seen).length ≤ seen.length + xs.length := by
  induction xs generalizing seen with
  | nil => exact le_rfl
  | cons a rest ih =>
    rw [collect, List.length_cons]
    split
    next =>
      split
      next =>
        have hrest := @ih (seen ++ [a])
        rw [List.length_append, List.length_singleton] at hrest
        omega
      next =>
        have hrest := @ih seen
        omega
    next => omega

/-- When too few are collected, none of the admitted entries has been left out. -/
theorem mem_collect_of_short {xs seen : List α}
    (hshort : (collect quorum admits xs seen).length < quorum) {a : α}
    (h : a ∈ seen ∨ (a ∈ xs ∧ admits a = true)) : a ∈ collect quorum admits xs seen := by
  induction xs generalizing seen with
  | nil => exact h.resolve_right fun hnil => List.not_mem_nil hnil.1
  | cons b rest ih =>
    rw [collect] at hshort ⊢
    split at hshort
    next hroom =>
      rw [if_pos hroom]
      split at hshort
      next hnew =>
        rw [if_pos hnew]
        apply ih hshort
        rcases h with hseen | ⟨hmem, hadmits⟩
        · exact Or.inl (List.mem_append_left _ hseen)
        · rcases List.mem_cons.mp hmem with rfl | hrest
          · exact Or.inl (by simp)
          · exact Or.inr ⟨hrest, hadmits⟩
      next hold =>
        rw [if_neg hold]
        apply ih hshort
        rcases h with hseen | ⟨hmem, hadmits⟩
        · exact Or.inl hseen
        · rcases List.mem_cons.mp hmem with rfl | hrest
          · exact Or.inl (by_contra fun hout => hold ⟨hadmits, hout⟩)
          · exact Or.inr ⟨hrest, hadmits⟩
    next hfull => exact absurd hshort hfull

/-- Enough are collected exactly when the list has that many different admitted entries, in
whatever order and however often they come. -/
theorem quorum_le_collect {xs : List α} : quorum ≤ (collect quorum admits xs []).length ↔
    ∃ members : Finset α, quorum ≤ members.card ∧ ∀ a ∈ members, a ∈ xs ∧ admits a = true := by
  have hnodup : (collect quorum admits xs []).Nodup := collect_nodup List.nodup_nil
  constructor
  · intro hfull
    refine ⟨(collect quorum admits xs []).toFinset, ?_, fun a ha => ?_⟩
    · rw [List.toFinset_card_of_nodup hnodup]
      exact hfull
    · exact (mem_of_mem_collect (List.mem_toFinset.mp ha)).resolve_left List.not_mem_nil
  · intro h
    obtain ⟨members, hcard, hmembers⟩ := h
    by_contra hshort
    have hsubset : members ⊆ (collect quorum admits xs []).toFinset := by
      intro a ha
      exact List.mem_toFinset.mpr (mem_collect_of_short (by omega) (Or.inr (hmembers a ha)))
    have hle := Finset.card_le_card hsubset
    rw [List.toFinset_card_of_nodup hnodup] at hle
    omega

end Quorum

end ObscuraNetwork
