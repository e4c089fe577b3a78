import Mathlib.Data.List.Nodup
import Mathlib.Data.Set.Insert
import Mathlib.Logic.Relation

namespace ObscuraNetwork

/-- Where an actor stands: it works on nothing, means to send for a key, or has sent for it. -/
inductive Phase (κ : Type) where
  | idle
  | trying (key : κ)
  | sent (key : κ)

/-- Actors that each send for keys, the keys on record, those whose outcome was lost, and all that
was ever sent. -/
structure Attempts (ι κ : Type) where
  phase : ι → Phase κ
  recorded : Set κ
  lost : Set κ
  sends : List κ

namespace Attempts

variable {ι κ : Type}

def Busy (s : Attempts ι κ) (i : ι) (key : κ) : Prop :=
  s.phase i = .trying key ∨ s.phase i = .sent key

/-- One actor goes over to a phase, and the others stay where they are. -/
def Moves (s : Attempts ι κ) (i : ι) (target : Phase κ) (phase : ι → Phase κ) : Prop :=
  phase i = target ∧ ∀ j, j ≠ i → phase j = s.phase j

/-- A key is begun when nobody works on it and it is neither on record nor lost; the record never
shrinks. -/
inductive Step (s : Attempts ι κ) : Attempts ι κ → Prop
  | keep {recorded : Set κ} (h : s.recorded ⊆ recorded) :
      Step s ⟨s.phase, recorded, s.lost, s.sends⟩
  | begin {i : ι} {key : κ} {phase : ι → Phase κ} (hmoves : s.Moves i (.trying key) phase)
      (hidle : s.phase i = .idle) (hnew : key ∉ s.recorded) (hlost : key ∉ s.lost)
      (hfree : ∀ j, ¬s.Busy j key) : Step s ⟨phase, s.recorded, s.lost, s.sends⟩
  | quit {i : ι} {key : κ} {phase : ι → Phase κ} (hmoves : s.Moves i .idle phase)
      (h : s.phase i = .trying key) : Step s ⟨phase, s.recorded, s.lost, s.sends⟩
  | send {i : ι} {key : κ} {phase : ι → Phase κ} (hmoves : s.Moves i (.sent key) phase)
      (h : s.phase i = .trying key) : Step s ⟨phase, s.recorded, s.lost, s.sends ++ [key]⟩
  | record {i : ι} {key : κ} {phase : ι → Phase κ} {recorded : Set κ}
      (hmoves : s.Moves i .idle phase) (h : s.phase i = .sent key)
      (hkept : s.recorded ⊆ recorded) (hkey : key ∈ recorded) :
      Step s ⟨phase, recorded, s.lost, s.sends⟩
  | lose {i : ι} {key : κ} {phase : ι → Phase κ} (hmoves : s.Moves i .idle phase)
      (h : s.phase i = .sent key) : Step s ⟨phase, s.recorded, insert key s.lost, s.sends⟩

/-- What is sent is on record, lost or still with the one actor that sent it. -/
structure Invariant (s : Attempts ι κ) : Prop where
  nodup : s.sends.Nodup
  kept : ∀ key ∈ s.sends, key ∈ s.recorded ∨ key ∈ s.lost ∨ ∃ i, s.phase i = .sent key
  unsent : ∀ i key, s.phase i = .trying key → key ∉ s.sends
  alone : ∀ i j key, s.Busy i key → s.Busy j key → i = j

theorem invariant_start {phase : ι → Phase κ} (h : ∀ i, phase i = .idle) (recorded : Set κ) :
    Invariant ⟨phase, recorded, ∅, []⟩ where
  nodup := List.nodup_nil
  kept := by simp
  unsent := by simp
  alone := by simp [Busy, h]

variable {s s' : Attempts ι κ} {i : ι} {key : κ} {phase : ι → Phase κ}

theorem Moves.phase_cases {target : Phase κ} (h : s.Moves i target phase) {j : ι} {p : Phase κ}
    (hj : phase j = p) : (j = i ∧ p = target) ∨ (j ≠ i ∧ s.phase j = p) := by
  by_cases heq : j = i
  · rw [heq, h.1] at hj
    exact Or.inl ⟨heq, hj.symm⟩
  · exact Or.inr ⟨heq, (h.2 j heq).symm.trans hj⟩

/-- Only the actor that moves can lose the phase it has. -/
theorem Moves.keeps {target : Phase κ} (h : s.Moves i target phase) {j : ι} {p : Phase κ}
    (hne : s.phase i ≠ p) (hj : s.phase j = p) : phase j = p := by
  refine (h.2 j fun heq => hne ?_).trans hj
  rw [← heq]
  exact hj

/-- An actor on a key after a move is the one that moved, or was on it before. -/
theorem Moves.busy_cases {target : Phase κ} (h : s.Moves i target phase) {recorded lost : Set κ}
    {sends : List κ} {j : ι} {k : κ} (hj : Busy ⟨phase, recorded, lost, sends⟩ j k) :
    (j = i ∧ (target = .trying k ∨ target = .sent k)) ∨ s.Busy j k := by
  rcases hj with (htrying : phase j = _) | (hsent : phase j = _)
  · rcases h.phase_cases htrying with ⟨heq, htarget⟩ | ⟨_, hold⟩
    · exact Or.inl ⟨heq, Or.inl htarget.symm⟩
    · exact Or.inr (Or.inl hold)
  · rcases h.phase_cases hsent with ⟨heq, htarget⟩ | ⟨_, hold⟩
    · exact Or.inl ⟨heq, Or.inr htarget.symm⟩
    · exact Or.inr (Or.inr hold)

/-- An actor that leaves its key. -/
theorem leave_invariant (inv : Invariant s) (hmoves : s.Moves i .idle phase)
    {recorded lost : Set κ} (hrecorded : s.recorded ⊆ recorded) (hlost : s.lost ⊆ lost)
    (hsent : ∀ k, s.phase i = .sent k → k ∈ recorded ∨ k ∈ lost) :
    Invariant ⟨phase, recorded, lost, s.sends⟩ := by
  have hbusy : ∀ j k, Busy ⟨phase, recorded, lost, s.sends⟩ j k → s.Busy j k := by
    intro j k hj
    rcases hmoves.busy_cases hj with ⟨_, htarget | htarget⟩ | hold
    · cases htarget
    · cases htarget
    · exact hold
  refine ⟨inv.nodup, ?_, ?_, ?_⟩
  · intro k hk
    rcases inv.kept k hk with hrec | hloss | ⟨j, hj⟩
    · exact Or.inl (hrecorded hrec)
    · exact Or.inr (Or.inl (hlost hloss))
    · by_cases hat : s.phase i = .sent k
      · rcases hsent k hat with hrec | hloss
        · exact Or.inl hrec
        · exact Or.inr (Or.inl hloss)
      · exact Or.inr (Or.inr ⟨j, hmoves.keeps hat hj⟩)
  · intro j k hj
    rcases hmoves.phase_cases hj with ⟨_, htarget⟩ | ⟨_, hold⟩
    · cases htarget
    · exact inv.unsent j k hold
  · intro j l k hj hl
    exact inv.alone j l k (hbusy j k hj) (hbusy l k hl)

theorem begin_invariant (inv : Invariant s) (hmoves : s.Moves i (.trying key) phase)
    (hidle : s.phase i = .idle) (hnew : key ∉ s.recorded) (hlost : key ∉ s.lost)
    (hfree : ∀ j, ¬s.Busy j key) : Invariant ⟨phase, s.recorded, s.lost, s.sends⟩ := by
  have hunsent : key ∉ s.sends := by
    intro hsent
    rcases inv.kept key hsent with hrec | hloss | ⟨j, hj⟩
    · exact hnew hrec
    · exact hlost hloss
    · exact hfree j (Or.inr hj)
  -- the actor that begins is the only one whose phase names the key
  have hbusy : ∀ j k, Busy ⟨phase, s.recorded, s.lost, s.sends⟩ j k →
      (j = i ∧ k = key) ∨ (s.Busy j k ∧ k ≠ key) := by
    intro j k hj
    rcases hmoves.busy_cases hj with ⟨heq, htarget | htarget⟩ | hold
    · cases htarget
      exact Or.inl ⟨heq, rfl⟩
    · cases htarget
    · exact Or.inr ⟨hold, fun hk => hfree j (hk ▸ hold)⟩
  refine ⟨inv.nodup, ?_, ?_, ?_⟩
  · intro k hk
    refine (inv.kept k hk).imp_right fun h => h.imp_right fun ⟨j, hj⟩ => ⟨j, ?_⟩
    exact hmoves.keeps (by simp [hidle]) hj
  · intro j k hj
    rcases hmoves.phase_cases hj with ⟨_, htarget⟩ | ⟨_, hold⟩
    · cases htarget
      exact hunsent
    · exact inv.unsent j k hold
  · intro j l k hj hl
    rcases hbusy j k hj with ⟨rfl, rfl⟩ | ⟨hj', hne⟩
    · rcases hbusy l k hl with ⟨rfl, _⟩ | ⟨_, hne⟩
      · rfl
      · exact absurd rfl hne
    · rcases hbusy l k hl with ⟨_, hk⟩ | ⟨hl', _⟩
      · exact absurd hk hne
      · exact inv.alone j l k hj' hl'

theorem send_invariant (inv : Invariant s) (hmoves : s.Moves i (.sent key) phase)
    (h : s.phase i = .trying key) :
    Invariant ⟨phase, s.recorded, s.lost, s.sends ++ [key]⟩ := by
  have hbusy : ∀ j k, Busy ⟨phase, s.recorded, s.lost, s.sends ++ [key]⟩ j k → s.Busy j k := by
    intro j k hj
    rcases hmoves.busy_cases hj with ⟨rfl, htarget | htarget⟩ | hold
    · cases htarget
    · cases htarget
      exact Or.inl h
    · exact hold
  refine ⟨?_, ?_, ?_, ?_⟩
  · show (s.sends ++ [key]).Nodup
    rw [← List.concat_eq_append]
    exact inv.nodup.concat (inv.unsent i key h)
  · intro k hk
    rcases List.mem_append.mp hk with hold | hlast
    · refine (inv.kept k hold).imp_right fun hrest => hrest.imp_right fun ⟨j, hj⟩ => ⟨j, ?_⟩
      exact hmoves.keeps (by simp [h]) hj
    · rw [List.mem_singleton.mp hlast]
      exact Or.inr (Or.inr ⟨i, hmoves.1⟩)
  · intro j k hj hk
    rcases hmoves.phase_cases hj with ⟨_, htarget⟩ | ⟨hne, hold⟩
    · cases htarget
    · rcases List.mem_append.mp hk with hsent | hlast
      · exact inv.unsent j k hold hsent
      · rw [List.mem_singleton.mp hlast] at hold
        exact hne (inv.alone j i key (Or.inl hold) (Or.inl h))
  · intro j l k hj hl
    exact inv.alone j l k (hbusy j k hj) (hbusy l k hl)

theorem step_invariant (inv : Invariant s) (hstep : Step s s') : Invariant s' := by
  cases hstep with
  | keep h =>
    have hkept : ∀ key ∈ s.sends, key ∈ _ ∨ key ∈ s.lost ∨ ∃ i, s.phase i = .sent key :=
      fun key hkey => (inv.kept key hkey).imp_left fun hrec => h hrec
    exact ⟨inv.nodup, hkept, inv.unsent, inv.alone⟩
  | begin hmoves hidle hnew hlost hfree => exact begin_invariant inv hmoves hidle hnew hlost hfree
  | quit hmoves h =>
    refine leave_invariant inv hmoves subset_rfl subset_rfl fun k hk => ?_
    rw [h] at hk
    cases hk
  | send hmoves h => exact send_invariant inv hmoves h
  | record hmoves h hkept hkey =>
    refine leave_invariant inv hmoves hkept subset_rfl fun k hk => ?_
    rw [h] at hk
    cases hk
    exact Or.inl hkey
  | @lose i key phase hmoves h =>
    refine leave_invariant inv hmoves subset_rfl (Set.subset_insert key s.lost) fun k hk => ?_
    rw [h] at hk
    cases hk
    exact Or.inr (Set.mem_insert key s.lost)

/-- Every run from idle actors sends at most once for every key. -/
theorem steps_invariant (inv : Invariant s) (hsteps : Relation.ReflTransGen Step s s') :
    Invariant s' := by
  induction hsteps with
  | refl => exact inv
  | tail _ hstep ih => exact step_invariant ih hstep

end Attempts

end ObscuraNetwork
