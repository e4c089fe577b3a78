import Mathlib.Algebra.GroupWithZero.Nat
import Mathlib.Algebra.Order.BigOperators.Group.List
import Mathlib.Algebra.Order.Group.Nat
import Mathlib.Data.List.Perm.Subperm
import Mathlib.Tactic.Common

namespace ObscuraNetwork

section NoteLedger

variable {ν τ : Type}

/-- What a transaction does to a ledger whose notes are created and consumed. -/
structure NoteMove (ν : Type) where
  consumed : List ν
  created : List ν

variable (move : τ → NoteMove ν)

def consumedNotes (txs : List τ) : List ν := txs.flatMap fun tx => (move tx).consumed

def createdNotes (txs : List τ) : List ν := txs.flatMap fun tx => (move tx).created

/-- The transaction consumes different notes, each of them created before and not consumed yet. -/
structure ValidAfter (txs : List τ) (tx : τ) : Prop where
  distinct : (move tx).consumed.Nodup
  created : ∀ n ∈ (move tx).consumed, n ∈ createdNotes move txs
  unspent : ∀ n ∈ (move tx).consumed, n ∉ consumedNotes move txs

/-- No note is consumed twice, and none that was not created. -/
structure ConsumedOnce (txs : List τ) : Prop where
  distinct : (consumedNotes move txs).Nodup
  created : ∀ n ∈ consumedNotes move txs, n ∈ createdNotes move txs

def noteValue (v : ν → Nat) (notes : List ν) : Nat := (notes.map v).sum

/-- The transaction creates and pays out no more than it consumes and brings in. -/
def KeepsValue (v : ν → Nat) (inflow outflow : τ → Nat) (tx : τ) : Prop :=
  noteValue v (move tx).created + outflow tx ≤ noteValue v (move tx).consumed + inflow tx

variable {move} {txs : List τ} {tx : τ}

theorem consumedNotes_concat :
    consumedNotes move (txs ++ [tx]) = consumedNotes move txs ++ (move tx).consumed := by
  simp [consumedNotes]

theorem createdNotes_concat :
    createdNotes move (txs ++ [tx]) = createdNotes move txs ++ (move tx).created := by
  simp [createdNotes]

theorem noteValue_append (v : ν → Nat) (notes notes' : List ν) :
    noteValue v (notes ++ notes') = noteValue v notes + noteValue v notes' := by
  simp [noteValue]

theorem consumedOnce_nil : ConsumedOnce move [] := ⟨List.nodup_nil, fun _ h => h⟩

theorem ConsumedOnce.concat (h : ConsumedOnce move txs) (hvalid : ValidAfter move txs tx) :
    ConsumedOnce move (txs ++ [tx]) := by
  refine ⟨?_, ?_⟩
  · rw [consumedNotes_concat]
    refine List.nodup_append.mpr ⟨h.distinct, hvalid.distinct, ?_⟩
    intro n hn m hm heq
    exact hvalid.unspent m hm (heq ▸ hn)
  · intro n hn
    rw [consumedNotes_concat, List.mem_append] at hn
    rw [createdNotes_concat, List.mem_append]
    rcases hn with hold | hnew
    · exact Or.inl (h.created n hold)
    · exact Or.inl (hvalid.created n hnew)

/-- What is consumed is worth at most what was created. -/
theorem ConsumedOnce.value_le (h : ConsumedOnce move txs) (v : ν → Nat) :
    noteValue v (consumedNotes move txs) ≤ noteValue v (createdNotes move txs) := by
  obtain ⟨notes, hperm, hsub⟩ := List.subperm_of_subset h.distinct h.created
  calc noteValue v (consumedNotes move txs) = noteValue v notes := ((hperm.map v).sum_eq).symm
    _ ≤ noteValue v (createdNotes move txs) :=
      (hsub.map v).sum_le_sum fun _ _ => Nat.zero_le _

theorem value_flow {v : ν → Nat} {inflow outflow : τ → Nat}
    (hkeeps : ∀ tx ∈ txs, KeepsValue move v inflow outflow tx) :
    noteValue v (createdNotes move txs) + (txs.map outflow).sum ≤
      noteValue v (consumedNotes move txs) + (txs.map inflow).sum := by
  induction txs with
  | nil => exact le_rfl
  | cons tx rest ih =>
    have hhead := hkeeps tx List.mem_cons_self
    have htail := ih fun later hlater => hkeeps later (List.mem_cons_of_mem tx hlater)
    have hcreated : createdNotes move (tx :: rest) = (move tx).created ++ createdNotes move rest :=
      List.flatMap_cons
    have hconsumed :
        consumedNotes move (tx :: rest) = (move tx).consumed ++ consumedNotes move rest :=
      List.flatMap_cons
    unfold KeepsValue at hhead
    rw [hcreated, hconsumed, noteValue_append, noteValue_append, List.map_cons, List.map_cons,
      List.sum_cons, List.sum_cons]
    omega

/-- A ledger that consumes its notes once never pays out more than was brought in. -/
theorem ConsumedOnce.outflow_le {v : ν → Nat} {inflow outflow : τ → Nat}
    (h : ConsumedOnce move txs) (hkeeps : ∀ tx ∈ txs, KeepsValue move v inflow outflow tx) :
    (txs.map outflow).sum ≤ (txs.map inflow).sum := by
  have hflow := value_flow hkeeps
  have hvalue := h.value_le v
  omega

end NoteLedger

end ObscuraNetwork
