import ObscuraNetwork.TreeInvariant

namespace ObscuraNetwork

open ObscuraPrivacy

/-- If the transaction is accepted, its commitments are different ones and none is stored yet. -/
def FreshCommitments (b : Build) (s : Runtime) (tx : Tx) : Prop :=
  (Runtime.call b tx s).isOk = true → (insertedCommitments b tx).Nodup ∧
    ∀ commitment ∈ insertedCommitments b tx, commitment ∉ s.obscuraPrivacy.commitments

theorem settle_nodup_iff (b : Build) (s : Runtime) (tx : Tx) :
    (settle (Runtime.call b) s tx).obscuraPrivacy.commitments.Nodup ↔
      s.obscuraPrivacy.commitments.Nodup ∧ FreshCommitments b s tx := by
  cases h : Runtime.call b tx s with
  | error e =>
    rw [settle_error h]
    refine (and_iff_left fun hok => ?_).symm
    rw [h] at hok
    exact absurd hok Bool.false_ne_true
  | ok s' =>
    have hok : (Runtime.call b tx s).isOk = true := isOk_iff.mpr ⟨s', h⟩
    rw [settle_ok h, step_commitments (Runtime.step_of_call_ok h), List.nodup_append']
    refine and_congr_right fun _ => ?_
    rw [FreshCommitments, List.disjoint_right]
    exact ⟨fun hfresh _ => hfresh, fun hfresh => hfresh hok⟩

/-- The leaves of a state are unique exactly when every transaction accepted on the way there added
fresh ones. -/
theorem leaves_unique_iff (b : Build) (config : BridgeConfig) (txs : List Tx) :
    (Runtime.run b config txs).obscuraPrivacy.commitments.Nodup ↔
      EveryStep (settle (Runtime.call b)) (FreshCommitments b) (Runtime.genesis b config) txs := by
  induction txs using List.reverseRecOn with
  | nil => exact iff_of_true List.nodup_nil trivial
  | append_singleton txs tx ih =>
    rw [Runtime.run_concat, settle_nodup_iff, everyStep_concat, ih]
    exact Iff.rfl

section Sample

def sampleNote : Note := ⟨5, ⟨zeroBytes⟩, List.replicate 32 1, zeroBytes⟩

def sampleShield (blob : Bytes) : Tx :=
  ⟨⟨[], 0⟩, .obscuraPrivacy (.shield ⟨sampleNote, blob⟩)⟩

/-- The same note is shielded twice, and both deposits count. -/
theorem shielded_twice :
    let s := (Runtime.run .default .default [sampleShield [], sampleShield []]).obscuraPrivacy
    s.commitments.length = 2 ∧ ¬s.commitments.Nodup ∧ s.supply ⟨zeroBytes⟩ = 10 := by
  refine ⟨by decide +kernel, by decide +kernel, by decide +kernel⟩

end Sample

end ObscuraNetwork
