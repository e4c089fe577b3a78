import ObscuraNetwork.Runtime
import Mathlib.Data.List.Nodup

namespace ObscuraNetwork

/-- The nullifiers a transaction consumes when it is accepted. -/
def Tx.consumedNullifiers (tx : Tx) : List Nullifier :=
  match tx.call with
  | .obscuraPrivacy (.transfer msg) => msg.nullifiers
  | .obscuraPrivacy (.unshield msg) => [msg.nullifier]
  | _ => []

def consumedNullifiers (txs : List Tx) : List Nullifier := txs.flatMap Tx.consumedNullifiers

theorem consumedNullifiers_concat (txs : List Tx) (tx : Tx) :
    consumedNullifiers (txs ++ [tx]) = consumedNullifiers txs ++ tx.consumedNullifiers := by
  simp [consumedNullifiers]

namespace ObscuraPrivacy

theorem SameLedger.isSpent {s s' : ObscuraPrivacy} (h : SameLedger s s') :
    s'.isSpent = s.isSpent := by
  funext nullifier
  simp only [ObscuraPrivacy.isSpent, h.nullifiers]

theorem markSpent_isSpent (nullifier n : Nullifier) (s : ObscuraPrivacy) :
    (s.markSpent nullifier).isSpent n = true ↔ s.isSpent n = true ∨ n = nullifier := by
  by_cases h : n = nullifier
  · simp [isSpent, markSpent, h]
  · simp [isSpent, markSpent, StateMap.set_of_ne _ _ h, h]

theorem markAllSpent_isSpent (nullifiers : List Nullifier) (n : Nullifier) (s : ObscuraPrivacy) :
    (s.markAllSpent nullifiers).isSpent n = true ↔ s.isSpent n = true ∨ n ∈ nullifiers := by
  induction nullifiers generalizing s with
  | nil => simp [markAllSpent]
  | cons nullifier rest ih =>
    have := ih (s.markSpent nullifier)
    rw [markSpent_isSpent] at this
    rw [List.mem_cons, ← or_assoc]
    exact this

end ObscuraPrivacy

open ObscuraPrivacy ObscuraBridge

theorem step_marks_spent {b : Build} {s s' : Runtime} {tx : Tx} (h : Runtime.Step b s tx s') :
    (∀ n ∈ tx.consumedNullifiers, s.obscuraPrivacy.isSpent n = false) ∧
    ∀ n, s'.obscuraPrivacy.isSpent n = true ↔
      s.obscuraPrivacy.isSpent n = true ∨ n ∈ tx.consumedNullifiers := by
  cases h with
  | shield ctx msg privacy h =>
    obtain ⟨commitment, t, total, _, ht, _, rfl⟩ := handleShield_ok.mp h
    have hledger := ((pushCommitment_ledger _ _).trans (insertCommitment_ledger ht)).trans
      (storeEncryptedNote_ledger commitment msg.encryptedNote t)
    have hspent : ∀ n, ((t.storeEncryptedNote commitment msg.encryptedNote).setSupply
        msg.note.assetId total).isSpent n = s.obscuraPrivacy.isSpent n :=
      fun n => congrFun hledger.isSpent n
    simp [Tx.consumedNullifiers, hspent]
  | transfer ctx msg privacy h =>
    obtain ⟨checks, t, ht, hc⟩ := handleTransfer_ok.mp h
    refine ⟨checks.unspent, fun n => ?_⟩
    have hspent : privacy.isSpent n = (s.obscuraPrivacy.markAllSpent msg.nullifiers).isSpent n := by
      rw [updateCompliance_ok hc]
      exact congrFun (storeOutputs_ledger ht).isSpent n
    exact hspent ▸ markAllSpent_isSpent msg.nullifiers n s.obscuraPrivacy
  | unshield ctx msg privacy h =>
    obtain ⟨_, hunspent, rfl⟩ := handleUnshield_ok.mp h
    refine ⟨fun n hn => (List.mem_singleton.mp hn) ▸ hunspent, fun n => ?_⟩
    rw [show n ∈ Tx.consumedNullifiers _ ↔ n = msg.nullifier from List.mem_singleton]
    exact markSpent_isSpent msg.nullifier n s.obscuraPrivacy
  | updateSanctionsRoot ctx msg privacy h =>
    rw [handleUpdateSanctionsRoot_ok h]
    simp [Tx.consumedNullifiers, isSpent]
  | claimDeposit ctx claim s' h =>
    obtain ⟨_, privacy, shielded, _, _, hp, _, _, _, rfl⟩ := handleClaimDeposit_ok.mp h
    have hledger := (pushCommitment_ledger _ _).trans (insertCommitment_ledger hp)
    have hspent : ∀ n, (privacy.setSupply bridgedUsdcAsset shielded).isSpent n =
        s.obscuraPrivacy.isSpent n := fun n => congrFun hledger.isSpent n
    simp [Tx.consumedNullifiers, hspent]
  | withdrawBridge ctx msg bridge h => simp [Tx.consumedNullifiers]
  | updateHeliosHead ctx update bridge h => simp [Tx.consumedNullifiers]

/-- After every run the marked nullifiers are the consumed ones, and these are distinct when each
accepted transaction lists distinct ones. -/
theorem run_nullifiers (b : Build) (config : BridgeConfig) (txs : List Tx) :
    (∀ n, (Runtime.run b config txs).obscuraPrivacy.isSpent n = true ↔
      n ∈ consumedNullifiers (Runtime.acceptedTxs b config txs)) ∧
    ((∀ tx ∈ Runtime.acceptedTxs b config txs, tx.consumedNullifiers.Nodup) →
      (consumedNullifiers (Runtime.acceptedTxs b config txs)).Nodup) := by
  refine Runtime.run_induction
    (P := fun s done => (∀ n, s.obscuraPrivacy.isSpent n = true ↔ n ∈ consumedNullifiers done) ∧
      ((∀ tx ∈ done, tx.consumedNullifiers.Nodup) → (consumedNullifiers done).Nodup)) ?_ ?_ txs
  · exact ⟨fun n => by
      simp [consumedNullifiers, Runtime.genesis, ObscuraPrivacy.genesis, unset, isSpent],
      fun _ => List.nodup_nil⟩
  · intro s done tx s' hs h
    obtain ⟨hspent, hdistinct⟩ := hs
    obtain ⟨hfresh, hmarks⟩ := step_marks_spent h
    rw [consumedNullifiers_concat]
    refine ⟨fun n => by rw [hmarks, hspent, List.mem_append], fun hall => ?_⟩
    have hdone := hdistinct fun tx htx => hall tx (List.mem_append_left _ htx)
    have hnew := hall tx (by simp)
    refine List.nodup_append.mpr ⟨hdone, hnew, fun n hn m hm heq => ?_⟩
    subst heq
    have := hfresh n hm
    rw [(hspent n).mpr hn] at this
    exact Bool.noConfusion this

/-- In a run no nullifier is consumed twice, and the map is true at exactly the consumed ones, if
and only if no accepted Transfer lists a nullifier twice. -/
theorem nullifiers_consumed_once_iff (b : Build) (config : BridgeConfig) (txs : List Tx) :
    ((consumedNullifiers (Runtime.acceptedTxs b config txs)).Nodup ∧
      ∀ n, (Runtime.run b config txs).obscuraPrivacy.nullifiers n = some true ↔
        n ∈ consumedNullifiers (Runtime.acceptedTxs b config txs)) ↔
    ∀ ctx msg, ⟨ctx, .obscuraPrivacy (.transfer msg)⟩ ∈ Runtime.acceptedTxs b config txs →
      msg.nullifiers.Nodup := by
  obtain ⟨hspent, hdistinct⟩ := run_nullifiers b config txs
  have htrue : ∀ n, (Runtime.run b config txs).obscuraPrivacy.nullifiers n = some true ↔
      (Runtime.run b config txs).obscuraPrivacy.isSpent n = true := by
    intro n
    rw [isSpent]
    cases (Runtime.run b config txs).obscuraPrivacy.nullifiers n <;> simp
  constructor
  · intro h ctx msg hmem
    obtain ⟨hnodup, _⟩ := h
    exact (List.nodup_flatMap.mp hnodup).1 _ hmem
  · intro h
    refine ⟨hdistinct fun tx htx => ?_, fun n => (htrue n).trans (hspent n)⟩
    obtain ⟨ctx, call⟩ := tx
    unfold Tx.consumedNullifiers
    split
    next msg hcall =>
      cases hcall
      exact h ctx msg htx
    next => simp
    next => simp

def repeatedTransfer : TransferMessage where
  proof := mockHeader
  publicInputs := ⟨0, ⟨zeroBytes⟩, zeroBytes⟩
  nullifiers := [⟨zeroBytes⟩, ⟨zeroBytes⟩]
  outputCommitments := []
  sanctionsProof := mockHeader
  sanctionsPublicInputs := ⟨zeroBytes, zeroBytes, 0⟩
  encryptedOutputs := []

/-- The repeated nullifier passes both loops: it is consumed twice in one transaction. -/
theorem repeated_nullifier_accepted :
    let txs : List Tx := [⟨⟨[], 0⟩, .obscuraPrivacy (.transfer repeatedTransfer)⟩]
    Runtime.acceptedTxs .default .default txs = txs ∧
    ¬(consumedNullifiers (Runtime.acceptedTxs .default .default txs)).Nodup := by
  have hok : ∃ s, Runtime.call .default ⟨⟨[], 0⟩, .obscuraPrivacy (.transfer repeatedTransfer)⟩
      (Runtime.genesis .default .default) = .ok s := ⟨_, rfl⟩
  obtain ⟨s, hs⟩ := hok
  have hacc : Runtime.acceptedTxs .default .default
      [⟨⟨[], 0⟩, .obscuraPrivacy (.transfer repeatedTransfer)⟩] =
      [⟨⟨[], 0⟩, .obscuraPrivacy (.transfer repeatedTransfer)⟩] := accepted_singleton_ok hs
  refine ⟨hacc, ?_⟩
  rw [hacc]
  decide

end ObscuraNetwork
