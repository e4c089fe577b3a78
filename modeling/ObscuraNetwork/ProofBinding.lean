import ObscuraNetwork.PrivacyModule

namespace ObscuraNetwork

def TransferMessage.ProofAccepted (b : Build) (msg : TransferMessage) : Prop :=
  verifyTransferProof b msg.proof msg.publicInputs = .ok ()

def UnshieldMessage.ProofAccepted (b : Build) (msg : UnshieldMessage) : Prop :=
  verifyUnshieldProof b msg.proof msg.publicInputs = .ok ()

/-- In the `sp1` build an accepted proof passed the Groth16 verifier under its circuit's key. -/
theorem verifyProof_sp1_groth16 {b : Build} (hb : b.sp1 = true) {kind vkHash : String}
    {proof : Bytes} (h : verifyProof b kind vkHash proof = .ok ()) :
    ∃ publicInputs, b.groth16Verify proof publicInputs vkHash b.groth16VkBytes = .ok () :=
  ⟨[], ((verifyProof_sp1 hb kind vkHash proof).mp h).2⟩

/-- The mock check of the default build looks at the header only, so messages with one proof share
one verdict whatever they state; the `sp1` build accepts a proof only if the Groth16 verifier does,
under the key of the circuit the message is about. -/
theorem proof_verdicts (b : Build) (transfer transfer' : TransferMessage)
    (unshield unshield' : UnshieldMessage) (htransfer : transfer.proof = transfer'.proof)
    (hunshield : unshield.proof = unshield'.proof) :
    (b.sp1 = false →
      (transfer.ProofAccepted b ↔ mockHeader <+: transfer.proof) ∧
      (transfer.ProofAccepted b ↔ transfer'.ProofAccepted b) ∧
      (unshield.ProofAccepted b ↔ mockHeader <+: unshield.proof) ∧
      (unshield.ProofAccepted b ↔ unshield'.ProofAccepted b)) ∧
    (b.sp1 = true →
      (transfer.ProofAccepted b → ∃ publicInputs,
        b.groth16Verify transfer.proof publicInputs transferVkHash b.groth16VkBytes = .ok ()) ∧
      (unshield.ProofAccepted b → ∃ publicInputs,
        b.groth16Verify unshield.proof publicInputs unshieldVkHash b.groth16VkBytes = .ok ())) := by
  refine ⟨fun hb => ?_, fun hb => ⟨verifyProof_sp1_groth16 hb, verifyProof_sp1_groth16 hb⟩⟩
  have ht : ∀ msg : TransferMessage, msg.ProofAccepted b ↔ mockHeader <+: msg.proof :=
    fun msg => verifyProof_default hb _ _ _
  have hu : ∀ msg : UnshieldMessage, msg.ProofAccepted b ↔ mockHeader <+: msg.proof :=
    fun msg => verifyProof_default hb _ _ _
  exact ⟨ht transfer, by rw [ht, ht, htransfer], hu unshield, by rw [hu, hu, hunshield]⟩

def mockTransfer (i : UInt8) : TransferMessage where
  proof := mockHeader
  publicInputs := ⟨UInt64.ofNat i.toNat, ⟨FixedBytes.replicate 32 i⟩, zeroBytes⟩
  nullifiers := [⟨FixedBytes.replicate 32 i⟩]
  outputCommitments := [⟨FixedBytes.replicate 32 i⟩]
  sanctionsProof := mockHeader
  sanctionsPublicInputs := ⟨zeroBytes, zeroBytes, 0⟩
  encryptedOutputs := []

def mockUnshield (i : UInt8) : UnshieldMessage where
  proof := mockHeader
  publicInputs := ⟨UInt64.ofNat i.toNat, ⟨FixedBytes.replicate 32 i⟩⟩
  nullifier := ⟨FixedBytes.replicate 32 i⟩
  recipient := []

theorem proof_verdicts_mock :
    (mockTransfer 1).proof = (mockTransfer 2).proof ∧
    (mockUnshield 1).proof = (mockUnshield 2).proof ∧
    ((mockTransfer 1).ProofAccepted .default ↔ (mockTransfer 2).ProofAccepted .default) ∧
    ((mockUnshield 1).ProofAccepted .default ↔ (mockUnshield 2).ProofAccepted .default) :=
  have h := (proof_verdicts .default (mockTransfer 1) (mockTransfer 2) (mockUnshield 1)
    (mockUnshield 2) rfl rfl).1 rfl
  ⟨rfl, rfl, h.2.1, h.2.2.2⟩

/-- One proof is accepted with two statements that differ in every field. -/
theorem one_proof_two_statements :
    ((mockTransfer 1).proof = (mockTransfer 2).proof ∧
      (mockTransfer 1).nullifiers ≠ (mockTransfer 2).nullifiers ∧
      (mockTransfer 1).outputCommitments ≠ (mockTransfer 2).outputCommitments ∧
      (mockTransfer 1).publicInputs ≠ (mockTransfer 2).publicInputs ∧
      (mockTransfer 1).ProofAccepted .default ∧ (mockTransfer 2).ProofAccepted .default) ∧
    ((mockUnshield 1).proof = (mockUnshield 2).proof ∧
      (mockUnshield 1).nullifier ≠ (mockUnshield 2).nullifier ∧
      (mockUnshield 1).publicInputs ≠ (mockUnshield 2).publicInputs ∧
      (mockUnshield 1).ProofAccepted .default ∧ (mockUnshield 2).ProofAccepted .default) := by
  refine ⟨⟨rfl, by decide, by decide, by decide, rfl, rfl⟩, rfl, by decide, by decide, rfl, rfl⟩

end ObscuraNetwork
