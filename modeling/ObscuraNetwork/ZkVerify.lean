import ObscuraNetwork.Build
import ObscuraNetwork.PrivacyTypes

namespace ObscuraNetwork

structure TransferPublicInputs where
  transferAmount : UInt64
  assetId : AssetId
  merkleRoot : Bytes32
  deriving DecidableEq

structure UnshieldPublicInputs where
  amount : UInt64
  assetId : AssetId
  deriving DecidableEq

structure SanctionsPublicInputs where
  recipientCommitment : Bytes32
  sanctionsRoot : Bytes32
  proofTimestamp : UInt64
  deriving DecidableEq

def mockHeader : Bytes := [0x4f, 0x42, 0x53, 0x76]

def transferVkHash : String := "0x00c5d483a0285f4a44d86bb6b142a0fbbdb7ac765e2436b8c9222907a198ed08"

def unshieldVkHash : String := "0x001f5c8123eb2c9b803e50ef3379697e5ccf2153dab59630b893b04c10bb238a"

def sanctionsVkHash : String := "0x0000000000000000000000000000000000000000000000000000000000000000"

/-- The body the three proof checks share: the `sp1` build hands the proof to the Groth16 verifier
with no public inputs, the default build looks for the mock header. -/
def verifyProof (b : Build) (kind vkHash : String) (proof : Bytes) : Outcome Unit := do
  ensure (proof ≠ []) (.bail (kind ++ " proof cannot be empty"))
  if b.sp1 then
    match b.groth16Verify proof [] vkHash b.groth16VkBytes with
    | .ok () => pure ()
    | .error e => .error (.bail (kind ++ " proof verification failed: " ++ e))
  else
    ensure (¬(proof.length < 4 ∨ proof.take 4 ≠ mockHeader))
      (.bail "Invalid proof format: missing OBSCURA proof header")

def verifyTransferProof (b : Build) (proof : Bytes) (_publicInputs : TransferPublicInputs) :
    Outcome Unit := verifyProof b "Transfer" transferVkHash proof

def verifyUnshieldProof (b : Build) (proof : Bytes) (_publicInputs : UnshieldPublicInputs) :
    Outcome Unit := verifyProof b "Unshield" unshieldVkHash proof

def verifySanctionsProof (b : Build) (proof : Bytes) (_publicInputs : SanctionsPublicInputs) :
    Outcome Unit := verifyProof b "Sanctions" sanctionsVkHash proof

theorem mockHeader_iff (proof : Bytes) :
    ¬(proof.length < 4 ∨ proof.take 4 ≠ mockHeader) ↔ mockHeader <+: proof := by
  rw [List.prefix_iff_eq_take]
  constructor
  · intro h
    exact (not_not.mp (not_or.mp h).2).symm
  · intro h
    have hlen : proof.length ≥ 4 := by
      have := congrArg List.length h
      simp only [mockHeader, List.length_cons, List.length_nil, List.length_take] at this
      omega
    exact fun hbad => hbad.elim (by omega) fun hne => hne h.symm

theorem verifyProof_default {b : Build} (hb : b.sp1 = false) (kind vkHash : String)
    (proof : Bytes) :
    verifyProof b kind vkHash proof = .ok () ↔ mockHeader <+: proof := by
  simp only [verifyProof, hb, bind_ok, ensure_ok, mockHeader_iff, Bool.false_eq_true, if_false]
  constructor
  · intro h
    obtain ⟨_, _, h⟩ := h
    exact h
  · intro h
    exact ⟨(), fun he => by simp [he, mockHeader] at h, h⟩

theorem verifyProof_mockHeader (kind vkHash : String) :
    verifyProof .default kind vkHash mockHeader = .ok () :=
  (verifyProof_default rfl kind vkHash mockHeader).mpr (List.prefix_refl _)

theorem verifyProof_sp1 {b : Build} (hb : b.sp1 = true) (kind vkHash : String) (proof : Bytes) :
    verifyProof b kind vkHash proof = .ok () ↔
      proof ≠ [] ∧ b.groth16Verify proof [] vkHash b.groth16VkBytes = .ok () := by
  simp only [verifyProof, hb, bind_ok, ensure_ok, if_true]
  cases b.groth16Verify proof [] vkHash b.groth16VkBytes with
  | ok u => simp
  | error e => simp

theorem verifyProof_noPanic (b : Build) (kind vkHash : String) (proof : Bytes) :
    NoPanic (verifyProof b kind vkHash proof) := by
  refine (noPanic_ensure _ _).bind fun _ _ => ?_
  split
  · split
    · exact noPanic_ok ()
    · exact noPanic_bail _
  · exact noPanic_ensure _ _

end ObscuraNetwork
