import ObscuraNetwork.BridgeEffects

namespace ObscuraNetwork

open ObscuraBridge

/-- The bytes of the bridge guest program: not compiled in yet. -/
def bridgeElf : Bytes := []

/-- The bytes the deposit circuit commits for these outputs. -/
def BridgePublicInputs.committed (inputs : BridgePublicInputs) : Bytes :=
  inputs.ethBlockHash.bytes ++ inputs.beaconBlockRoot.bytes ++ toLeBytes inputs.depositId ++
    inputs.obscuraRecipient.bytes ++ toLeBytes inputs.amount ++ inputs.bridgeContract.bytes

/-- A run of the deposit circuit that the SP1 verifier accepts stands behind the inputs. -/
def BridgeBacked (b : Build) (proof : Bytes) (inputs : BridgePublicInputs) : Prop :=
  ∃ sp1Proof, b.sp1Deserialize proof = some sp1Proof ∧ b.sp1Verify bridgeElf sp1Proof = true ∧
    sp1Proof.publicValues = inputs.committed

/-- A run of the Helios circuit that the SP1 verifier accepts stands behind the inputs. -/
def HeliosBacked (b : Build) (proof : Bytes) (inputs : HeliosPublicInputs) : Prop :=
  ∃ elf sp1Proof, b.heliosElf = some elf ∧ b.sp1Deserialize proof = some sp1Proof ∧
    b.sp1Verify elf sp1Proof = true ∧ readHeliosOutputs sp1Proof.publicValues = .ok inputs

theorem verifyBridgeProof_native {b : Build} (hb : b.native = true) (proof : Bytes)
    (inputs : BridgePublicInputs) :
    verifyBridgeProof b proof inputs = .ok () ↔ mockProofPrefix.isPrefixOf proof = true := by
  unfold verifyBridgeProof verifySp1Proof
  cases h : mockProofPrefix.isPrefixOf proof
  · simp [hb]
  · simp

theorem verifyHeliosSp1Proof_ok {b : Build} {proof : Bytes} {inputs : HeliosPublicInputs} :
    verifyHeliosSp1Proof b proof inputs = .ok () ↔ HeliosBacked b proof inputs := by
  unfold verifyHeliosSp1Proof HeliosBacked
  cases b.heliosElf with
  | none => simp
  | some elf =>
    cases b.sp1Deserialize proof with
    | none => simp
    | some sp1Proof =>
      simp only [bind_ok, ensure_ok, Option.some.injEq]
      constructor
      · intro h
        obtain ⟨_, hverify, committed, hread, _, hprev, _, hnew, _, hslot, hblock⟩ := h
        have hsame : committed = inputs := by
          cases committed
          cases inputs
          simp_all
        exact ⟨elf, sp1Proof, rfl, rfl, hverify, hsame ▸ hread⟩
      · intro h
        obtain ⟨_, _, rfl, rfl, hverify, hread⟩ := h
        exact ⟨(), hverify, inputs, hread, (), rfl, (), rfl, (), rfl, rfl⟩

theorem verifyHeliosProof_native {b : Build} (hb : b.native = true) (proof : Bytes)
    (inputs : HeliosPublicInputs) :
    verifyHeliosProof b proof inputs = .ok () ↔
      mockHeliosPrefix.isPrefixOf proof = true ∨ HeliosBacked b proof inputs := by
  unfold verifyHeliosProof
  cases h : mockHeliosPrefix.isPrefixOf proof
  · simp [hb, verifyHeliosSp1Proof_ok]
  · simp

/-- The proof a transaction carries starts with its verifier's mock header. -/
def Tx.mockProof (tx : Tx) : Bool :=
  match tx.call with
  | .obscuraBridge (.claimDeposit claim) => mockProofPrefix.isPrefixOf claim.proof
  | .obscuraBridge (.updateHeliosHead update) => mockHeliosPrefix.isPrefixOf update.proof
  | _ => false

/-- What a transaction says about Ethereum was proved by a circuit run. -/
def Tx.Backed (b : Build) (tx : Tx) : Prop :=
  match tx.call with
  | .obscuraBridge (.claimDeposit claim) => BridgeBacked b claim.proof claim.publicInputs
  | .obscuraBridge (.updateHeliosHead update) => HeliosBacked b update.proof update.publicInputs
  | _ => True

theorem step_backed {b : Build} (hb : b.native = true) {s s' : Runtime} {tx : Tx}
    (h : Runtime.Step b s tx s') (hmock : tx.mockProof = false) : tx.Backed b := by
  cases h with
  | shield ctx msg privacy h => trivial
  | transfer ctx msg privacy h => trivial
  | unshield ctx msg privacy h => trivial
  | updateSanctionsRoot ctx msg privacy h => trivial
  | withdrawBridge ctx msg bridge h => trivial
  | claimDeposit ctx claim s' h =>
    have hproof := (claimChecks_ok.mp (handleClaimDeposit_ok.mp h).1).proof
    rw [verifyBridgeProof_native hb] at hproof
    exact absurd (hproof.symm.trans hmock) (by decide)
  | updateHeliosHead ctx update bridge h =>
    have hproof := (handleUpdateHeliosHead_ok.mp h).1.proof
    rw [verifyHeliosProof_native hb] at hproof
    rcases hproof with hheader | hbacked
    · exact absurd (hheader.symm.trans hmock) (by decide)
    · exact hbacked

/-- A native build whose SP1 verifier accepts nothing. -/
def nativeBuild : Build := { Build.default with native := true }

theorem run_backed {b : Build} (hb : b.native = true) (config : BridgeConfig) (txs : List Tx) :
    ∀ tx ∈ Runtime.acceptedTxs b config txs, tx.mockProof = false → tx.Backed b := by
  apply Runtime.run_induction (P := fun _ done => ∀ tx ∈ done, tx.mockProof = false → tx.Backed b)
  · simp
  · intro s done tx s' hdone hstep tx' hmem
    rcases List.mem_append.mp hmem with h | h
    · exact hdone tx' h
    · rw [List.mem_singleton.mp h]
      exact step_backed hb hstep

/-- In a native build, whatever the SP1 verifier accepts, a proof is checked exactly when it does
not start with the mock header of its verifier, and in every run the accepted claims and Helios
updates without that header are backed. -/
theorem native_proofs_backed (proof : Bytes) (config : BridgeConfig) (txs : List Tx) :
    (∀ inputs, (∀ b : Build, b.native = true → verifyBridgeProof b proof inputs = .ok () →
      BridgeBacked b proof inputs) ↔ mockProofPrefix.isPrefixOf proof = false) ∧
    (∀ inputs, (∀ b : Build, b.native = true → verifyHeliosProof b proof inputs = .ok () →
      HeliosBacked b proof inputs) ↔ mockHeliosPrefix.isPrefixOf proof = false) ∧
    ∀ b : Build, b.native = true →
      ∀ tx ∈ Runtime.acceptedTxs b config txs, tx.mockProof = false → tx.Backed b := by
  refine ⟨?_, ?_, fun b hb => run_backed hb config txs⟩
  · intro inputs
    constructor
    · intro h
      apply Bool.eq_false_of_not_eq_true
      intro hheader
      obtain ⟨_, hparse, _⟩ := h nativeBuild rfl ((verifyBridgeProof_native rfl _ _).mpr hheader)
      cases hparse
    · intro h b hb hok
      rw [verifyBridgeProof_native hb, h] at hok
      cases hok
  · intro inputs
    constructor
    · intro h
      apply Bool.eq_false_of_not_eq_true
      intro hheader
      obtain ⟨_, _, helf, _⟩ :=
        h nativeBuild rfl ((verifyHeliosProof_native rfl _ _).mpr (Or.inl hheader))
      cases helf
    · intro h b hb hok
      rw [verifyHeliosProof_native hb, h] at hok
      exact hok.resolve_left (by decide)

/-- A native build linked to a verifier that takes a proof for its public values. -/
def readingBuild : Build :=
  { nativeBuild with
    heliosElf := some []
    sp1Deserialize := fun proof => some ⟨[], proof⟩
    sp1Verify := fun _ _ => true }

/-- The update from the zero root to the zero root of slot 1. -/
def firstHeadUpdate : Tx :=
  ⟨⟨[], 0⟩, .obscuraBridge (.updateHeliosHead
    ⟨List.replicate 64 0 ++ [1] ++ List.replicate 39 0,
      ⟨FixedBytes.replicate 32 0, FixedBytes.replicate 32 0, 1, FixedBytes.replicate 32 0⟩⟩)⟩

theorem native_proofs_backed_first :
    firstHeadUpdate ∈ Runtime.acceptedTxs readingBuild .default [firstHeadUpdate] ∧
      firstHeadUpdate.Backed readingBuild := by
  have haccepted :
      firstHeadUpdate ∈ Runtime.acceptedTxs readingBuild .default [firstHeadUpdate] := by
    decide
  have hmock : firstHeadUpdate.mockProof = false := by decide
  have hbacked := (native_proofs_backed [] .default [firstHeadUpdate]).2.2 readingBuild rfl
  exact ⟨haccepted, hbacked firstHeadUpdate haccepted hmock⟩

/-- The bytes `OBSbridge` are a proof of any deposit in a native build that verifies nothing. -/
theorem mock_claim_in_native_build :
    verifyBridgeProof nativeBuild mockProofPrefix ⟨FixedBytes.replicate 32 0,
        FixedBytes.replicate 32 0, 0, FixedBytes.replicate 32 1, 1, FixedBytes.replicate 20 0⟩ =
      .ok () ∧
    ∀ inputs, ¬BridgeBacked nativeBuild mockProofPrefix inputs := by
  refine ⟨rfl, ?_⟩
  intro inputs h
  obtain ⟨_, hparse, _⟩ := h
  cases hparse

end ObscuraNetwork
