import ObscuraNetwork.BridgeVerify
import ObscuraNetwork.PrivacyModule

namespace ObscuraNetwork

structure ObscuraBridge where
  config : Option BridgeConfig
  processedDeposits : StateMap String Bool
  totalBridgedUsdc : Option UInt64
  totalClaims : Option UInt64
  claimedAmounts : StateMap UInt64 UInt64
  withdrawals : StateMap UInt64 WithdrawalRecord
  nextWithdrawalId : Option UInt64
  totalWithdrawnUsdc : Option UInt64
  heliosConfig : Option HeliosConfig
  trustedBeaconRoot : Option Bytes32
  trustedSlot : Option UInt64
  finalizedEthBlocks : StateMap String UInt64
  heliosUpdateCount : Option UInt64

/-- The two modules of the runtime; the bridge writes to the privacy module's storage too. -/
structure Runtime where
  obscuraPrivacy : ObscuraPrivacy
  obscuraBridge : ObscuraBridge

/-- The asset of bridged USDC, `bridged-usdc-obscura-network-v01`. -/
def bridgedUsdcAsset : AssetId :=
  ⟨⟨[0x62, 0x72, 0x69, 0x64, 0x67, 0x65, 0x64, 0x2d, 0x75, 0x73, 0x64, 0x63, 0x2d, 0x6f, 0x62, 0x73,
    0x63, 0x75, 0x72, 0x61, 0x2d, 0x6e, 0x65, 0x74, 0x77, 0x6f, 0x72, 0x6b, 0x2d, 0x76, 0x30, 0x31],
    rfl⟩⟩

namespace ObscuraBridge

def genesis (config : BridgeConfig) : ObscuraBridge where
  config := some config
  processedDeposits := fun _ => none
  totalBridgedUsdc := some 0
  totalClaims := some 0
  claimedAmounts := fun _ => none
  withdrawals := fun _ => none
  nextWithdrawalId := some 0
  totalWithdrawnUsdc := some 0
  heliosConfig := some config.helios
  trustedBeaconRoot := some config.helios.initialTrustedBeaconRoot
  trustedSlot := some config.helios.initialTrustedSlot
  finalizedEthBlocks := fun _ => none
  heliosUpdateCount := some 0

def isProcessed (s : ObscuraBridge) (key : String) : Bool := (s.processedDeposits key).getD false

def contract (b : Build) (s : ObscuraBridge) : Outcome Bytes20 :=
  parseContractAddress b (s.config.getD BridgeConfig.default).bridgeContractAddress

/-- The Helios gate of `handle_claim_deposit`: an unproven block reads as slot 0. -/
def checkFinalized (ethBlockHash : Bytes32) (s : ObscuraBridge) : Outcome Unit :=
  let trustedSlot := s.trustedSlot.getD 0
  let provenSlot := (s.finalizedEthBlocks (blockKey ethBlockHash)).getD 0
  ensure (¬(0 < trustedSlot ∧ provenSlot = 0))
    (.bail ("Bridge: eth_block_hash 0x" ++ hexEncode ethBlockHash.bytes ++
      " not proven finalized by Helios. Submit UpdateHeliosHead first."))

/-- The checks of `handle_claim_deposit`, up to and including the proof. -/
def claimChecks (b : Build) (claim : ClaimDeposit) (s : ObscuraBridge) : Outcome Unit := do
  let inputs := claim.publicInputs
  ensure (inputs.amount ≠ 0) (.bail "Bridge: deposit amount is zero")
  ensure (inputs.obscuraRecipient ≠ FixedBytes.replicate 32 0)
    (.bail "Bridge: zero obscura recipient")
  let expectedContract ← s.contract b
  ensure (inputs.bridgeContract = expectedContract)
    (.bail ("Bridge: proof is for wrong contract " ++ debugBytes inputs.bridgeContract.bytes ++
      ", expected " ++ debugBytes expectedContract.bytes))
  ensure (s.isProcessed (makeDepositKeyStr inputs.bridgeContract inputs.depositId) = false)
    (.bail ("Bridge: deposit " ++ toString inputs.depositId.toNat ++ " already claimed"))
  s.checkFinalized inputs.ethBlockHash
  mapBail (fun e => "Bridge: proof verification failed: " ++ e)
    (verifyBridgeProof b claim.proof inputs)

theorem claimChecks_noPanic (b : Build) (claim : ClaimDeposit) (s : ObscuraBridge) :
    NoPanic (claimChecks b claim s) :=
  (noPanic_ensure _ _).bind fun _ _ => (noPanic_ensure _ _).bind fun _ _ =>
    (parseContractAddress_noPanic _ _).bind fun _ _ => (noPanic_ensure _ _).bind fun _ _ =>
      (noPanic_ensure _ _).bind fun _ _ => (noPanic_ensure _ _).bind fun _ _ =>
        mapBail_noPanic _ (verifyBridgeProof_noPanic _ _ _)

def handleClaimDeposit (b : Build) (claim : ClaimDeposit) (s : Runtime) : Outcome Runtime := do
  let inputs := claim.publicInputs
  claimChecks b claim s.obscuraBridge
  let bridge := { s.obscuraBridge with
    processedDeposits := s.obscuraBridge.processedDeposits.set
      (makeDepositKeyStr inputs.bridgeContract inputs.depositId) true
    claimedAmounts := s.obscuraBridge.claimedAmounts.set inputs.depositId inputs.amount }
  let commitment : Commitment := ⟨inputs.obscuraRecipient⟩
  let privacy ← (s.obscuraPrivacy.pushCommitment commitment).insertCommitment b commitment
  let shielded ← addU64 b (privacy.supply bridgedUsdcAsset) inputs.amount
  let privacy := privacy.setSupply bridgedUsdcAsset shielded
  let total ← addU64 b (bridge.totalBridgedUsdc.getD 0) inputs.amount
  let claims ← addU64 b (bridge.totalClaims.getD 0) 1
  pure ⟨privacy, { bridge with totalBridgedUsdc := some total, totalClaims := some claims }⟩

def handleWithdrawBridge (b : Build) (msg : WithdrawBridge) (s : ObscuraBridge) :
    Outcome ObscuraBridge := do
  let contract ← s.contract b
  ensure (s.isProcessed (makeDepositKeyStr contract msg.depositId) = true)
    (.bail ("Bridge: deposit " ++ toString msg.depositId.toNat ++ " was not claimed on Obscura"))
  ensure (s.isProcessed (withdrawalKey msg.depositId) = false)
    (.bail ("Bridge: deposit " ++ toString msg.depositId.toNat ++ " already withdrawn"))
  let amount := (s.claimedAmounts msg.depositId).getD 0
  ensure (amount ≠ 0)
    (.bail ("Bridge: no claimed amount found for deposit " ++ toString msg.depositId.toNat))
  let withdrawalId := s.nextWithdrawalId.getD 0
  let nextId ← addU64 b withdrawalId 1
  let withdrawn ← addU64 b (s.totalWithdrawnUsdc.getD 0) amount
  pure { s with
    nextWithdrawalId := some nextId
    processedDeposits := s.processedDeposits.set (withdrawalKey msg.depositId) true
    withdrawals := s.withdrawals.set withdrawalId
      { withdrawalId, depositId := msg.depositId, ethRecipient := msg.ethRecipient, amount,
        relayed := false }
    totalWithdrawnUsdc := some withdrawn }

/-- The gap test of `handle_update_helios_head`, skipped while no slot is trusted. -/
def checkSlotGap (newSlot : UInt64) (s : ObscuraBridge) : Outcome Unit :=
  let currentSlot := s.trustedSlot.getD 0
  let maxSlotGap := (s.heliosConfig.getD HeliosConfig.default).maxSlotGap
  let gap := saturatingSub newSlot currentSlot
  ensure (¬(0 < currentSlot ∧ maxSlotGap < gap))
    (.bail ("Helios: slot gap " ++ toString gap.toNat ++ " exceeds max_slot_gap " ++
      toString maxSlotGap.toNat ++ ". Submit intermediate updates first."))

def handleUpdateHeliosHead (b : Build) (update : UpdateHeliosHead) (s : ObscuraBridge) :
    Outcome ObscuraBridge := do
  let inputs := update.publicInputs
  let currentRoot := s.trustedBeaconRoot.getD (FixedBytes.replicate 32 0)
  ensure (inputs.prevTrustedRoot = currentRoot)
    (.bail ("Helios: prev_trusted_root mismatch — expected 0x" ++ hexEncode currentRoot.bytes ++
      ", got 0x" ++ hexEncode inputs.prevTrustedRoot.bytes ++
      ". Helios updates must be submitted in order."))
  let currentSlot := s.trustedSlot.getD 0
  ensure (currentSlot < inputs.newSlot)
    (.bail ("Helios: new_slot (" ++ toString inputs.newSlot.toNat ++
      ") must be > current trusted_slot (" ++ toString currentSlot.toNat ++ ")"))
  s.checkSlotGap inputs.newSlot
  mapBail (fun e => "Helios: proof verification failed: " ++ e)
    (verifyHeliosProof b update.proof inputs)
  let count ← addU64 b (s.heliosUpdateCount.getD 0) 1
  pure { s with
    trustedBeaconRoot := some inputs.newBeaconRoot
    trustedSlot := some inputs.newSlot
    finalizedEthBlocks :=
      s.finalizedEthBlocks.set (blockKey inputs.executionBlockHash) inputs.newSlot
    heliosUpdateCount := some count }

/-- `ObscuraBridge::call`, on the storage of both modules. -/
def call (b : Build) : BridgeCallMessage → Runtime → Outcome Runtime
  | .claimDeposit claim, s => handleClaimDeposit b claim s
  | .withdrawBridge msg, s => do
    let bridge ← handleWithdrawBridge b msg s.obscuraBridge
    pure { s with obscuraBridge := bridge }
  | .updateHeliosHead update, s => do
    let bridge ← handleUpdateHeliosHead b update s.obscuraBridge
    pure { s with obscuraBridge := bridge }

end ObscuraBridge

end ObscuraNetwork
