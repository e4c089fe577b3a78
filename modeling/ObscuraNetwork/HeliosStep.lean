import ObscuraNetwork.BridgeTypes
import ObscuraNetwork.Ssz

namespace ObscuraNetwork

structure HeliosWitness where
  prevTrustedRoot : Bytes32
  attestedHeader : BeaconBlockHeader
  finalizedHeader : BeaconBlockHeader
  finalityBranch : Branch 6
  syncCommitteeParticipation : UInt16
  syncAggregateSignature : FixedBytes 96
  syncCommitteePubkey : FixedBytes 48
  forkVersion : FixedBytes 4
  genesisValidatorsRoot : Bytes32
  executionPayloadRoot : Bytes32
  bodyToExecBranch : Branch 4
  executionBlockHash : Bytes32
  execToHashBranch : Branch 5
  deriving DecidableEq

structure HeliosPublicOutputs where
  prevTrustedRoot : Bytes32
  newBeaconRoot : Bytes32
  newSlot : UInt64
  executionBlockHash : Bytes32
  deriving DecidableEq

def minSyncCommitteeParticipation : UInt16 := 342

def finalizedRootDepth : Nat := 6
def finalizedRootLeafIndex : UInt64 := 41

def bodyToExecDepth : Nat := 4
def bodyToExecLeafIndex : UInt64 := 9

def execToHashDepth : Nat := 5
def execToHashLeafIndex : UInt64 := 12

/-- `main` of the Helios circuit: the committed outputs, or the text of the failed assertion. The
signing root is computed and not used: the signature check of the first phase looks for a non-zero
signature only. -/
def heliosMain (sha256 : Bytes → Bytes32) (witness : HeliosWitness) :
    Outcome HeliosPublicOutputs := do
  let finalizedHeaderRoot := hashTreeRootBeaconHeader sha256 witness.finalizedHeader
  let attestedHeaderRoot := hashTreeRootBeaconHeader sha256 witness.attestedHeader
  ensure (0 < witness.finalizedHeader.slot) (.panic "Helios: finalized slot must be non-zero")
  ensure (witness.finalizedHeader.slot ≤ witness.attestedHeader.slot)
    (.panic ("Helios: finalized slot (" ++ toString witness.finalizedHeader.slot.toNat ++
      ") > attested slot (" ++ toString witness.attestedHeader.slot.toNat ++ ")"))
  ensure (verifyMerkleBranch sha256 finalizedHeaderRoot witness.finalityBranch.1 finalizedRootDepth
      finalizedRootLeafIndex witness.attestedHeader.stateRoot = true)
    (.panic ("Helios: finality branch verification failed — finalized_header not in attested " ++
      "state"))
  ensure (minSyncCommitteeParticipation ≤ witness.syncCommitteeParticipation)
    (.panic ("Helios: insufficient sync committee participation (" ++
      toString witness.syncCommitteeParticipation.toNat ++ "/512, need " ++
      toString minSyncCommitteeParticipation.toNat ++ ")"))
  ensure (witness.syncAggregateSignature ≠ FixedBytes.replicate 96 0)
    (.panic "Helios: BLS signature is all zeros (invalid)")
  ensure (witness.syncCommitteePubkey ≠ FixedBytes.replicate 48 0)
    (.panic "Helios: sync committee pubkey is all zeros (invalid)")
  let domain := computeDomain sha256 domainSyncCommittee witness.forkVersion
    witness.genesisValidatorsRoot
  let _signingRoot := computeSigningRoot sha256 attestedHeaderRoot domain
  ensure (verifyMerkleBranch sha256 witness.executionPayloadRoot witness.bodyToExecBranch.1
      bodyToExecDepth bodyToExecLeafIndex witness.finalizedHeader.bodyRoot = true)
    (.panic ("Helios: execution_payload_root not in finalized body_root (depth=4, index=9)"))
  ensure (verifyMerkleBranch sha256 witness.executionBlockHash witness.execToHashBranch.1
      execToHashDepth execToHashLeafIndex witness.executionPayloadRoot = true)
    (.panic "Helios: execution_block_hash not in execution_payload_root (depth=5, index=12)")
  pure
    { prevTrustedRoot := witness.prevTrustedRoot
      newBeaconRoot := finalizedHeaderRoot
      newSlot := witness.finalizedHeader.slot
      executionBlockHash := witness.executionBlockHash }

/-- The constraints of an accepted run, branches as walks. -/
structure HeliosAccepted (sha256 : Bytes → Bytes32) (witness : HeliosWitness) : Prop where
  slot : 0 < witness.finalizedHeader.slot
  attested : witness.finalizedHeader.slot ≤ witness.attestedHeader.slot
  finality : walk (sha256Pair sha256) finalizedRootLeafIndex.toNat
    (hashTreeRootBeaconHeader sha256 witness.finalizedHeader) witness.finalityBranch.1 =
      witness.attestedHeader.stateRoot
  participation : minSyncCommitteeParticipation ≤ witness.syncCommitteeParticipation
  signature : witness.syncAggregateSignature ≠ FixedBytes.replicate 96 0
  pubkey : witness.syncCommitteePubkey ≠ FixedBytes.replicate 48 0
  body : walk (sha256Pair sha256) bodyToExecLeafIndex.toNat witness.executionPayloadRoot
    witness.bodyToExecBranch.1 = witness.finalizedHeader.bodyRoot
  payload : walk (sha256Pair sha256) execToHashLeafIndex.toNat witness.executionBlockHash
    witness.execToHashBranch.1 = witness.executionPayloadRoot

def HeliosWitness.outputs (sha256 : Bytes → Bytes32) (witness : HeliosWitness) :
    HeliosPublicOutputs where
  prevTrustedRoot := witness.prevTrustedRoot
  newBeaconRoot := hashTreeRootBeaconHeader sha256 witness.finalizedHeader
  newSlot := witness.finalizedHeader.slot
  executionBlockHash := witness.executionBlockHash

theorem heliosMain_ok {sha256 : Bytes → Bytes32} {witness : HeliosWitness}
    {out : HeliosPublicOutputs} :
    heliosMain sha256 witness = .ok out ↔
      HeliosAccepted sha256 witness ∧ out = witness.outputs sha256 := by
  have hfinality := verifyMerkleBranch_iff sha256
    (hashTreeRootBeaconHeader sha256 witness.finalizedHeader) witness.attestedHeader.stateRoot
    witness.finalityBranch (by decide) finalizedRootLeafIndex
  have hbody := verifyMerkleBranch_iff sha256 witness.executionPayloadRoot
    witness.finalizedHeader.bodyRoot witness.bodyToExecBranch (by decide) bodyToExecLeafIndex
  have hpayload := verifyMerkleBranch_iff sha256 witness.executionBlockHash
    witness.executionPayloadRoot witness.execToHashBranch (by decide) execToHashLeafIndex
  simp only [heliosMain, bind_ok, ensure_ok, pure_ok, finalizedRootDepth, bodyToExecDepth,
    execToHashDepth, hfinality, hbody, hpayload]
  constructor
  · intro h
    obtain ⟨_, hslot, _, hattested, _, hfin, _, hpart, _, hsig, _, hkey, _, hbod, _, hpay, rfl⟩ := h
    exact ⟨⟨hslot, hattested, hfin, hpart, hsig, hkey, hbod, hpay⟩, rfl⟩
  · intro h
    obtain ⟨⟨hslot, hattested, hfin, hpart, hsig, hkey, hbod, hpay⟩, rfl⟩ := h
    exact ⟨(), hslot, (), hattested, (), hfin, (), hpart, (), hsig, (), hkey, (), hbod, (), hpay,
      rfl⟩

end ObscuraNetwork
