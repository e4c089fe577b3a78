import ObscuraNetwork.BridgeVerify
import ObscuraNetwork.HeliosStep
import ObscuraNetwork.PayloadRoot

namespace ObscuraNetwork

namespace BeaconApi

structure BeaconHeaderJson where
  slot : String
  proposerIndex : String
  parentRoot : String
  stateRoot : String
  bodyRoot : String

structure LightClientHeaderJson where
  beacon : BeaconHeaderJson
  execution : ExecutionPayloadHeaderJson
  executionBranch : List String

structure SyncAggregateJson where
  syncCommitteeBits : String
  syncCommitteeSignature : String

structure LightClientFinalityUpdateJson where
  attestedHeader : LightClientHeaderJson
  finalizedHeader : LightClientHeaderJson
  finalityBranch : List String
  syncAggregate : SyncAggregateJson

structure GenesisConfigJson where
  genesisValidatorsRoot : String
  genesisForkVersion : String

def parseBeaconHeader (b : Build) (h : BeaconHeaderJson) : Outcome BeaconBlockHeader := do
  let slot ← context "parse slot" (parseU64 h.slot)
  let proposerIndex ← context "parse proposer_index" (parseU64 h.proposerIndex)
  let parentRoot ← context "parse parent_root" (parseBytes32 b h.parentRoot)
  let stateRoot ← context "parse state_root" (parseBytes32 b h.stateRoot)
  let bodyRoot ← context "parse body_root" (parseBytes32 b h.bodyRoot)
  pure
    { slot := slot
      proposerIndex := proposerIndex
      parentRoot := parentRoot
      stateRoot := stateRoot
      bodyRoot := bodyRoot }

def parseNodes (b : Build) : List String → Outcome (List Bytes32)
  | [] => pure []
  | s :: rest => do
    let node ← parseBytes32 b s
    let nodes ← parseNodes b rest
    pure (node :: nodes)

theorem parseNodes_length {b : Build} {texts : List String} {nodes : List Bytes32}
    (h : parseNodes b texts = .ok nodes) : nodes.length = texts.length := by
  induction texts generalizing nodes with
  | nil =>
    cases h
    rfl
  | cons s texts ih =>
    simp only [parseNodes, bind_ok, pure_ok] at h
    obtain ⟨node, _, nodes, hnodes, rfl⟩ := h
    simp only [List.length_cons, ih hnodes]

/-- The common body of the branch parsers. -/
def parseBranch (b : Build) (n : Nat) (nodes : List String) : Outcome (Branch n) :=
  if hlen : nodes.length = n then
    match h : parseNodes b nodes with
    | .error e => .error e
    | .ok branch => pure ⟨branch, (parseNodes_length h).trans hlen⟩
  else .error (.bail ("expected " ++ toString n ++ " branch nodes, got " ++
    toString nodes.length))

def parseBranch6 (b : Build) (nodes : List String) : Outcome (Branch 6) := parseBranch b 6 nodes

def parseBranch4 (b : Build) (nodes : List String) : Outcome (Branch 4) := parseBranch b 4 nodes

def countOnes (byte : UInt8) : Nat := (List.range 8).countP fun i => byte.toNat.testBit i

/-- The sum of the bit counts as a `u32`, cut down to a `u16`. -/
def countParticipation (b : Build) (bits : Bytes) : Outcome UInt16 :=
  let total := (bits.map countOnes).sum
  if b.overflowChecks = true ∧ 2 ^ 32 ≤ total then
    .error (.panic "attempt to add with overflow")
  else pure (UInt16.ofNat (total % 2 ^ 32))

def parseSignature (b : Build) (s : String) : Outcome (FixedBytes 96) := do
  let sigBytes ← context "build_witness: parse sync_committee_signature failed" (hexDecode b s)
  if h : sigBytes.length = 96 then pure ⟨sigBytes, h⟩
  else .error (.bail ("build_witness: sync_committee_signature has " ++
    toString sigBytes.length ++ " bytes, expected 96"))

def buildHeliosWitness (b : Build) (update : LightClientFinalityUpdateJson)
    (genesis : GenesisConfigJson) (syncCommitteePubkey : FixedBytes 48)
    (prevTrustedRoot : Bytes32) : Outcome HeliosWitness := do
  let attestedHeader ← parseBeaconHeader b update.attestedHeader.beacon
  let finalizedHeader ← parseBeaconHeader b update.finalizedHeader.beacon
  let finalityBranch ← context "build_witness: parse finality_branch failed"
    (parseBranch6 b update.finalityBranch)
  let bits ← context "build_witness: parse sync_committee_bits failed"
    (hexDecode b update.syncAggregate.syncCommitteeBits)
  let participation ← countParticipation b bits
  let signature ← parseSignature b update.syncAggregate.syncCommitteeSignature
  let forkVersion ← context "build_witness: parse fork_version failed"
    (parseForkVersion b genesis.genesisForkVersion)
  let genesisValidatorsRoot ← context "build_witness: parse genesis_validators_root failed"
    (parseBytes32 b genesis.genesisValidatorsRoot)
  let bodyToExecBranch ← context "build_witness: parse execution_branch failed"
    (parseBranch4 b update.finalizedHeader.executionBranch)
  let (executionPayloadRoot, execLeaves) ←
    context "build_witness: compute execution_payload_root failed"
      (sszExecutionPayloadRoot b update.finalizedHeader.execution)
  let execToHashBranch ← merkleBranch32 b.sha256 execLeaves 12
  let executionBlockHash ← context "build_witness: parse execution.block_hash failed"
    (parseBytes32 b update.finalizedHeader.execution.blockHash)
  pure
    { prevTrustedRoot := prevTrustedRoot
      attestedHeader := attestedHeader
      finalizedHeader := finalizedHeader
      finalityBranch := finalityBranch
      syncCommitteeParticipation := participation
      syncAggregateSignature := signature
      syncCommitteePubkey := syncCommitteePubkey
      forkVersion := forkVersion
      genesisValidatorsRoot := genesisValidatorsRoot
      executionPayloadRoot := executionPayloadRoot
      bodyToExecBranch := bodyToExecBranch
      executionBlockHash := executionBlockHash
      execToHashBranch := execToHashBranch }

end BeaconApi

open BeaconApi

/-- What the servers and the prover answer in one run of the relayer. -/
structure HeliosReplies where
  heliosState : Option (Bytes32 × UInt64)
  finalityUpdate : Outcome LightClientFinalityUpdateJson
  genesis : Outcome GenesisConfigJson
  aggregatePubkey : String → Option (FixedBytes 48)
  prove : HeliosWitness → HeliosPublicInputs → Outcome Bytes

def HeliosReplies.trusted (replies : HeliosReplies) : Bytes32 × UInt64 :=
  replies.heliosState.getD (FixedBytes.replicate 32 0, 0)

def HeliosReplies.pubkey (replies : HeliosReplies) (update : LightClientFinalityUpdateJson) :
    FixedBytes 48 :=
  (replies.aggregatePubkey update.finalizedHeader.beacon.parentRoot).getD
    (FixedBytes.replicate 48 1)

def generateHeliosSp1Proof (b : Build) (replies : HeliosReplies) (witness : HeliosWitness)
    (inputs : HeliosPublicInputs) : Outcome Bytes :=
  if b.native then replies.prove witness inputs
  else .error (.bail ("Real SP1 Helios proof requires `--features native` and SP1_PRIVATE_KEY. " ++
    "Use --mock-proofs for testnet."))

/-- The proof of one submission: a mock proof names the slot. -/
def heliosProof (b : Build) (mockProofs : Bool) (replies : HeliosReplies) (witness : HeliosWitness)
    (inputs : HeliosPublicInputs) : Outcome Bytes :=
  if mockProofs then pure (mockHeliosPrefix ++ toLeBytes inputs.newSlot)
  else generateHeliosSp1Proof b replies witness inputs

/-- `submit_helios_update`: the message it sends, if it sends one. -/
def submitHeliosUpdate (b : Build) (mockProofs : Bool) (replies : HeliosReplies) :
    Outcome (Option UpdateHeliosHead) := do
  let (currentTrustedRoot, currentSlot) := replies.trusted
  let update ← context "Helios: get_finality_update failed" replies.finalityUpdate
  let newSlot ← context "Helios: parse finalized slot"
    (parseU64 update.finalizedHeader.beacon.slot)
  if newSlot ≤ currentSlot then pure none
  else do
    let genesis ← context "Helios: get_genesis failed" replies.genesis
    let witness ← context "Helios: build_helios_witness failed"
      (buildHeliosWitness b update genesis (replies.pubkey update) currentTrustedRoot)
    let publicInputs : HeliosPublicInputs :=
      { prevTrustedRoot := currentTrustedRoot
        newBeaconRoot := witness.executionPayloadRoot
        newSlot := newSlot
        executionBlockHash := witness.executionBlockHash }
    let proof ← heliosProof b mockProofs replies witness publicInputs
    pure (some { proof := proof, publicInputs := publicInputs })

namespace BeaconApi

/-- What a built witness takes over from the update. -/
structure BuiltFrom (b : Build) (update : LightClientFinalityUpdateJson) (prevTrustedRoot : Bytes32)
    (witness : HeliosWitness) : Prop where
  trusted : witness.prevTrustedRoot = prevTrustedRoot
  attested : parseBeaconHeader b update.attestedHeader.beacon = .ok witness.attestedHeader
  finalized : parseBeaconHeader b update.finalizedHeader.beacon = .ok witness.finalizedHeader
  finality : parseBranch6 b update.finalityBranch = .ok witness.finalityBranch
  body : parseBranch4 b update.finalizedHeader.executionBranch = .ok witness.bodyToExecBranch
  payload : ∃ leaves, sszExecutionPayloadRoot b update.finalizedHeader.execution =
      .ok (witness.executionPayloadRoot, leaves) ∧
    merkleBranch32 b.sha256 leaves 12 = .ok witness.execToHashBranch
  blockHash : parseBytes32 b update.finalizedHeader.execution.blockHash =
    .ok witness.executionBlockHash

section BuildHelios

variable {b : Build} {update : LightClientFinalityUpdateJson} {genesis : GenesisConfigJson}
  {pubkey : FixedBytes 48} {prevTrustedRoot : Bytes32} {witness : HeliosWitness}

theorem buildHeliosWitness_ok
    (h : buildHeliosWitness b update genesis pubkey prevTrustedRoot = .ok witness) :
    BuiltFrom b update prevTrustedRoot witness := by
  simp only [buildHeliosWitness, bind_ok, context_ok, pure_ok] at h
  obtain ⟨attested, hattested, finalized, hfinalized, finality, hfinality, _, _, _, _, _, _, _, _,
    _, _, body, hbody, ⟨payloadRoot, leaves⟩, hpayload, branch, hbranch, blockHash, hblockHash,
    rfl⟩ := h
  exact ⟨rfl, hattested, hfinalized, hfinality, hbody, ⟨leaves, hpayload, hbranch⟩, hblockHash⟩

theorem parseBeaconHeader_slot {h : BeaconHeaderJson} {header : BeaconBlockHeader}
    (hparse : parseBeaconHeader b h = .ok header) : parseU64 h.slot = .ok header.slot := by
  simp only [parseBeaconHeader, bind_ok, context_ok, pure_ok] at hparse
  obtain ⟨slot, hslot, _, _, _, _, _, _, _, _, rfl⟩ := hparse
  exact hslot

/-- The payload branch of a built witness always leads from its block hash to its payload root. -/
theorem built_payload_verifies
    (h : buildHeliosWitness b update genesis pubkey prevTrustedRoot = .ok witness) :
    walk (sha256Pair b.sha256) execToHashLeafIndex.toNat witness.executionBlockHash
      witness.execToHashBranch.1 = witness.executionPayloadRoot := by
  have hbuilt := buildHeliosWitness_ok h
  obtain ⟨leaves, hpayload, hbranch⟩ := hbuilt.payload
  simp only [sszExecutionPayloadRoot, bind_ok, pure_ok, Prod.mk.injEq] at hpayload
  obtain ⟨leaves, hleaves, root, hroot, rfl, rfl⟩ := hpayload
  have hleaf := executionPayloadLeaves_blockHash hleaves
  have hhash : witness.executionBlockHash = leaves.1.getD 12 zeroBytes :=
    Except.ok.inj (hbuilt.blockHash.symm.trans hleaf)
  rw [hhash]
  exact merkleBranch32_verifies (by decide) hbranch hroot

end BuildHelios

end BeaconApi

end ObscuraNetwork
