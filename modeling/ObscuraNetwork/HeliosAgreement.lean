import ObscuraNetwork.HeliosBinding
import ObscuraNetwork.UpdateText

namespace ObscuraNetwork

open BeaconApi

/-- The inputs sent with a proof are the outputs the proof commits. -/
structure SameHead (inputs : HeliosPublicInputs) (out : HeliosPublicOutputs) : Prop where
  prevTrustedRoot : inputs.prevTrustedRoot = out.prevTrustedRoot
  newBeaconRoot : inputs.newBeaconRoot = out.newBeaconRoot
  newSlot : inputs.newSlot = out.newSlot
  executionBlockHash : inputs.executionBlockHash = out.executionBlockHash

/-- The siblings on the way from the body root to the root of the header. -/
def bodySiblings (sha256 : Bytes → Bytes32) (h : BeaconBlockHeader) : List Bytes32 :=
  siblingsFrom (sha256Pair sha256) (headerLeaf h) 0 4 3

/-- The place of the execution payload below the root of the header, seven levels up. -/
def payloadIndex : Nat := bodyToExecLeafIndex.toNat + 2 ^ bodyToExecDepth * 4

/-- The execution payload root of a header is its own ancestor: hashed up with the seven siblings
that lead from it to the root of the header, it comes back to itself. -/
def PayloadRootLoops (b : Build) (h : LightClientHeaderJson) : Prop :=
  ∃ header payload branch, parseBeaconHeader b h.beacon = .ok header ∧
    sszExecutionPayloadRoot b h.execution = .ok payload ∧
    parseBranch4 b h.executionBranch = .ok branch ∧
    walk (sha256Pair b.sha256) payloadIndex payload.1
      (branch.1 ++ bodySiblings b.sha256 header) = payload.1

section HeliosAgreement

/-- The seven siblings lead from the payload root to the root of the header. -/
theorem walk_payloadIndex {sha256 : Bytes → Bytes32} {header : BeaconBlockHeader}
    {payloadRoot : Bytes32} {branch : Branch 4}
    (h : walk (sha256Pair sha256) bodyToExecLeafIndex.toNat payloadRoot branch.1 =
      header.bodyRoot) :
    walk (sha256Pair sha256) payloadIndex payloadRoot (branch.1 ++ bodySiblings sha256 header) =
      hashTreeRootBeaconHeader sha256 header := by
  have hlen : branch.1.length = bodyToExecDepth := branch.2
  have hlower : walk (sha256Pair sha256) payloadIndex payloadRoot branch.1 = header.bodyRoot := by
    rw [payloadIndex, ← hlen, walk_add_mul, h]
  have hupper : payloadIndex / 2 ^ branch.1.length = 4 := by
    rw [hlen]
    rfl
  have hheader := @walk_siblings _ (sha256Pair sha256) (headerLeaf header) 0 4 3
  rw [walk_append, hlower, hupper]
  exact hheader

variable {b : Build} {mockProofs : Bool} {replies : HeliosReplies}
  {update : LightClientFinalityUpdateJson} {genesis : GenesisConfigJson} {msg : UpdateHeliosHead}
  {witness : HeliosWitness} {out : HeliosPublicOutputs}

/-- What a sent message says about the witness built in the same run. -/
theorem submitHeliosUpdate_ok (hupdate : replies.finalityUpdate = .ok update)
    (hgenesis : replies.genesis = .ok genesis)
    (hsent : submitHeliosUpdate b mockProofs replies = .ok (some msg))
    (hbuilt : buildHeliosWitness b update genesis (replies.pubkey update) replies.trusted.1 =
      .ok witness) :
    msg.publicInputs =
      { prevTrustedRoot := witness.prevTrustedRoot
        newBeaconRoot := witness.executionPayloadRoot
        newSlot := witness.finalizedHeader.slot
        executionBlockHash := witness.executionBlockHash } := by
  have hfrom := buildHeliosWitness_ok hbuilt
  have hslot := parseBeaconHeader_slot hfrom.finalized
  have htrusted := hfrom.trusted
  simp only [submitHeliosUpdate, hupdate, hslot, context, ok_bind] at hsent
  split at hsent
  next => simp at hsent
  next =>
    simp only [hgenesis, hbuilt, ok_bind] at hsent
    obtain ⟨proof, _, hmsg⟩ := bind_ok.mp hsent
    simp only [pure_ok, Option.some.injEq] at hmsg
    rw [← hmsg, htrusted]

/-- With mock proofs every witness of a later slot is sent. -/
theorem submitHeliosUpdate_mock (hupdate : replies.finalityUpdate = .ok update)
    (hgenesis : replies.genesis = .ok genesis)
    (hbuilt : buildHeliosWitness b update genesis (replies.pubkey update) replies.trusted.1 =
      .ok witness)
    (hnew : replies.trusted.2 < witness.finalizedHeader.slot) :
    submitHeliosUpdate b true replies = .ok (some
      { proof := mockHeliosPrefix ++ toLeBytes witness.finalizedHeader.slot
        publicInputs :=
          { prevTrustedRoot := replies.trusted.1
            newBeaconRoot := witness.executionPayloadRoot
            newSlot := witness.finalizedHeader.slot
            executionBlockHash := witness.executionBlockHash } }) := by
  have hslot := parseBeaconHeader_slot (buildHeliosWitness_ok hbuilt).finalized
  have hlate : ¬witness.finalizedHeader.slot ≤ replies.trusted.2 := UInt64.not_le.mpr hnew
  simp only [submitHeliosUpdate, hupdate, hgenesis, hslot, hbuilt, context, ok_bind]
  rw [if_neg hlate]
  rfl

/-- The relayer sends what the circuit commits exactly when the payload root it sends in place of
the beacon root lies above itself. -/
theorem sent_inputs_agree_iff (hupdate : replies.finalityUpdate = .ok update)
    (hgenesis : replies.genesis = .ok genesis)
    (hsent : submitHeliosUpdate b mockProofs replies = .ok (some msg))
    (hbuilt : buildHeliosWitness b update genesis (replies.pubkey update) replies.trusted.1 =
      .ok witness)
    (hmain : heliosMain b.sha256 witness = .ok out) :
    SameHead msg.publicInputs out ↔ PayloadRootLoops b update.finalizedHeader := by
  have hfrom := buildHeliosWitness_ok hbuilt
  obtain ⟨leaves, hpayload, _⟩ := hfrom.payload
  obtain ⟨haccepted, rfl⟩ := heliosMain_ok.mp hmain
  have hclimb := walk_payloadIndex haccepted.body
  rw [submitHeliosUpdate_ok hupdate hgenesis hsent hbuilt]
  constructor
  · intro hsame
    have hroot : witness.executionPayloadRoot =
        hashTreeRootBeaconHeader b.sha256 witness.finalizedHeader := hsame.newBeaconRoot
    exact ⟨witness.finalizedHeader, (witness.executionPayloadRoot, leaves),
      witness.bodyToExecBranch, hfrom.finalized, hpayload, hfrom.body, hclimb.trans hroot.symm⟩
  · intro hloops
    obtain ⟨header, payload, branch, hheader, hpayload', hbranch, hloop⟩ := hloops
    cases Except.ok.inj (hfrom.finalized.symm.trans hheader)
    cases Except.ok.inj (hpayload.symm.trans hpayload')
    cases Except.ok.inj (hfrom.body.symm.trans hbranch)
    exact
      { prevTrustedRoot := rfl
        newBeaconRoot := hloop.symm.trans hclimb
        newSlot := rfl
        executionBlockHash := rfl }

end HeliosAgreement

def emptyPayload : ExecutionPayloadHeader where
  parentHash := zeroBytes
  feeRecipient := FixedBytes.replicate 20 0
  stateRoot := zeroBytes
  receiptsRoot := zeroBytes
  logsBloom := FixedBytes.replicate 256 0
  prevRandao := zeroBytes
  blockNumber := 1
  gasLimit := 0
  gasUsed := 0
  timestamp := 0
  extraData := ⟨[], by decide⟩
  baseFeePerGas := 7
  blockHash := FixedBytes.replicate 32 1
  transactionsRoot := zeroBytes
  withdrawalsRoot := zeroBytes
  blobGasUsed := 0
  excessBlobGas := 0

def emptyBlockHeader : BeaconBlockHeader where
  slot := 1
  proposerIndex := 0
  parentRoot := zeroBytes
  stateRoot := zeroBytes
  bodyRoot := walk (sha256Pair sha256) bodyToExecLeafIndex.toNat (emptyPayload.root sha256)
    (countedBranch 4 7).1

/-- An update of the first slot with full participation. -/
def firstUpdate : FinalityUpdate where
  attestedHeader :=
    { slot := 1
      proposerIndex := 0
      parentRoot := zeroBytes
      stateRoot := walk (sha256Pair sha256) finalizedRootLeafIndex.toNat
        (hashTreeRootBeaconHeader sha256 emptyBlockHeader) (countedBranch 6 12).1
      bodyRoot := zeroBytes }
  finalizedHeader := emptyBlockHeader
  execution := emptyPayload
  executionBranch := countedBranch 4 7
  finalityBranch := countedBranch 6 12
  syncCommitteeBits := FixedBytes.replicate 64 0xff
  syncCommitteeSignature := FixedBytes.replicate 96 1

def firstGenesis : GenesisConfigJson := genesisText zeroBytes (FixedBytes.replicate 4 0)

/-- A run against an empty rollup, with the fallback key and no prover. -/
def firstReplies : HeliosReplies where
  heliosState := none
  finalityUpdate := .ok firstUpdate.text
  genesis := .ok firstGenesis
  aggregatePubkey _ := none
  prove _ _ := .error (.bail "no prover")

def firstWitness : HeliosWitness :=
  firstUpdate.witness sha256 zeroBytes (FixedBytes.replicate 4 0) (FixedBytes.replicate 48 1)
    zeroBytes

def firstMessage : UpdateHeliosHead where
  proof := mockHeliosPrefix ++ toLeBytes firstWitness.finalizedHeader.slot
  publicInputs :=
    { prevTrustedRoot := firstReplies.trusted.1
      newBeaconRoot := firstWitness.executionPayloadRoot
      newSlot := firstWitness.finalizedHeader.slot
      executionBlockHash := firstWitness.executionBlockHash }

theorem firstWitness_built :
    buildHeliosWitness Build.default firstUpdate.text firstGenesis
      (firstReplies.pubkey firstUpdate.text) firstReplies.trusted.1 = .ok firstWitness :=
  buildHeliosWitness_text Build.default firstUpdate _ _ _ _

theorem firstWitness_accepted :
    heliosMain sha256 firstWitness = .ok (firstWitness.outputs sha256) := by
  refine heliosMain_ok.mpr ⟨?_, rfl⟩
  exact
    { slot := show (0 : UInt64) < 1 by decide
      attested := show (1 : UInt64) ≤ 1 by decide
      finality := rfl
      participation := by decide +kernel
      signature := by simp only [firstWitness, FinalityUpdate.witness, firstUpdate]; decide
      pubkey := by simp only [firstWitness, FinalityUpdate.witness]; decide
      body := rfl
      payload := built_payload_verifies firstWitness_built }

theorem firstMessage_sent :
    submitHeliosUpdate Build.default true firstReplies = .ok (some firstMessage) := by
  have hnew : firstReplies.trusted.2 < firstWitness.finalizedHeader.slot :=
    show (0 : UInt64) < 1 by decide
  exact submitHeliosUpdate_mock rfl rfl firstWitness_built hnew

theorem sent_inputs_agree_iff_first :
    SameHead firstMessage.publicInputs (firstWitness.outputs sha256) ↔
      PayloadRootLoops Build.default firstUpdate.text.finalizedHeader :=
  sent_inputs_agree_iff rfl rfl firstMessage_sent firstWitness_built firstWitness_accepted

theorem firstWitness_roots :
    firstWitness.executionPayloadRoot ≠
      hashTreeRootBeaconHeader sha256 firstWitness.finalizedHeader := by
  decide +kernel

/-- The message of an accepted witness announces another beacon root than the circuit commits. -/
theorem sent_root_is_payload_root :
    ∃ (replies : HeliosReplies) (update : LightClientFinalityUpdateJson)
      (genesis : GenesisConfigJson) (msg : UpdateHeliosHead) (witness : HeliosWitness)
      (out : HeliosPublicOutputs),
      replies.finalityUpdate = .ok update ∧ replies.genesis = .ok genesis ∧
        submitHeliosUpdate Build.default true replies = .ok (some msg) ∧
        buildHeliosWitness Build.default update genesis (replies.pubkey update)
          replies.trusted.1 = .ok witness ∧
        heliosMain sha256 witness = .ok out ∧ ¬SameHead msg.publicInputs out := by
  have hdiffer : ¬SameHead firstMessage.publicInputs (firstWitness.outputs sha256) := by
    intro hsame
    exact firstWitness_roots hsame.newBeaconRoot
  exact ⟨firstReplies, firstUpdate.text, firstGenesis, firstMessage, firstWitness, _, rfl, rfl,
    firstMessage_sent, firstWitness_built, firstWitness_accepted, hdiffer⟩

end ObscuraNetwork
