import ObscuraNetwork.HeliosRelayer

namespace ObscuraNetwork

namespace BeaconApi

/-- The values behind the text of an execution payload header. -/
structure ExecutionPayloadHeader where
  parentHash : Bytes32
  feeRecipient : Bytes20
  stateRoot : Bytes32
  receiptsRoot : Bytes32
  logsBloom : FixedBytes 256
  prevRandao : Bytes32
  blockNumber : UInt64
  gasLimit : UInt64
  gasUsed : UInt64
  timestamp : UInt64
  extraData : {bytes : Bytes // bytes.length ≤ 32}
  baseFeePerGas : Fin (2 ^ 128)
  blockHash : Bytes32
  transactionsRoot : Bytes32
  withdrawalsRoot : Bytes32
  blobGasUsed : UInt64
  excessBlobGas : UInt64

def ExecutionPayloadHeader.text (p : ExecutionPayloadHeader) : ExecutionPayloadHeaderJson where
  parentHash := hexText p.parentHash.bytes
  feeRecipient := hexText p.feeRecipient.bytes
  stateRoot := hexText p.stateRoot.bytes
  receiptsRoot := hexText p.receiptsRoot.bytes
  logsBloom := hexText p.logsBloom.bytes
  prevRandao := hexText p.prevRandao.bytes
  blockNumber := toString p.blockNumber.toNat
  gasLimit := toString p.gasLimit.toNat
  gasUsed := toString p.gasUsed.toNat
  timestamp := toString p.timestamp.toNat
  extraData := hexText p.extraData.1
  baseFeePerGas := toString p.baseFeePerGas.1
  blockHash := hexText p.blockHash.bytes
  transactionsRoot := hexText p.transactionsRoot.bytes
  withdrawalsRoot := hexText p.withdrawalsRoot.bytes
  blobGasUsed := toString p.blobGasUsed.toNat
  excessBlobGas := toString p.excessBlobGas.toNat

def headerText (h : BeaconBlockHeader) : BeaconHeaderJson where
  slot := toString h.slot.toNat
  proposerIndex := toString h.proposerIndex.toNat
  parentRoot := hexText h.parentRoot.bytes
  stateRoot := hexText h.stateRoot.bytes
  bodyRoot := hexText h.bodyRoot.bytes

def nodesText (nodes : List Bytes32) : List String := nodes.map fun node => hexText node.bytes

/-- The values behind the text of a finality update, as far as the witness is made of them. -/
structure FinalityUpdate where
  attestedHeader : BeaconBlockHeader
  finalizedHeader : BeaconBlockHeader
  execution : ExecutionPayloadHeader
  executionBranch : Branch 4
  finalityBranch : Branch 6
  syncCommitteeBits : FixedBytes 64
  syncCommitteeSignature : FixedBytes 96

def FinalityUpdate.text (u : FinalityUpdate) : LightClientFinalityUpdateJson where
  attestedHeader :=
    { beacon := headerText u.attestedHeader
      execution := u.execution.text
      executionBranch := nodesText u.executionBranch.1 }
  finalizedHeader :=
    { beacon := headerText u.finalizedHeader
      execution := u.execution.text
      executionBranch := nodesText u.executionBranch.1 }
  finalityBranch := nodesText u.finalityBranch.1
  syncAggregate :=
    { syncCommitteeBits := hexText u.syncCommitteeBits.bytes
      syncCommitteeSignature := hexText u.syncCommitteeSignature.bytes }

def genesisText (genesisValidatorsRoot : Bytes32) (forkVersion : FixedBytes 4) :
    GenesisConfigJson where
  genesisValidatorsRoot := hexText genesisValidatorsRoot.bytes
  genesisForkVersion := hexText forkVersion.bytes

section Leaves

variable (sha256 : Bytes → Bytes32)

/-- The root of the first `2^n` chunks of some data. -/
def chunkRoot (data : Bytes) (n : Nat) : Bytes32 :=
  treeNode (sha256Pair sha256) (fun i => (chunkLeaves data).getD i zeroBytes) n 0

def ExecutionPayloadHeader.leaves (p : ExecutionPayloadHeader) : Leaves 32 :=
  ⟨[p.parentHash, zeroPadded p.feeRecipient.bytes, p.stateRoot, p.receiptsRoot,
    chunkRoot sha256 p.logsBloom.bytes 3, p.prevRandao, uint64Leaf p.blockNumber,
    uint64Leaf p.gasLimit, uint64Leaf p.gasUsed, uint64Leaf p.timestamp,
    sha256Pair sha256 (chunkRoot sha256 p.extraData.1 0)
      (uint64Leaf (UInt64.ofNat p.extraData.1.length)),
    zeroPadded (leBytes 16 p.baseFeePerGas.1), p.blockHash, p.transactionsRoot, p.withdrawalsRoot,
    uint64Leaf p.blobGasUsed, uint64Leaf p.excessBlobGas] ++ List.replicate 15 zeroBytes, rfl⟩

def ExecutionPayloadHeader.root (p : ExecutionPayloadHeader) : Bytes32 :=
  treeNode (sha256Pair sha256) (fun i => (p.leaves sha256).1.getD i zeroBytes) 5 0

/-- The witness that belongs to an update. -/
def FinalityUpdate.witness (u : FinalityUpdate) (genesisValidatorsRoot : Bytes32)
    (forkVersion : FixedBytes 4) (syncCommitteePubkey : FixedBytes 48)
    (prevTrustedRoot : Bytes32) : HeliosWitness where
  prevTrustedRoot := prevTrustedRoot
  attestedHeader := u.attestedHeader
  finalizedHeader := u.finalizedHeader
  finalityBranch := u.finalityBranch
  syncCommitteeParticipation := UInt16.ofNat (u.syncCommitteeBits.bytes.map countOnes).sum
  syncAggregateSignature := u.syncCommitteeSignature
  syncCommitteePubkey := syncCommitteePubkey
  forkVersion := forkVersion
  genesisValidatorsRoot := genesisValidatorsRoot
  executionPayloadRoot := u.execution.root sha256
  bodyToExecBranch := u.executionBranch
  executionBlockHash := u.execution.blockHash
  execToHashBranch :=
    ⟨siblingsFrom (sha256Pair sha256) (fun i => (u.execution.leaves sha256).1.getD i zeroBytes)
      0 12 5, siblingsFrom_length _ 0 12 5⟩

end Leaves

section Reading

variable (b : Build)

theorem parseBeaconHeader_text (h : BeaconBlockHeader) :
    parseBeaconHeader b (headerText h) = .ok h := by
  simp only [parseBeaconHeader, headerText, parseU64_toString, parseBytes32_hexText, context,
    ok_bind]
  rfl

theorem parseNodes_text (nodes : List Bytes32) : parseNodes b (nodesText nodes) = .ok nodes := by
  induction nodes with
  | nil => rfl
  | cons node nodes ih =>
    show parseNodes b (hexText node.bytes :: nodesText nodes) = _
    rw [parseNodes, parseBytes32_hexText, ok_bind, ih, ok_bind]
    rfl

theorem parseBranch_text {n : Nat} (branch : Branch n) :
    parseBranch b n (nodesText branch.1) = .ok branch := by
  have hlen : (nodesText branch.1).length = n := by simp [nodesText, branch.2]
  have hnodes := parseNodes_text b branch.1
  rw [parseBranch, dif_pos hlen]
  split
  next e herror => simp [hnodes] at herror
  next nodes hparse =>
    have heq : nodes = branch.1 := Except.ok.inj (hparse.symm.trans hnodes)
    exact congrArg Except.ok (Subtype.ext heq)

theorem digit_plain {c : Char} (h : c.isDigit = true) :
    isWhitespace c = false ∧ c ≠ 'x' ∧ c ≠ 'X' := by
  have hrange : 48 ≤ c.toNat ∧ c.toNat ≤ 57 := by
    simpa [Char.isDigit, UInt32.le_iff_toNat_le] using h
  refine ⟨?_, ?_, ?_⟩
  · simp only [isWhitespace, Bool.or_eq_false_iff, Bool.and_eq_false_iff, decide_eq_false_iff_not,
      beq_eq_false_iff_ne]
    omega
  · rintro rfl
    exact absurd h (by decide)
  · rintro rfl
    exact absurd h (by decide)

theorem parseUint256Le_toString {v : Nat} (hv : v < 2 ^ 128) :
    parseUint256Le b (toString v) = .ok (zeroPadded (leBytes 16 v)) := by
  have hdigits : ∀ c ∈ (toString v).toList, c.isDigit = true := by
    intro c hc
    rw [Nat.toString_eq_repr, Nat.toList_repr] at hc
    exact Nat.isDigit_of_mem_toDigits (by decide) (by decide) hc
  have htrim : trimChars (toString v).toList = (toString v).toList :=
    trimChars_eq_self fun c hc => (digit_plain (hdigits c hc)).1
  have hmarker : ¬(['0', 'x'] <+: (toString v).toList ∨ ['0', 'X'] <+: (toString v).toList) := by
    rintro (hx | hX)
    · exact (digit_plain (hdigits 'x' (hx.subset (by simp)))).2.1 rfl
    · exact (digit_plain (hdigits 'X' (hX.subset (by simp)))).2.2 rfl
  simp only [parseUint256Le, htrim, if_neg hmarker, String.ofList_toList,
    parseUnsigned_toString hv, context, ok_bind]
  rfl

example : parseUint256Le Build.default "0x0102" = .ok (zeroPadded [2, 1]) := by decide +kernel

theorem sszBytesVectorRoot_eq {sha256 : Bytes → Bytes32} {data : Bytes} (h : data.length = 256) :
    sszBytesVectorRoot sha256 data = .ok (chunkRoot sha256 data 3) := by
  have hlen : (chunkLeaves data).length = 2 ^ 3 := by simp [chunkLeaves, h]
  exact merkleRootVec_eq hlen

theorem sszByteListRoot_one (sha256 : Bytes → Bytes32) (data : Bytes) :
    sszByteListRoot sha256 data 1 = .ok (sha256Pair sha256 (chunkRoot sha256 data 0)
      (uint64Leaf (UInt64.ofNat data.length))) := by
  have hsize : Nat.nextPowerOfTwo 1 = 1 := by decide +kernel
  have hroot : merkleRootVec sha256 [(chunkLeaves data).getD 0 zeroBytes] =
      .ok (chunkRoot sha256 data 0) := merkleRootVec_eq (n := 0) rfl
  rw [sszByteListRoot, hsize]
  show (merkleRootVec sha256 [(chunkLeaves data).getD 0 zeroBytes] >>= fun _ => _) = _
  rw [hroot, ok_bind]
  rfl

/-- Every execution payload header is read back into its leaves. -/
theorem executionPayloadLeaves_text (p : ExecutionPayloadHeader) :
    executionPayloadLeaves b p.text = .ok (p.leaves b.sha256) := by
  have hbefore : ∃ before, leavesBeforeHash b p.text = .ok before ∧
      before.1 = (p.leaves b.sha256).1.take 12 := by
    have hbloom : sszBytesVectorRoot b.sha256 p.logsBloom.bytes = .ok _ :=
      sszBytesVectorRoot_eq p.logsBloom.size
    have hfee := p.baseFeePerGas.2
    refine ⟨⟨(p.leaves b.sha256).1.take 12, rfl⟩, ?_, rfl⟩
    simp only [leavesBeforeHash, ExecutionPayloadHeader.text, parseBytes32_hexText,
      hexDecode_hexText, parseU64_toString, parseUint256Le_toString b hfee, hbloom,
      sszByteListRoot_one, context, ok_bind, ensure, FixedBytes.length_bytes, p.extraData.2,
      if_true]
    rfl
  have hafter : ∃ after, leavesAfterHash b p.text = .ok after ∧
      after.1 = ((p.leaves b.sha256).1.drop 13).take 4 := by
    refine ⟨⟨((p.leaves b.sha256).1.drop 13).take 4, rfl⟩, ?_, rfl⟩
    simp only [leavesAfterHash, ExecutionPayloadHeader.text, parseBytes32_hexText,
      parseU64_toString, context, ok_bind]
    rfl
  obtain ⟨before, hbefore, hbeforeEq⟩ := hbefore
  obtain ⟨after, hafter, hafterEq⟩ := hafter
  have hhash : parseBytes32 b p.text.blockHash = .ok p.blockHash := parseBytes32_hexText b _
  rw [executionPayloadLeaves, hbefore, ok_bind, hhash, ok_bind, hafter, ok_bind]
  refine congrArg Except.ok (Subtype.ext ?_)
  show before.1 ++ p.blockHash :: after.1 ++ List.replicate 15 zeroBytes = _
  rw [hbeforeEq, hafterEq]
  rfl

theorem sszExecutionPayloadRoot_text (p : ExecutionPayloadHeader) :
    sszExecutionPayloadRoot b p.text = .ok (p.root b.sha256, p.leaves b.sha256) := by
  have hroot : merkleRootVec b.sha256 (p.leaves b.sha256).1 = .ok (p.root b.sha256) :=
    merkleRootVec_eq (n := 5) (p.leaves b.sha256).2
  rw [sszExecutionPayloadRoot, executionPayloadLeaves_text, ok_bind, hroot, ok_bind]
  rfl

theorem countOnes_le (byte : UInt8) : countOnes byte ≤ 8 := List.countP_le_length

theorem sum_countOnes_le (bits : Bytes) : (bits.map countOnes).sum ≤ 8 * bits.length := by
  induction bits with
  | nil => exact Nat.zero_le _
  | cons byte bits ih =>
    have hbyte := countOnes_le byte
    simp only [List.map_cons, List.sum_cons, List.length_cons]
    omega

/-- A bit vector of 512 bits is counted without overflow. -/
theorem countParticipation_bits (bits : FixedBytes 64) :
    countParticipation b bits.bytes = .ok (UInt16.ofNat (bits.bytes.map countOnes).sum) := by
  have htotal := sum_countOnes_le bits.bytes
  rw [bits.size] at htotal
  have hsmall : (bits.bytes.map countOnes).sum < 2 ^ 32 := by omega
  simp only [countParticipation]
  rw [if_neg (fun hn => absurd hsmall (by omega)), Nat.mod_eq_of_lt hsmall]
  rfl

/-- The relayer builds a witness from every update the API can write down. -/
theorem buildHeliosWitness_text (u : FinalityUpdate) (genesisValidatorsRoot : Bytes32)
    (forkVersion : FixedBytes 4) (pubkey : FixedBytes 48) (prevTrustedRoot : Bytes32) :
    buildHeliosWitness b u.text (genesisText genesisValidatorsRoot forkVersion) pubkey
        prevTrustedRoot =
      .ok (u.witness b.sha256 genesisValidatorsRoot forkVersion pubkey prevTrustedRoot) := by
  have hsignature : parseSignature b (hexText u.syncCommitteeSignature.bytes) =
      .ok u.syncCommitteeSignature := by
    rw [parseSignature, hexDecode_hexText]
    exact dif_pos u.syncCommitteeSignature.size
  have hbranch : merkleBranch32 b.sha256 (u.execution.leaves b.sha256) 12 = .ok _ :=
    merkleBranch32_eq (by decide)
  have hhash : parseBytes32 b u.execution.text.blockHash = .ok u.execution.blockHash :=
    parseBytes32_hexText b _
  simp only [buildHeliosWitness, FinalityUpdate.text, genesisText, parseBeaconHeader_text,
    parseBranch6, parseBranch4, parseBranch_text, hexDecode_hexText, countParticipation_bits,
    hsignature, parseForkVersion_hexText, parseBytes32_hexText, sszExecutionPayloadRoot_text,
    hbranch, hhash, context, ok_bind]
  rfl

end Reading

end BeaconApi

end ObscuraNetwork
