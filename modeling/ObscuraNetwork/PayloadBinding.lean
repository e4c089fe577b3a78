import ObscuraNetwork.HeliosAgreement
import Mathlib.Data.List.Dedup

namespace ObscuraNetwork

namespace BeaconApi

/-- What the parsers make of the 17 fields of an execution payload header. -/
@[ext] structure DecodedPayload where
  parentHash : Bytes32
  feeRecipient : Bytes
  stateRoot : Bytes32
  receiptsRoot : Bytes32
  logsBloom : Bytes
  prevRandao : Bytes32
  blockNumber : UInt64
  gasLimit : UInt64
  gasUsed : UInt64
  timestamp : UInt64
  extraData : Bytes
  baseFeePerGas : Bytes32
  blockHash : Bytes32
  transactionsRoot : Bytes32
  withdrawalsRoot : Bytes32
  blobGasUsed : UInt64
  excessBlobGas : UInt64

def decodePayload (b : Build) (exec : ExecutionPayloadHeaderJson) : Outcome DecodedPayload := do
  let parentHash ← parseBytes32 b exec.parentHash
  let feeRecipient ← hexDecode b exec.feeRecipient
  let stateRoot ← parseBytes32 b exec.stateRoot
  let receiptsRoot ← parseBytes32 b exec.receiptsRoot
  let logsBloom ← hexDecode b exec.logsBloom
  let prevRandao ← parseBytes32 b exec.prevRandao
  let blockNumber ← parseU64 exec.blockNumber
  let gasLimit ← parseU64 exec.gasLimit
  let gasUsed ← parseU64 exec.gasUsed
  let timestamp ← parseU64 exec.timestamp
  let extraData ← hexDecode b exec.extraData
  let baseFeePerGas ← parseUint256Le b exec.baseFeePerGas
  let blockHash ← parseBytes32 b exec.blockHash
  let transactionsRoot ← parseBytes32 b exec.transactionsRoot
  let withdrawalsRoot ← parseBytes32 b exec.withdrawalsRoot
  let blobGasUsed ← parseU64 exec.blobGasUsed
  let excessBlobGas ← parseU64 exec.excessBlobGas
  pure
    { parentHash, feeRecipient, stateRoot, receiptsRoot, logsBloom, prevRandao, blockNumber,
      gasLimit, gasUsed, timestamp, extraData, baseFeePerGas, blockHash, transactionsRoot,
      withdrawalsRoot, blobGasUsed, excessBlobGas }

section Leaves

variable (sha256 : Bytes → Bytes32)

/-- The leaf of the extra data: its chunk mixed with its length. -/
def extraDataPair (data : Bytes) : Bytes32 × Bytes32 :=
  (chunkRoot sha256 data 0, uint64Leaf (UInt64.ofNat data.length))

def DecodedPayload.leaves (d : DecodedPayload) : Leaves 32 :=
  ⟨[d.parentHash, zeroPadded d.feeRecipient, d.stateRoot, d.receiptsRoot,
    chunkRoot sha256 d.logsBloom 3, d.prevRandao, uint64Leaf d.blockNumber, uint64Leaf d.gasLimit,
    uint64Leaf d.gasUsed, uint64Leaf d.timestamp,
    sha256Pair sha256 (extraDataPair sha256 d.extraData).1 (extraDataPair sha256 d.extraData).2,
    d.baseFeePerGas, d.blockHash, d.transactionsRoot, d.withdrawalsRoot, uint64Leaf d.blobGasUsed,
    uint64Leaf d.excessBlobGas] ++ List.replicate 15 zeroBytes, rfl⟩

def DecodedPayload.leaf (d : DecodedPayload) (i : Nat) : Bytes32 :=
  (d.leaves sha256).1.getD i zeroBytes

/-- The lengths that the root function checks. -/
structure DecodedPayload.Sized (d : DecodedPayload) : Prop where
  feeRecipient : d.feeRecipient.length = 20
  logsBloom : d.logsBloom.length = 256
  extraData : d.extraData.length ≤ 32

/-- The strings hashed for the root of a payload. -/
inductive PayloadHashes (d : DecodedPayload) : Set Bytes
  | tree (p : Bytes32 × Bytes32) (h : p ∈ treePairs (sha256Pair sha256) (d.leaf sha256) 5) :
      PayloadHashes d (pairMessage p.1 p.2)
  | bloom (p : Bytes32 × Bytes32)
      (h : p ∈ treePairs (sha256Pair sha256)
        (fun i => (chunkLeaves d.logsBloom).getD i zeroBytes) 3) :
      PayloadHashes d (pairMessage p.1 p.2)
  | extraData :
      PayloadHashes d (pairMessage (extraDataPair sha256 d.extraData).1
        (extraDataPair sha256 d.extraData).2)

end Leaves

section Chunks

theorem zeroPadded_nil : zeroPadded [] = zeroBytes := rfl

theorem zeroPadded_take {x y : Bytes} (hlen : x.length = y.length)
    (h : zeroPadded x = zeroPadded y) : x.take 32 = y.take 32 := by
  have hbytes : x.take 32 ++ _ = y.take 32 ++ _ := congrArg FixedBytes.bytes h
  exact (List.append_inj hbytes (by simp [hlen])).1

theorem zeroPadded_inj {x y : Bytes} (hlen : x.length = y.length) (hx : x.length ≤ 32)
    (h : zeroPadded x = zeroPadded y) : x = y := by
  have htake := zeroPadded_take hlen h
  have hy : y.length ≤ 32 := by omega
  rwa [List.take_of_length_le hx, List.take_of_length_le hy] at htake

theorem chunkLeaves_getD (data : Bytes) (i : Nat) :
    (chunkLeaves data).getD i zeroBytes = zeroPadded (data.drop (32 * i)) := by
  by_cases hi : i < (data.length + 31) / 32
  · rw [chunkLeaves, List.getD_eq_getElem?_getD, List.getElem?_map, List.getElem?_range hi]
    rfl
  · have hshort : data.length ≤ 32 * i := by omega
    have hnone : (chunkLeaves data).length ≤ i := by
      simp only [chunkLeaves, List.length_map, List.length_range]
      omega
    rw [List.getD_eq_default _ _ hnone, List.drop_eq_nil_of_le hshort, zeroPadded_nil]

/-- A byte string is known from its length and its chunks. -/
theorem chunkLeaves_inj {x y : Bytes} (hlen : x.length = y.length) {n : Nat}
    (hn : x.length ≤ 32 * n)
    (h : ∀ i < n, (chunkLeaves x).getD i zeroBytes = (chunkLeaves y).getD i zeroBytes) :
    x = y := by
  apply List.ext_getElem? fun j => ?_
  by_cases hj : j < x.length
  · have hchunk := h (j / 32) (by omega)
    rw [chunkLeaves_getD, chunkLeaves_getD] at hchunk
    have htake := zeroPadded_take (by simp [hlen]) hchunk
    have hbyte : 32 * (j / 32) + j % 32 = j := Nat.div_add_mod j 32
    have hpos : j % 32 < 32 := Nat.mod_lt _ (by omega)
    have hget := congrArg (fun bytes : Bytes => bytes[j % 32]?) htake
    simpa only [List.getElem?_take_of_lt hpos, List.getElem?_drop, hbyte] using hget
  · have hx : x.length ≤ j := by omega
    have hy : y.length ≤ j := by omega
    rw [List.getElem?_eq_none hx, List.getElem?_eq_none hy]

variable {sha256 : Bytes → Bytes32}

theorem chunkRoot_inj {S : Set (Bytes32 × Bytes32)} (inj : PairInjOn (sha256Pair sha256) S)
    {x y : Bytes} {n : Nat} (hlen : x.length = y.length) (hn : x.length ≤ 32 * 2 ^ n)
    (hx : treePairs (sha256Pair sha256) (fun i => (chunkLeaves x).getD i zeroBytes) n ⊆ S)
    (hy : treePairs (sha256Pair sha256) (fun i => (chunkLeaves y).getD i zeroBytes) n ⊆ S)
    (h : chunkRoot sha256 x n = chunkRoot sha256 y n) : x = y :=
  chunkLeaves_inj hlen hn fun _ hi => treeNode_inj inj hx hy h hi

end Chunks

section PayloadBinding

variable {b : Build} {exec : ExecutionPayloadHeaderJson}

/-- The leaves of a payload are those of its decoded fields. -/
theorem executionPayloadLeaves_decoded {leaves : Leaves 32}
    (h : executionPayloadLeaves b exec = .ok leaves) :
    ∃ d, decodePayload b exec = .ok d ∧ d.Sized ∧ leaves = d.leaves b.sha256 := by
  simp only [executionPayloadLeaves, leavesBeforeHash, leavesAfterHash, bind_ok, pure_ok,
    context_ok, ensure_ok] at h
  obtain ⟨before, ⟨parentHash, hparentHash, fee, hfee, _, hfeeLen, stateRoot, hstateRoot,
    receiptsRoot, hreceiptsRoot, bloom, hbloom, _, hbloomLen, logsBloom, hlogsBloom, prevRandao,
    hprevRandao, blockNumber, hblockNumber, gasLimit, hgasLimit, gasUsed, hgasUsed, timestamp,
    htimestamp, extra, hextra, _, hextraLen, extraData, hextraData, baseFee, hbaseFee, rfl⟩,
    blockHash, hblockHash, after, ⟨transactionsRoot, htransactionsRoot, withdrawalsRoot,
    hwithdrawalsRoot, blobGasUsed, hblobGasUsed, excessBlobGas, hexcessBlobGas, rfl⟩, rfl⟩ := h
  rw [sszBytesVectorRoot_eq hbloomLen] at hlogsBloom
  rw [sszByteListRoot_one] at hextraData
  cases hlogsBloom
  cases hextraData
  have hdecoded : decodePayload b exec = .ok
      { parentHash, feeRecipient := fee, stateRoot, receiptsRoot, logsBloom := bloom, prevRandao,
        blockNumber, gasLimit, gasUsed, timestamp, extraData := extra, baseFeePerGas := baseFee,
        blockHash, transactionsRoot, withdrawalsRoot, blobGasUsed, excessBlobGas } := by
    simp only [decodePayload, hparentHash, hfee, hstateRoot, hreceiptsRoot, hbloom, hprevRandao,
      hblockNumber, hgasLimit, hgasUsed, htimestamp, hextra, hbaseFee, hblockHash,
      htransactionsRoot, hwithdrawalsRoot, hblobGasUsed, hexcessBlobGas, ok_bind]
    rfl
  exact ⟨_, hdecoded, ⟨hfeeLen, hbloomLen, hextraLen⟩, rfl⟩

theorem sszExecutionPayloadRoot_decoded {payload : Bytes32 × Leaves 32}
    (h : sszExecutionPayloadRoot b exec = .ok payload) :
    ∃ d, decodePayload b exec = .ok d ∧ d.Sized ∧
      payload.1 = treeNode (sha256Pair b.sha256) (d.leaf b.sha256) 5 0 := by
  simp only [sszExecutionPayloadRoot, bind_ok, pure_ok] at h
  obtain ⟨leaves, hleaves, root, hroot, rfl⟩ := h
  obtain ⟨d, hd, hsized, rfl⟩ := executionPayloadLeaves_decoded hleaves
  have htree := @merkleRootVec_eq b.sha256 (d.leaves b.sha256).1 5 (d.leaves b.sha256).2
  exact ⟨d, hd, hsized, Except.ok.inj (hroot.symm.trans htree)⟩

/-- Decoded fields with the same leaves are the same. -/
theorem decoded_eq_of_leaves {sha256 : Bytes → Bytes32} {d d' : DecodedPayload} (hd : d.Sized)
    (hd' : d'.Sized) {S : Set (Bytes32 × Bytes32)} (inj : PairInjOn (sha256Pair sha256) S)
    (hs : ∀ p, pairMessage p.1 p.2 ∈ PayloadHashes sha256 d → p ∈ S)
    (hs' : ∀ p, pairMessage p.1 p.2 ∈ PayloadHashes sha256 d' → p ∈ S)
    (h : ∀ i < 2 ^ 5, d.leaf sha256 i = d'.leaf sha256 i) : d = d' := by
  have hfee : d.feeRecipient = d'.feeRecipient :=
    zeroPadded_inj (hd.feeRecipient.trans hd'.feeRecipient.symm)
      (by rw [hd.feeRecipient]; omega) (h 1 (by decide))
  have hbloom : d.logsBloom = d'.logsBloom :=
    chunkRoot_inj inj (n := 3) (hd.logsBloom.trans hd'.logsBloom.symm)
      (by rw [hd.logsBloom]; omega) (fun p hp => hs p (.bloom p hp))
      (fun p hp => hs' p (.bloom p hp)) (h 4 (by decide))
  have hmixed : extraDataPair sha256 d.extraData = extraDataPair sha256 d'.extraData :=
    inj (hs _ .extraData) (hs' _ .extraData) (h 10 (by decide))
  have hextraLen : d.extraData.length = d'.extraData.length := by
    have hcount := congrArg UInt64.toNat (uint64Leaf_injective (congrArg Prod.snd hmixed))
    have hlt : d.extraData.length < UInt64.size := hd.extraData.trans_lt (by decide)
    have hlt' : d'.extraData.length < UInt64.size := hd'.extraData.trans_lt (by decide)
    rwa [UInt64.toNat_ofNat_of_lt' hlt, UInt64.toNat_ofNat_of_lt' hlt'] at hcount
  have hextra : d.extraData = d'.extraData :=
    chunkRoot_inj inj (n := 0) hextraLen (by simpa using hd.extraData)
      (fun p ⟨_, _, hk, _⟩ => absurd hk (Nat.not_lt_zero _))
      (fun p ⟨_, _, hk, _⟩ => absurd hk (Nat.not_lt_zero _)) (congrArg Prod.fst hmixed)
  have hblockNumber := uint64Leaf_injective (h 6 (by decide))
  have hgasLimit := uint64Leaf_injective (h 7 (by decide))
  have hgasUsed := uint64Leaf_injective (h 8 (by decide))
  have htimestamp := uint64Leaf_injective (h 9 (by decide))
  have hblobGasUsed := uint64Leaf_injective (h 15 (by decide))
  have hexcessBlobGas := uint64Leaf_injective (h 16 (by decide))
  exact DecodedPayload.ext (h 0 (by decide)) hfee (h 2 (by decide)) (h 3 (by decide)) hbloom
    (h 5 (by decide)) hblockNumber hgasLimit hgasUsed htimestamp hextra (h 11 (by decide))
    (h 12 (by decide)) (h 13 (by decide)) (h 14 (by decide)) hblobGasUsed hexcessBlobGas

/-- Two payloads with one root have the same 17 decoded fields. -/
theorem payload_root_binds {b : Build} {exec exec' : ExecutionPayloadHeaderJson}
    {payload payload' : Bytes32 × Leaves 32} (h : sszExecutionPayloadRoot b exec = .ok payload)
    (h' : sszExecutionPayloadRoot b exec' = .ok payload')
    (cf : ∀ d d', decodePayload b exec = .ok d → decodePayload b exec' = .ok d' →
      CollisionFreeOn b.sha256 (PayloadHashes b.sha256 d ∪ PayloadHashes b.sha256 d'))
    (hroot : payload.1 = payload'.1) :
    ∃ d, decodePayload b exec = .ok d ∧ decodePayload b exec' = .ok d := by
  obtain ⟨d, hd, hsized, htree⟩ := sszExecutionPayloadRoot_decoded h
  obtain ⟨d', hd', hsized', htree'⟩ := sszExecutionPayloadRoot_decoded h'
  have inj : PairInjOn (sha256Pair b.sha256)
      {p | pairMessage p.1 p.2 ∈ PayloadHashes b.sha256 d ∪ PayloadHashes b.sha256 d'} :=
    pairInjOn_of_collisionFree (cf d d' hd hd') pairMessage_inj
  have hleaves : ∀ i < 2 ^ 5, d.leaf b.sha256 i = d'.leaf b.sha256 i := fun _ hi =>
    treeNode_inj inj (fun p hp => Or.inl (.tree p hp)) (fun p hp => Or.inr (.tree p hp))
      (htree.symm.trans (hroot.trans htree')) hi
  have heq : d = d' := decoded_eq_of_leaves hsized hsized' inj (fun _ hp => Or.inl hp)
    (fun _ hp => Or.inr hp) hleaves
  exact ⟨d, hd, heq ▸ hd'⟩

section Sample

/-- The empty payload with another spelling of its gas limit. -/
def signedGasLimit : ExecutionPayloadHeaderJson := { emptyPayload.text with gasLimit := "+0" }

def emptyDecoded : DecodedPayload where
  parentHash := zeroBytes
  feeRecipient := List.replicate 20 0
  stateRoot := zeroBytes
  receiptsRoot := zeroBytes
  logsBloom := List.replicate 256 0
  prevRandao := zeroBytes
  blockNumber := 1
  gasLimit := 0
  gasUsed := 0
  timestamp := 0
  extraData := []
  baseFeePerGas := zeroPadded (leBytes 16 7)
  blockHash := FixedBytes.replicate 32 1
  transactionsRoot := zeroBytes
  withdrawalsRoot := zeroBytes
  blobGasUsed := 0
  excessBlobGas := 0

def payloadMessages (d : DecodedPayload) : List Bytes :=
  ((treePairList (sha256Pair sha256) (d.leaf sha256) 5 ++
      treePairList (sha256Pair sha256) (fun i => (chunkLeaves d.logsBloom).getD i zeroBytes) 3 ++
      [extraDataPair sha256 d.extraData]).map fun p => pairMessage p.1 p.2).dedup

theorem payloadMessages_cover {d : DecodedPayload} {m : Bytes} (hm : m ∈ PayloadHashes sha256 d) :
    m ∈ payloadMessages d := by
  rw [payloadMessages, List.mem_dedup, List.map_append, List.map_append, List.mem_append,
    List.mem_append]
  cases hm with
  | tree p hp => exact Or.inl (Or.inl (List.mem_map_of_mem (mem_treePairList.mpr hp)))
  | bloom p hp => exact Or.inl (Or.inr (List.mem_map_of_mem (mem_treePairList.mpr hp)))
  | extraData => exact Or.inr List.mem_cons_self

theorem signedGasLimit_parsed : parseU64 "+0" = parseU64 (toString (0 : UInt64).toNat) := by
  decide +kernel

theorem signedGasLimit_root :
    sszExecutionPayloadRoot Build.default signedGasLimit =
      .ok (emptyPayload.root sha256, emptyPayload.leaves sha256) := by
  have hempty := sszExecutionPayloadRoot_text Build.default emptyPayload
  simp only [sszExecutionPayloadRoot, executionPayloadLeaves, leavesBeforeHash, leavesAfterHash,
    signedGasLimit, signedGasLimit_parsed] at hempty ⊢
  exact hempty

theorem emptyPayload_decoded :
    decodePayload Build.default emptyPayload.text = .ok emptyDecoded := by
  have hfee := emptyPayload.baseFeePerGas.2
  simp only [decodePayload, ExecutionPayloadHeader.text, parseBytes32_hexText, hexDecode_hexText,
    parseU64_toString, parseUint256Le_toString Build.default hfee, ok_bind]
  rfl

theorem signedGasLimit_decoded : decodePayload Build.default signedGasLimit = .ok emptyDecoded := by
  have hempty := emptyPayload_decoded
  simp only [decodePayload, signedGasLimit, signedGasLimit_parsed] at hempty ⊢
  exact hempty

theorem payloadMessages_distinct : ((payloadMessages emptyDecoded).map sha256).Nodup := by
  decide +kernel

theorem payload_root_binds_empty :
    ∃ d, decodePayload Build.default emptyPayload.text = .ok d ∧
      decodePayload Build.default signedGasLimit = .ok d := by
  refine payload_root_binds (sszExecutionPayloadRoot_text Build.default emptyPayload)
    signedGasLimit_root ?_ rfl
  intro d d' hd hd'
  cases Except.ok.inj (emptyPayload_decoded.symm.trans hd)
  cases Except.ok.inj (signedGasLimit_decoded.symm.trans hd')
  exact collisionFreeOn_of_nodup (fun m hm => payloadMessages_cover (hm.elim id id))
    payloadMessages_distinct

end Sample

end PayloadBinding

end BeaconApi

end ObscuraNetwork
