import ObscuraNetwork.HeliosStep
import ObscuraNetwork.Sha256

namespace ObscuraNetwork

def headerLeaf (h : BeaconBlockHeader) : Nat → Bytes32
  | 0 => uint64Leaf h.slot
  | 1 => uint64Leaf h.proposerIndex
  | 2 => h.parentRoot
  | 3 => h.stateRoot
  | 4 => h.bodyRoot
  | _ => zeroBytes

/-- The strings hashed for the finalized header and along its two branches. -/
inductive HeliosHashes (sha256 : Bytes → Bytes32) (witness : HeliosWitness) : Set Bytes
  | header (p : Bytes32 × Bytes32)
      (h : p ∈ treePairs (sha256Pair sha256) (headerLeaf witness.finalizedHeader) 3) :
      HeliosHashes sha256 witness (pairMessage p.1 p.2)
  | body (p : Bytes32 × Bytes32)
      (h : p ∈ walkPairs (sha256Pair sha256) bodyToExecLeafIndex.toNat witness.executionPayloadRoot
        witness.bodyToExecBranch.1) :
      HeliosHashes sha256 witness (pairMessage p.1 p.2)
  | payload (p : Bytes32 × Bytes32)
      (h : p ∈ walkPairs (sha256Pair sha256) execToHashLeafIndex.toNat witness.executionBlockHash
        witness.execToHashBranch.1) :
      HeliosHashes sha256 witness (pairMessage p.1 p.2)

section HeliosBinding

variable {sha256 : Bytes → Bytes32}

theorem hashTreeRoot_eq_treeNode (h : BeaconBlockHeader) :
    hashTreeRootBeaconHeader sha256 h = treeNode (sha256Pair sha256) (headerLeaf h) 3 0 := rfl

/-- A header root determines the slot and the body root. -/
theorem header_root_binds {messages : Set Bytes} (cf : CollisionFreeOn sha256 messages)
    {h h' : BeaconBlockHeader}
    (hs : ∀ p ∈ treePairs (sha256Pair sha256) (headerLeaf h) 3, pairMessage p.1 p.2 ∈ messages)
    (hs' : ∀ p ∈ treePairs (sha256Pair sha256) (headerLeaf h') 3, pairMessage p.1 p.2 ∈ messages)
    (heq : hashTreeRootBeaconHeader sha256 h = hashTreeRootBeaconHeader sha256 h') :
    h.slot = h'.slot ∧ h.bodyRoot = h'.bodyRoot := by
  have inj : PairInjOn (sha256Pair sha256) {p | pairMessage p.1 p.2 ∈ messages} :=
    pairInjOn_of_collisionFree cf pairMessage_inj
  rw [hashTreeRoot_eq_treeNode, hashTreeRoot_eq_treeNode] at heq
  have hslot : headerLeaf h 0 = headerLeaf h' 0 := treeNode_inj inj hs hs' heq (by decide)
  have hbody : headerLeaf h 4 = headerLeaf h' 4 := treeNode_inj inj hs hs' heq (by decide)
  exact ⟨uint64Leaf_injective hslot, hbody⟩

/-- A root determines the leaf below it at one index, whatever branch of the depth is supplied. -/
theorem branch_binds {messages : Set Bytes} (cf : CollisionFreeOn sha256 messages) {n i : Nat}
    {leaf leaf' root : Bytes32} {branch branch' : Branch n}
    (hs : ∀ p ∈ walkPairs (sha256Pair sha256) i leaf branch.1, pairMessage p.1 p.2 ∈ messages)
    (hs' : ∀ p ∈ walkPairs (sha256Pair sha256) i leaf' branch'.1, pairMessage p.1 p.2 ∈ messages)
    (h : walk (sha256Pair sha256) i leaf branch.1 = root)
    (h' : walk (sha256Pair sha256) i leaf' branch'.1 = root) : leaf = leaf' := by
  have inj : PairInjOn (sha256Pair sha256) {p | pairMessage p.1 p.2 ∈ messages} :=
    pairInjOn_of_collisionFree cf pairMessage_inj
  have hlen : branch.1.length = branch'.1.length := branch.2.trans branch'.2.symm
  exact walk_inj inj hlen hs hs' (h.trans h'.symm)

/-- Two accepted witnesses that commit one beacon root commit one slot and one block hash. -/
theorem beacon_root_binds {witness witness' : HeliosWitness} {out out' : HeliosPublicOutputs}
    (h : heliosMain sha256 witness = .ok out) (h' : heliosMain sha256 witness' = .ok out')
    (cf : CollisionFreeOn sha256 (HeliosHashes sha256 witness ∪ HeliosHashes sha256 witness'))
    (hroot : out.newBeaconRoot = out'.newBeaconRoot) :
    out.newSlot = out'.newSlot ∧ out.executionBlockHash = out'.executionBlockHash := by
  obtain ⟨hw, rfl⟩ := heliosMain_ok.mp h
  obtain ⟨hw', rfl⟩ := heliosMain_ok.mp h'
  obtain ⟨hslot, hbodyRoot⟩ := header_root_binds cf (fun p hp => Or.inl (.header p hp))
    (fun p hp => Or.inr (.header p hp)) hroot
  have hpayload : witness.executionPayloadRoot = witness'.executionPayloadRoot :=
    branch_binds cf (fun p hp => Or.inl (.body p hp)) (fun p hp => Or.inr (.body p hp)) hw.body
      (hw'.body.trans hbodyRoot.symm)
  have hhash : witness.executionBlockHash = witness'.executionBlockHash :=
    branch_binds cf (fun p hp => Or.inl (.payload p hp)) (fun p hp => Or.inr (.payload p hp))
      hw.payload (hw'.payload.trans hpayload.symm)
  exact ⟨hslot, hhash⟩

end HeliosBinding

def headerMessages (sha256 : Bytes → Bytes32) (h : BeaconBlockHeader) : List Bytes :=
  (List.range 3).flatMap fun k => (List.range (2 ^ (3 - (k + 1)))).map fun i =>
    pairMessage (treeNode (sha256Pair sha256) (headerLeaf h) k (2 * i))
      (treeNode (sha256Pair sha256) (headerLeaf h) k (2 * i + 1))

theorem headerMessages_cover {sha256 : Bytes → Bytes32} {h : BeaconBlockHeader}
    {p : Bytes32 × Bytes32} (hp : p ∈ treePairs (sha256Pair sha256) (headerLeaf h) 3) :
    pairMessage p.1 p.2 ∈ headerMessages sha256 h := by
  obtain ⟨k, i, hk, hi, rfl⟩ := hp
  rw [headerMessages, List.mem_flatMap]
  exact ⟨k, List.mem_range.mpr hk, List.mem_map.mpr ⟨i, List.mem_range.mpr hi, rfl⟩⟩

def countedBranch (n first : Nat) : Branch n :=
  ⟨(List.range' first n).map fun i => FixedBytes.replicate 32 (UInt8.ofNat i), by simp⟩

def samplePayloadRoot : Bytes32 :=
  walk (sha256Pair sha256) execToHashLeafIndex.toNat (FixedBytes.replicate 32 1)
    (countedBranch 5 2).1

def sampleHeader : BeaconBlockHeader where
  slot := 1
  proposerIndex := 0
  parentRoot := FixedBytes.replicate 32 11
  stateRoot := zeroBytes
  bodyRoot := walk (sha256Pair sha256) bodyToExecLeafIndex.toNat samplePayloadRoot
    (countedBranch 4 7).1

/-- A witness of the first finalized slot, with the previous trusted root left open. -/
def sampleWitness (prevTrustedRoot : Bytes32) : HeliosWitness where
  prevTrustedRoot := prevTrustedRoot
  attestedHeader :=
    { slot := 1
      proposerIndex := 0
      parentRoot := zeroBytes
      stateRoot := walk (sha256Pair sha256) finalizedRootLeafIndex.toNat
        (hashTreeRootBeaconHeader sha256 sampleHeader) (countedBranch 6 12).1
      bodyRoot := zeroBytes }
  finalizedHeader := sampleHeader
  finalityBranch := countedBranch 6 12
  syncCommitteeParticipation := 342
  syncAggregateSignature := FixedBytes.replicate 96 1
  syncCommitteePubkey := FixedBytes.replicate 48 1
  forkVersion := FixedBytes.replicate 4 0
  genesisValidatorsRoot := zeroBytes
  executionPayloadRoot := samplePayloadRoot
  bodyToExecBranch := countedBranch 4 7
  executionBlockHash := FixedBytes.replicate 32 1
  execToHashBranch := countedBranch 5 2

def sampleMessages : List Bytes :=
  headerMessages sha256 sampleHeader ++
    (walkPairs (sha256Pair sha256) bodyToExecLeafIndex.toNat samplePayloadRoot
        (countedBranch 4 7).1 ++
      walkPairs (sha256Pair sha256) execToHashLeafIndex.toNat (FixedBytes.replicate 32 1)
        (countedBranch 5 2).1).map fun p => pairMessage p.1 p.2

theorem sampleWitness_accepted (prevTrustedRoot : Bytes32) :
    heliosMain sha256 (sampleWitness prevTrustedRoot) =
      .ok ((sampleWitness prevTrustedRoot).outputs sha256) := by
  refine heliosMain_ok.mpr ⟨?_, rfl⟩
  exact
    { slot := show (0 : UInt64) < 1 by decide
      attested := show (1 : UInt64) ≤ 1 by decide
      finality := rfl
      participation := show minSyncCommitteeParticipation ≤ 342 by decide
      signature := by simp only [sampleWitness]; decide
      pubkey := by simp only [sampleWitness]; decide
      body := rfl
      payload := rfl }

theorem sampleWitness_hashes (prevTrustedRoot : Bytes32) {m : Bytes}
    (hm : m ∈ HeliosHashes sha256 (sampleWitness prevTrustedRoot)) : m ∈ sampleMessages := by
  rw [sampleMessages, List.map_append, List.mem_append, List.mem_append]
  cases hm with
  | header p hp => exact Or.inl (headerMessages_cover hp)
  | body p hp => exact Or.inr (Or.inl (List.mem_map_of_mem hp))
  | payload p hp => exact Or.inr (Or.inr (List.mem_map_of_mem hp))

theorem sampleMessages_distinct : (sampleMessages.map sha256).Nodup := by decide +kernel

theorem beacon_root_binds_sample :
    ((sampleWitness zeroBytes).outputs sha256).newSlot =
        ((sampleWitness (FixedBytes.replicate 32 1)).outputs sha256).newSlot ∧
      ((sampleWitness zeroBytes).outputs sha256).executionBlockHash =
        ((sampleWitness (FixedBytes.replicate 32 1)).outputs sha256).executionBlockHash := by
  have cover : ∀ m ∈ HeliosHashes sha256 (sampleWitness zeroBytes) ∪
      HeliosHashes sha256 (sampleWitness (FixedBytes.replicate 32 1)), m ∈ sampleMessages := by
    intro m hm
    rcases hm with hm | hm
    · exact sampleWitness_hashes _ hm
    · exact sampleWitness_hashes _ hm
  exact beacon_root_binds (sampleWitness_accepted _) (sampleWitness_accepted _)
    (collisionFreeOn_of_nodup cover sampleMessages_distinct) rfl

end ObscuraNetwork
