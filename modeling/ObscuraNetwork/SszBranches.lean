import ObscuraNetwork.HeliosAgreement

namespace ObscuraNetwork

namespace BeaconApi

/-- The strings hashed for the tree over 32 leaves and along a branch. -/
inductive BranchHashes (sha256 : Bytes → Bytes32) (leaves : Leaves 32) (i : Nat) (leaf : Bytes32)
    (branch : List Bytes32) : Set Bytes
  | tree (p : Bytes32 × Bytes32)
      (h : p ∈ treePairs (sha256Pair sha256) (fun j => leaves.1.getD j zeroBytes) 5) :
      BranchHashes sha256 leaves i leaf branch (pairMessage p.1 p.2)
  | walk (p : Bytes32 × Bytes32) (h : p ∈ walkPairs (sha256Pair sha256) i leaf branch) :
      BranchHashes sha256 leaves i leaf branch (pairMessage p.1 p.2)

section Branches

variable {sha256 : Bytes → Bytes32}

theorem verifyMerkleBranch_walk {leaf root : Bytes32} {branch : List Bytes32} {n : Nat}
    (hn : n ≤ 64) {leafIndex : UInt64}
    (h : verifyMerkleBranch sha256 leaf branch n leafIndex root = true) :
    branch.length = n ∧ walk (sha256Pair sha256) leafIndex.toNat leaf branch = root := by
  have hlen : branch.length = n := by
    by_contra hne
    rw [verifyMerkleBranch, if_pos hne] at h
    cases h
  exact ⟨hlen, (verifyMerkleBranch_iff sha256 leaf root ⟨branch, hlen⟩ hn leafIndex).mp h⟩

theorem toNat_leafIndex {i : Nat} (hi : i < 32) : (UInt64.ofNat i).toNat = i :=
  UInt64.toNat_ofNat_of_lt' (hi.trans (by decide))

/-- The verifier accepts no other leaf at an index than the one in the tree. -/
theorem branch_sound {leaves : Leaves 32} {i : Nat} (hi : i < 32) {root : Bytes32}
    (hroot : merkleRootVec sha256 leaves.1 = .ok root) {leaf : Bytes32} {branch : List Bytes32}
    (cf : CollisionFreeOn sha256 (BranchHashes sha256 leaves i leaf branch))
    (h : verifyMerkleBranch sha256 leaf branch 5 (UInt64.ofNat i) root = true) :
    leaf = leaves.1.getD i zeroBytes := by
  obtain ⟨hlen, hwalk⟩ := verifyMerkleBranch_walk (by decide) h
  have inj : PairInjOn (sha256Pair sha256)
      {p | pairMessage p.1 p.2 ∈ BranchHashes sha256 leaves i leaf branch} :=
    pairInjOn_of_collisionFree cf pairMessage_inj
  have hlength : leaves.1.length = 2 ^ 5 := leaves.2
  have htree := Except.ok.inj ((merkleRootVec_eq hlength).symm.trans hroot)
  rw [toNat_leafIndex hi, ← htree] at hwalk
  have hleaf := walk_sound inj (fun p hp => BranchHashes.tree p hp)
    (fun p hp => BranchHashes.walk p hp) le_rfl (by omega) hlen.le hwalk
  have hmod : i % 2 ^ 5 = i := Nat.mod_eq_of_lt hi
  rw [hlen, hmod] at hleaf
  simpa only [Nat.sub_self, Nat.zero_mul, Nat.zero_add, treeNode] using hleaf

/-- The last branch check of the circuit, on every witness that the relayer builds. -/
theorem built_step6 {b : Build} {update : LightClientFinalityUpdateJson}
    {genesis : GenesisConfigJson} {pubkey : FixedBytes 48} {prevTrustedRoot : Bytes32}
    {witness : HeliosWitness}
    (h : buildHeliosWitness b update genesis pubkey prevTrustedRoot = .ok witness) :
    verifyMerkleBranch b.sha256 witness.executionBlockHash witness.execToHashBranch.1
      execToHashDepth execToHashLeafIndex witness.executionPayloadRoot = true :=
  (verifyMerkleBranch_iff b.sha256 _ _ _ (by decide) _).mpr (built_payload_verifies h)

end Branches

/-- The relayer's branches and the circuit's verifier agree on trees of 32 leaves: the branch of a
leaf is accepted, and at its index no other leaf is. -/
theorem branches_agree (b : Build) (leaves : Leaves 32) (i : Nat) (hi : i < 32) :
    (∃ branch root, merkleBranch32 b.sha256 leaves i = .ok branch ∧
      merkleRootVec b.sha256 leaves.1 = .ok root ∧
      verifyMerkleBranch b.sha256 (leaves.1.getD i zeroBytes) branch.1 5 (UInt64.ofNat i) root =
        true ∧
      ∀ leaf siblings, CollisionFreeOn b.sha256 (BranchHashes b.sha256 leaves i leaf siblings) →
        verifyMerkleBranch b.sha256 leaf siblings 5 (UInt64.ofNat i) root = true →
        leaf = leaves.1.getD i zeroBytes) ∧
    ∀ update genesis pubkey prevTrustedRoot witness,
      buildHeliosWitness b update genesis pubkey prevTrustedRoot = .ok witness →
      verifyMerkleBranch b.sha256 witness.executionBlockHash witness.execToHashBranch.1
        execToHashDepth execToHashLeafIndex witness.executionPayloadRoot = true := by
  refine ⟨?_, fun _ _ _ _ _ h => built_step6 h⟩
  have hlen : leaves.1.length = 2 ^ 5 := leaves.2
  have hbranch := @merkleBranch32_eq b.sha256 leaves i hi
  have hroot := @merkleRootVec_eq b.sha256 leaves.1 5 hlen
  refine ⟨_, _, hbranch, hroot, ?_, fun leaf siblings cf h => branch_sound hi hroot cf h⟩
  rw [verifyMerkleBranch_iff b.sha256 _ _ _ (by decide), toNat_leafIndex hi]
  exact merkleBranch32_verifies hi hbranch hroot

section Sample

def zeroLeaves : Leaves 32 := ⟨List.replicate 32 zeroBytes, rfl⟩

/-- The nodes of the tree over zero leaves, one for each level below the root. -/
def zeroNodes : List Bytes32 := (List.range 5).map (constNode (sha256Pair sha256) zeroBytes)

theorem zeroNodes_cover {m : Bytes}
    (hm : m ∈ BranchHashes sha256 zeroLeaves 12 zeroBytes zeroNodes) :
    m ∈ zeroNodes.map fun node => pairMessage node node := by
  have hleaf : ∀ j, zeroLeaves.1.getD j zeroBytes = zeroBytes := by
    intro j
    rw [List.getD_eq_getElem?_getD, zeroLeaves, List.getElem?_replicate]
    split <;> rfl
  cases hm with
  | tree p h =>
    obtain ⟨k, i, hk, _, rfl⟩ := h
    rw [treeNode_const fun j _ _ => hleaf j, treeNode_const fun j _ _ => hleaf j, zeroNodes,
      List.map_map]
    exact List.mem_map.mpr ⟨k, List.mem_range.mpr hk, rfl⟩
  | walk p h =>
    have hpairs : walkPairs (sha256Pair sha256) 12 zeroBytes zeroNodes =
        zeroNodes.map fun node => (node, node) := rfl
    rw [hpairs] at h
    obtain ⟨node, hnode, rfl⟩ := List.mem_map.mp h
    exact List.mem_map.mpr ⟨node, hnode, rfl⟩

theorem zeroNodes_distinct :
    ((zeroNodes.map fun node => pairMessage node node).map sha256).Nodup := by decide +kernel

theorem branches_agree_zeros :
    (∃ branch root, merkleBranch32 sha256 zeroLeaves 12 = .ok branch ∧
      merkleRootVec sha256 zeroLeaves.1 = .ok root ∧
      verifyMerkleBranch sha256 zeroBytes branch.1 5 12 root = true ∧
      zeroBytes = zeroLeaves.1.getD 12 zeroBytes) ∧
    verifyMerkleBranch sha256 firstWitness.executionBlockHash firstWitness.execToHashBranch.1
      execToHashDepth execToHashLeafIndex firstWitness.executionPayloadRoot = true := by
  obtain ⟨⟨branch, root, hbranch, hroot, haccepted, hsound⟩, hstep6⟩ :=
    branches_agree Build.default zeroLeaves 12 (by decide)
  have hsiblings : branch.1 = zeroNodes := by
    rw [← Except.ok.inj ((merkleBranch32_eq (by decide)).symm.trans hbranch)]
    rfl
  have hcf : CollisionFreeOn sha256 (BranchHashes sha256 zeroLeaves 12 zeroBytes branch.1) :=
    collisionFreeOn_of_nodup (fun m hm => zeroNodes_cover (hsiblings ▸ hm)) zeroNodes_distinct
  exact ⟨⟨branch, root, hbranch, hroot, haccepted, hsound _ _ hcf haccepted⟩,
    hstep6 _ _ _ _ _ firstWitness_built⟩

end Sample

end BeaconApi

end ObscuraNetwork
