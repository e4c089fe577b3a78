import ObscuraNetwork.InclusionSoundness
import ObscuraNetwork.TransferGate

namespace ObscuraNetwork

open ObscuraPrivacy

/-- The root right after the insertion of the `n`-th of the commitments, in a pool that had none. -/
def RootAfter (b : Build) (commitments : List Commitment) (n : Nat) (root : Bytes32) : Prop :=
  ∃ t, storeOutputs b [] 0 (commitments.take n) (ObscuraPrivacy.genesis b) = .ok t ∧
    t.merkleRoot = some root

theorem rootAfter_iff {b : Build} {s : ObscuraPrivacy} (hs : s.tree.Faithful b) {n : Nat}
    {root : Bytes32} :
    RootAfter b s.commitments n root ↔ root = fullRoot b.sha256 (s.tree.leaves.take n) := by
  have hfits : s.commitments.length ≤ 2 ^ treeDepth := hs.fits
  have hroom : (ObscuraPrivacy.genesis b).commitments.length + (s.commitments.take n).length ≤
      2 ^ treeDepth := by
    have hle := List.length_take_le' n s.commitments
    show 0 + _ ≤ _
    omega
  obtain ⟨t, ht⟩ := (storeOutputs_isOk [] 0 _ (genesis_tree_faithful b)).mpr hroom
  obtain ⟨hfaithful, hlist⟩ := storeOutputs_faithful (genesis_tree_faithful b) ht
  have hleaves : t.tree.leaves = s.tree.leaves.take n := by
    show t.commitments.map Commitment.hash = (s.commitments.map Commitment.hash).take n
    rw [hlist, ← List.map_take]
    rfl
  have hroot : t.merkleRoot = some (fullRoot b.sha256 (s.tree.leaves.take n)) :=
    hleaves ▸ hfaithful.root
  constructor
  · intro h
    obtain ⟨t', ht', hroot'⟩ := h
    rw [ht] at ht'
    cases ht'
    exact Option.some.inj (hroot'.symm.trans hroot)
  · rintro rfl
    exact ⟨t, ht, hroot⟩

/-- In every reachable state a root is known exactly when it is that of one of the last 100
insertions. -/
theorem known_roots_exact (b : Build) (config : BridgeConfig) (txs : List Tx) (root : Bytes32) :
    let s := (Runtime.run b config txs).obscuraPrivacy
    let n := s.commitments.length
    s.isKnownRoot root = true ↔
      ∃ k, n - min n rootsHistorySize.toNat < k ∧ k ≤ n ∧ RootAfter b s.commitments k root := by
  intro s n
  obtain ⟨hs, hroots⟩ := run_keepsRoots b config txs
  have hlen : s.tree.leaves.length = n := List.length_map _
  have hsize : rootsHistorySize.toNat = 100 := rfl
  rw [isKnownRoot_iff hs hroots, RecentRoot, hlen, hsize]
  constructor
  · intro h
    obtain ⟨k, hpos, hle, hrecent, hroot⟩ := h
    exact ⟨k, by omega, hle, (rootAfter_iff hs).mpr hroot⟩
  · intro h
    obtain ⟨k, hrecent, hle, hroot⟩ := h
    exact ⟨k, by omega, hle, by omega, (rootAfter_iff hs).mp hroot⟩

section EmptyRoot

variable {sha256 : Bytes → Bytes32} {leaves : List Bytes32}

/-- All-zero leaves leave the tree empty: they are what its empty places hold. -/
theorem fullRoot_zero_leaves (h : ∀ leaf ∈ leaves, leaf = zeroBytes) :
    fullRoot sha256 leaves = emptyRoot sha256 := by
  have hplace : treeLeaf leaves = treeLeaf [] := by
    funext i
    rcases padded_mem_or (z := zeroBytes) leaves i with hmem | ⟨_, hzero⟩
    · exact h _ hmem
    · exact hzero
  rw [emptyRoot_eq_fullRoot, fullRoot, fullRoot, hplace]

theorem zero_leaves_of_fullRoot {messages : Set Bytes} (hcf : CollisionFreeOn sha256 messages)
    (hempty : treeMessages sha256 [] ⊆ messages) (htree : treeMessages sha256 leaves ⊆ messages)
    (hfits : leaves.length ≤ 2 ^ treeDepth) (h : fullRoot sha256 leaves = emptyRoot sha256) :
    ∀ leaf ∈ leaves, leaf = zeroBytes := by
  have inj : PairInjOn (hashPair sha256) {p | pairMessage p.1 p.2 ∈ messages} :=
    pairInjOn_of_collisionFree hcf pairMessage_inj
  rw [emptyRoot_eq_fullRoot] at h
  intro leaf hleaf
  obtain ⟨i, hi, rfl⟩ := List.mem_iff_getElem.mp hleaf
  have hplace : treeLeaf leaves i = treeLeaf [] i :=
    treeNode_inj inj (fun p hp => htree ⟨p, hp, rfl⟩) (fun p hp => hempty ⟨p, hp, rfl⟩) h
      (Nat.lt_of_lt_of_le hi hfits)
  rw [treeLeaf, padded, List.getD_eq_getElem _ _ hi] at hplace
  exact hplace

/-- The empty tree's root is known while one of the last 100 insertions has left nothing but
all-zero leaves behind it, and then only. -/
theorem empty_root_known_iff (b : Build) (config : BridgeConfig) (txs : List Tx) :
    let s := (Runtime.run b config txs).obscuraPrivacy
    let n := s.commitments.length
    let onlyZeros := ∃ k, n - min n rootsHistorySize.toNat < k ∧ k ≤ n ∧
      ∀ commitment ∈ s.commitments.take k, commitment.hash = zeroBytes
    (onlyZeros → s.isKnownRoot (emptyRoot b.sha256) = true) ∧
      (CollisionFreeOn b.sha256 {m | ∃ k, m ∈ treeMessages b.sha256 (s.tree.leaves.take k)} →
        s.isKnownRoot (emptyRoot b.sha256) = true → onlyZeros) := by
  intro s n onlyZeros
  obtain ⟨hs, hroots⟩ := run_keepsRoots b config txs
  have hsize : rootsHistorySize.toNat = 100 := rfl
  have hlen : s.tree.leaves.length = n := List.length_map _
  have hfits : n ≤ 2 ^ treeDepth := hs.fits
  have hleaves : ∀ k, s.tree.leaves.take k = (s.commitments.take k).map Commitment.hash :=
    fun k => List.map_take.symm
  rw [isKnownRoot_iff hs hroots, RecentRoot, hlen]
  constructor
  · rintro ⟨k, hrecent, hle, hzero⟩
    refine ⟨k, by omega, hle, by omega, (fullRoot_zero_leaves fun leaf hleaf => ?_).symm⟩
    rw [hleaves] at hleaf
    obtain ⟨commitment, hcommitment, rfl⟩ := List.mem_map.mp hleaf
    exact hzero commitment hcommitment
  · rintro hcf ⟨k, hpos, hle, hrecent, hroot⟩
    refine ⟨k, by omega, hle, fun commitment hcommitment => ?_⟩
    have htake : (s.tree.leaves.take k).length ≤ 2 ^ treeDepth := by
      rw [List.length_take]
      omega
    have hzero := zero_leaves_of_fullRoot hcf (fun m hm => ⟨0, hm⟩) (fun m hm => ⟨k, hm⟩) htake
      hroot.symm
    apply hzero
    rw [hleaves]
    exact List.mem_map_of_mem hcommitment

end EmptyRoot

/-- A transfer of nothing into one output, all zeros. -/
def zeroOutputTransfer : TransferMessage :=
  { idleTransfer with outputCommitments := [⟨zeroBytes⟩] }

theorem empty_root_known :
    let s := (Runtime.run .default .default
      [⟨⟨[], 1000000⟩, .obscuraPrivacy (.transfer zeroOutputTransfer)⟩]).obscuraPrivacy
    s.commitments.length = 1 ∧ s.isKnownRoot (emptyRoot Build.default.sha256) = true := by
  intro s
  have hcommitments : s.commitments = [⟨zeroBytes⟩] := rfl
  refine ⟨rfl, (empty_root_known_iff .default .default
    [⟨⟨[], 1000000⟩, .obscuraPrivacy (.transfer zeroOutputTransfer)⟩]).1 ⟨1, ?_, ?_, ?_⟩⟩
  · decide
  · exact le_rfl
  · intro commitment hcommitment
    have hmem : commitment ∈ s.commitments := List.mem_of_mem_take hcommitment
    rw [hcommitments, List.mem_singleton] at hmem
    rw [hmem]

end ObscuraNetwork
