import ObscuraNetwork.MerkleRoots

namespace ObscuraNetwork

structure BeaconBlockHeader where
  slot : UInt64
  proposerIndex : UInt64
  parentRoot : Bytes32
  stateRoot : Bytes32
  bodyRoot : Bytes32
  deriving DecidableEq

/-- A Merkle branch of a fixed number of siblings, leaf level first. -/
abbrev Branch (n : Nat) := {siblings : List Bytes32 // siblings.length = n}

/-- An integer leaf: little-endian, zero-padded to 32 bytes. -/
def uint64Leaf (v : UInt64) : Bytes32 := ⟨toLeBytes v ++ List.replicate 24 0, by simp⟩

theorem uint64Leaf_injective : Function.Injective uint64Leaf := by
  intro v w h
  have hbytes := congrArg FixedBytes.bytes h
  exact toLeBytes_injective (List.append_inj hbytes (by simp)).1

section Ssz

variable (sha256 : Bytes → Bytes32)

def sha256Pair (left right : Bytes32) : Bytes32 := sha256 (pairMessage left right)

def merkleRoot8 (l0 l1 l2 l3 l4 l5 l6 l7 : Bytes32) : Bytes32 :=
  let n0 := sha256Pair sha256 l0 l1
  let n1 := sha256Pair sha256 l2 l3
  let n2 := sha256Pair sha256 l4 l5
  let n3 := sha256Pair sha256 l6 l7
  let m0 := sha256Pair sha256 n0 n1
  let m1 := sha256Pair sha256 n2 n3
  sha256Pair sha256 m0 m1

/-- `hash_tree_root` of a header: its five fields and three zero leaves. -/
def hashTreeRootBeaconHeader (h : BeaconBlockHeader) : Bytes32 :=
  merkleRoot8 sha256 (uint64Leaf h.slot) (uint64Leaf h.proposerIndex) h.parentRoot h.stateRoot
    h.bodyRoot zeroBytes zeroBytes zeroBytes

def hashTreeRootForkData (forkVersion : FixedBytes 4) (genesisValidatorsRoot : Bytes32) : Bytes32 :=
  sha256Pair sha256 ⟨forkVersion.bytes ++ List.replicate 28 0, by simp⟩ genesisValidatorsRoot

def domainSyncCommittee : FixedBytes 4 := ⟨[0x07, 0, 0, 0], rfl⟩

def computeDomain (domainType forkVersion : FixedBytes 4) (genesisValidatorsRoot : Bytes32) :
    Bytes32 :=
  let forkDataRoot := hashTreeRootForkData sha256 forkVersion genesisValidatorsRoot
  ⟨domainType.bytes ++ forkDataRoot.bytes.take 28, by simp⟩

def computeSigningRoot (headerRoot domain : Bytes32) : Bytes32 :=
  sha256Pair sha256 headerRoot domain

/-- The loop of `verify_merkle_branch`; `i` counts the siblings already used. -/
def foldBranch (leafIndex : UInt64) : Nat → Bytes32 → List Bytes32 → Bytes32
  | _, value, [] => value
  | i, value, sibling :: rest =>
    foldBranch leafIndex (i + 1)
      (if (leafIndex >>> UInt64.ofNat i) &&& 1 = 1 then sha256Pair sha256 sibling value
        else sha256Pair sha256 value sibling) rest

def verifyMerkleBranch (leaf : Bytes32) (branch : List Bytes32) (depth : Nat) (leafIndex : UInt64)
    (root : Bytes32) : Bool :=
  if branch.length ≠ depth then false
  else decide (foldBranch sha256 leafIndex 0 leaf branch = root)

variable {sha256}

theorem shiftRight_and_one (x : UInt64) {i : Nat} (hi : i < 64) :
    (x >>> UInt64.ofNat i) &&& 1 = 1 ↔ x.toNat / 2 ^ i % 2 = 1 := by
  have hsmall : i < 2 ^ 64 := by omega
  rw [← UInt64.toNat_inj, UInt64.toNat_and, UInt64.toNat_shiftRight,
    UInt64.toNat_ofNat_of_lt' hsmall, Nat.mod_eq_of_lt hi, Nat.shiftRight_eq_div_pow]
  simp [Nat.and_one_is_mod]

theorem foldBranch_eq_walk (leafIndex : UInt64) {i : Nat} (value : Bytes32) (branch : List Bytes32)
    (h : i + branch.length ≤ 64) :
    foldBranch sha256 leafIndex i value branch =
      walk (sha256Pair sha256) (leafIndex.toNat / 2 ^ i) value branch := by
  induction branch generalizing i value with
  | nil => rfl
  | cons sibling rest ih =>
    simp only [List.length_cons] at h
    have hstep : leafIndex.toNat / 2 ^ i / 2 = leafIndex.toNat / 2 ^ (i + 1) := by
      rw [Nat.div_div_eq_div_mul, ← pow_succ]
    rw [foldBranch, walk, ih _ (by omega), hstep]
    congr 1
    by_cases hbit : leafIndex.toNat / 2 ^ i % 2 = 0
    · have hnot : ¬leafIndex.toNat / 2 ^ i % 2 = 1 := by omega
      rw [if_neg ((shiftRight_and_one leafIndex (by omega)).not.mpr hnot), if_pos hbit]
    · have hone : leafIndex.toNat / 2 ^ i % 2 = 1 := by omega
      rw [if_pos ((shiftRight_and_one leafIndex (by omega)).mpr hone), if_neg hbit]

variable (sha256) in
theorem verifyMerkleBranch_iff (leaf root : Bytes32) {n : Nat} (branch : Branch n) (hn : n ≤ 64)
    (leafIndex : UInt64) :
    verifyMerkleBranch sha256 leaf branch.1 n leafIndex root = true ↔
      walk (sha256Pair sha256) leafIndex.toNat leaf branch.1 = root := by
  have hlen := branch.2
  rw [verifyMerkleBranch, if_neg (not_not.mpr hlen), decide_eq_true_eq,
    foldBranch_eq_walk _ _ _ (by omega), Nat.pow_zero, Nat.div_one]

end Ssz

end ObscuraNetwork
