import ObscuraNetwork.PerfectTree
import ObscuraNetwork.MerkleRoots

namespace ObscuraNetwork

structure SanctionsWitness where
  recipient : Bytes32
  sanctionsRoot : Bytes32
  leftLeaf : Bytes32
  rightLeaf : Bytes32
  leftProof : List Bytes32
  rightProof : List Bytes32
  leftIndex : UInt64
  rightIndex : UInt64
  treeDepth : UInt32
  proofTimestamp : UInt64
  deriving DecidableEq

structure SanctionsPublicOutputs where
  recipientCommitment : Bytes32
  sanctionsRoot : Bytes32
  isClean : Bool
  proofTimestamp : UInt64
  deriving DecidableEq

def addrMessage (addr : Bytes32) : Bytes := [0x61, 0x64, 0x64, 0x72] ++ addr.bytes

def leafMessage (addrHash : Bytes32) : Bytes := [0x6c, 0x65, 0x61, 0x66] ++ addrHash.bytes

def nodeMessage (left right : Bytes32) : Bytes :=
  [0x6e, 0x6f, 0x64, 0x65] ++ (left.bytes ++ right.bytes)

def recipientMessage (addr : Bytes32) : Bytes :=
  [0x72, 0x65, 0x63, 0x69, 0x70, 0x69, 0x65, 0x6e, 0x74] ++ addr.bytes

theorem leafMessage_inj {a b : Bytes32} (h : leafMessage a = leafMessage b) : a = b :=
  FixedBytes.ext_bytes (List.append_cancel_left h)

theorem nodeMessage_inj (a b a' b' : Bytes32) (h : nodeMessage a b = nodeMessage a' b') :
    a = a' ∧ b = b' := by
  obtain ⟨ha, hb⟩ := bytes_append_inj (List.append_cancel_left h)
  exact ⟨ha, FixedBytes.ext_bytes hb⟩

theorem leafMessage_ne_nodeMessage (a l r : Bytes32) : leafMessage a ≠ nodeMessage l r := by
  intro h
  simp [leafMessage, nodeMessage] at h

section Circuit

variable (sha256 : Bytes → Bytes32)

/-- `hash_addr`, the same in the oracle and the circuit. -/
def hashAddr (addr : Bytes32) : Bytes32 := sha256 (addrMessage addr)

def hashLeaf (addrHash : Bytes32) : Bytes32 := sha256 (leafMessage addrHash)

def hashNode (left right : Bytes32) : Bytes32 := sha256 (nodeMessage left right)

def recipientCommitment (addr : Bytes32) : Bytes32 := sha256 (recipientMessage addr)

/-- The sibling loop of `verify_merkle_proof`. -/
def foldNodes : Bytes32 → UInt64 → List Bytes32 → Bytes32
  | current, _, [] => current
  | current, idx, sibling :: rest =>
    foldNodes (if idx % 2 = 0 then hashNode sha256 current sibling
      else hashNode sha256 sibling current) (idx >>> 1) rest

def verifyMerkleProof (leafHash : Bytes32) (index : UInt64) (proof : List Bytes32) (root : Bytes32)
    (depth : UInt32) : Bool :=
  if proof.length ≠ depth.toNat then false
  else decide (foldNodes sha256 leafHash index proof = root)

/-- `main` of the sanctions circuit. The index addition wraps, as in a release build. -/
def sanctionsMain (witness : SanctionsWitness) : Outcome SanctionsPublicOutputs := do
  ensure (witness.leftIndex + 1 = witness.rightIndex)
    (.panic "left and right leaves must be adjacent (right_index = left_index + 1)")
  let addrHash := hashAddr sha256 witness.recipient
  ensure (witness.leftLeaf < addrHash)
    (.panic "recipient addr_hash must be strictly greater than left_leaf")
  ensure (addrHash < witness.rightLeaf)
    (.panic "recipient addr_hash must be strictly less than right_leaf")
  ensure (verifyMerkleProof sha256 (hashLeaf sha256 witness.leftLeaf) witness.leftIndex
      witness.leftProof witness.sanctionsRoot witness.treeDepth = true)
    (.panic "left_leaf Merkle inclusion proof is invalid")
  ensure (verifyMerkleProof sha256 (hashLeaf sha256 witness.rightLeaf) witness.rightIndex
      witness.rightProof witness.sanctionsRoot witness.treeDepth = true)
    (.panic "right_leaf Merkle inclusion proof is invalid")
  pure
    { recipientCommitment := recipientCommitment sha256 witness.recipient
      sanctionsRoot := witness.sanctionsRoot
      isClean := true
      proofTimestamp := witness.proofTimestamp }

end Circuit

variable {sha256 : Bytes → Bytes32}

theorem mod_two_eq_zero_iff (x : UInt64) : x % 2 = 0 ↔ x.toNat % 2 = 0 := by
  rw [← UInt64.toNat_inj, UInt64.toNat_mod]
  rfl

theorem foldNodes_eq_walk (current : Bytes32) (index : UInt64) (siblings : List Bytes32) :
    foldNodes sha256 current index siblings =
      walk (hashNode sha256) index.toNat current siblings := by
  induction siblings generalizing current index with
  | nil => rfl
  | cons sibling rest ih =>
    simp only [foldNodes, walk, ih, toNat_shiftRight_one, mod_two_eq_zero_iff]

theorem verifyMerkleProof_iff {leafHash root : Bytes32} {index : UInt64} {proof : List Bytes32}
    {depth : UInt32} : verifyMerkleProof sha256 leafHash index proof root depth = true ↔
      proof.length = depth.toNat ∧ walk (hashNode sha256) index.toNat leafHash proof = root := by
  unfold verifyMerkleProof
  split
  next h => simp [h]
  next h => simp [not_not.mp h, foldNodes_eq_walk]

structure SanctionsAccepted (sha256 : Bytes → Bytes32) (witness : SanctionsWitness) : Prop where
  adjacent : witness.leftIndex + 1 = witness.rightIndex
  above : witness.leftLeaf < hashAddr sha256 witness.recipient
  below : hashAddr sha256 witness.recipient < witness.rightLeaf
  leftLength : witness.leftProof.length = witness.treeDepth.toNat
  leftWalk : walk (hashNode sha256) witness.leftIndex.toNat (hashLeaf sha256 witness.leftLeaf)
    witness.leftProof = witness.sanctionsRoot
  rightLength : witness.rightProof.length = witness.treeDepth.toNat
  rightWalk : walk (hashNode sha256) witness.rightIndex.toNat (hashLeaf sha256 witness.rightLeaf)
    witness.rightProof = witness.sanctionsRoot

def SanctionsWitness.outputs (sha256 : Bytes → Bytes32) (witness : SanctionsWitness) :
    SanctionsPublicOutputs where
  recipientCommitment := recipientCommitment sha256 witness.recipient
  sanctionsRoot := witness.sanctionsRoot
  isClean := true
  proofTimestamp := witness.proofTimestamp

theorem sanctionsMain_ok {witness : SanctionsWitness} {out : SanctionsPublicOutputs} :
    sanctionsMain sha256 witness = .ok out ↔
      SanctionsAccepted sha256 witness ∧ out = witness.outputs sha256 := by
  simp only [sanctionsMain, bind_ok, ensure_ok, verifyMerkleProof_iff, pure_ok]
  constructor
  · intro h
    obtain ⟨_, hadj, _, habove, _, hbelow, _, ⟨hll, hlw⟩, _, ⟨hrl, hrw⟩, rfl⟩ := h
    exact ⟨⟨hadj, habove, hbelow, hll, hlw, hrl, hrw⟩, rfl⟩
  · intro h
    obtain ⟨⟨hadj, habove, hbelow, hll, hlw, hrl, hrw⟩, rfl⟩ := h
    exact ⟨(), hadj, (), habove, (), hbelow, (), ⟨hll, hlw⟩, (), ⟨hrl, hrw⟩, rfl⟩

theorem sanctionsMain_isOk {witness : SanctionsWitness} :
    (∃ out, sanctionsMain sha256 witness = .ok out) ↔ SanctionsAccepted sha256 witness := by
  constructor
  · intro h
    obtain ⟨out, hout⟩ := h
    exact (sanctionsMain_ok.mp hout).1
  · intro h
    exact ⟨_, sanctionsMain_ok.mpr ⟨h, rfl⟩⟩

end ObscuraNetwork
