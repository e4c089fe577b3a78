import ObscuraNetwork.BinarySearch
import ObscuraNetwork.SanctionsCircuit
import Mathlib.Data.List.Destutter
import Mathlib.Data.List.Sort
import Mathlib.Data.Nat.Log

namespace ObscuraNetwork

namespace SanctionsOracle

/-- Sorted Merkle tree built from the sanctioned addresses, `levels` from the leaves up. -/
structure SanctionsMerkleTree where
  sortedAddrHashes : List Bytes32
  levels : List (List Bytes32)
  depth : UInt32

structure MerkleProof where
  addrHash : Bytes32
  index : UInt64
  siblings : List Bytes32

structure NonMembershipWitness where
  sanctionsRoot : Bytes32
  leftLeaf : Bytes32
  rightLeaf : Bytes32
  leftProof : List Bytes32
  rightProof : List Bytes32
  leftIndex : UInt64
  rightIndex : UInt64
  treeDepth : UInt32

def minSentinel : Bytes32 := FixedBytes.replicate 32 0x00

def maxSentinel : Bytes32 := FixedBytes.replicate 32 0xff

/-- `usize::next_power_of_two`: the smallest power of two that is not below `n`. -/
def nextPowerOfTwo (n : Nat) : Nat := 2 ^ Nat.clog 2 n

def trailingZerosFrom : Nat → Nat → Nat
  | 0, _ => 0
  | width + 1, n => if n % 2 = 1 then 0 else trailingZerosFrom width (n / 2) + 1

/-- `usize::trailing_zeros`. -/
def trailingZeros (n : Nat) : UInt32 := UInt32.ofNat (trailingZerosFrom 64 n)

def resize (size : Nat) (value : Bytes32) (xs : List Bytes32) : List Bytes32 :=
  xs.take size ++ List.replicate (size - xs.length) value

/-- The address hashes with both sentinels, sorted and without repetitions. -/
def sortedHashes (sha256 : Bytes → Bytes32) (addresses : List Bytes32) : List Bytes32 :=
  ((addresses.map (hashAddr sha256) ++ [minSentinel] ++ [maxSentinel]).insertionSort
    (· ≤ ·)).destutter (· ≠ ·)

/-- One round of the level loop: hash the chunks of two. -/
def hashChunks (sha256 : Bytes → Bytes32) : List Bytes32 → Outcome (List Bytes32)
  | [] => pure []
  | [_] => .error (.panic "index out of bounds")
  | left :: right :: rest => do
    let next ← hashChunks sha256 rest
    pure (hashNode sha256 left right :: next)

/-- The level loop of `build`; each round halves the level, so its length is fuel enough. -/
def buildLevels (sha256 : Bytes → Bytes32) : Nat → List Bytes32 → Outcome (List (List Bytes32))
  | 0, current => pure [current]
  | fuel + 1, current =>
    if 1 < current.length then do
      let next ← hashChunks sha256 current
      let above ← buildLevels sha256 fuel next
      pure (current :: above)
    else pure [current]

def build (sha256 : Bytes → Bytes32) (addresses : List Bytes32) : Outcome SanctionsMerkleTree := do
  let hashes := sortedHashes sha256 addresses
  let treeSize := nextPowerOfTwo hashes.length
  let addrHashes := resize treeSize maxSentinel hashes
  let leafLevel := addrHashes.map (hashLeaf sha256)
  let levels ← buildLevels sha256 leafLevel.length leafLevel
  pure { sortedAddrHashes := addrHashes, levels, depth := trailingZeros treeSize }

namespace SanctionsMerkleTree

variable (tree : SanctionsMerkleTree)

def root : Outcome Bytes32 :=
  match tree.levels.getLast? with
  | none => .error (.panic "called `Option::unwrap()` on a `None` value")
  | some [] => .error (.panic "index out of bounds")
  | some (node :: _) => pure node

def entry (xs : List Bytes32) (i : Nat) : Outcome Bytes32 :=
  match xs[i]? with
  | some x => pure x
  | none => .error (.panic "index out of bounds")

/-- The sibling loop of `inclusion_proof`. -/
def siblingLoop : List (List Bytes32) → Nat → Outcome (List Bytes32)
  | [], _ => pure []
  | level :: rest, idx => do
    let sibling ← entry level (if idx % 2 = 0 then idx + 1 else idx - 1)
    let siblings ← siblingLoop rest (idx / 2)
    pure (sibling :: siblings)

def inclusionProof (index : Nat) : Outcome MerkleProof := do
  let siblings ← siblingLoop tree.levels.dropLast index
  let addrHash ← entry tree.sortedAddrHashes index
  pure { addrHash, index := UInt64.ofNat index, siblings }

def nonMembershipWitness (sha256 : Bytes → Bytes32) (address : Bytes32) (_timestamp : UInt64) :
    Outcome NonMembershipWitness := do
  let addrHash := hashAddr sha256 address
  let pos := partitionPoint (fun h => decide (h < addrHash)) tree.sortedAddrHashes
  ensure (¬tree.sortedAddrHashes[pos]? = some addrHash)
    (.bail "Address is in the sanctions list — cannot generate non-membership proof")
  ensure (pos ≠ 0) (.bail "Address is smaller than all leaves — sentinel should prevent this")
  let leftProof ← tree.inclusionProof (pos - 1)
  let rightProof ← tree.inclusionProof pos
  let sanctionsRoot ← tree.root
  let leftLeaf ← entry tree.sortedAddrHashes (pos - 1)
  let rightLeaf ← entry tree.sortedAddrHashes pos
  pure
    { sanctionsRoot, leftLeaf, rightLeaf
      leftProof := leftProof.siblings
      rightProof := rightProof.siblings
      leftIndex := UInt64.ofNat (pos - 1)
      rightIndex := UInt64.ofNat pos
      treeDepth := tree.depth }

def isSanctioned (sha256 : Bytes → Bytes32) (address : Bytes32) : Bool :=
  (binarySearchBy (fun h => compare h (hashAddr sha256 address)) tree.sortedAddrHashes).isOk

end SanctionsMerkleTree

/-- The circuit's witness made of an oracle's witness, the recipient and a timestamp. -/
def NonMembershipWitness.forRecipient (witness : NonMembershipWitness) (recipient : Bytes32)
    (timestamp : UInt64) : SanctionsWitness where
  recipient := recipient
  sanctionsRoot := witness.sanctionsRoot
  leftLeaf := witness.leftLeaf
  rightLeaf := witness.rightLeaf
  leftProof := witness.leftProof
  rightProof := witness.rightProof
  leftIndex := witness.leftIndex
  rightIndex := witness.rightIndex
  treeDepth := witness.treeDepth
  proofTimestamp := timestamp

end SanctionsOracle

end ObscuraNetwork
