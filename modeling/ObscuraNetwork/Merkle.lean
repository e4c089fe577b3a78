import ObscuraNetwork.IncrementalTree
import ObscuraNetwork.CollisionFree
import ObscuraNetwork.Outcome

namespace ObscuraNetwork

def treeDepth : Nat := 20

def rootsHistorySize : UInt64 := 100

def zeroBytes : Bytes32 := FixedBytes.replicate 32 0

def pairMessage (left right : Bytes32) : Bytes := left.bytes ++ right.bytes

theorem pairMessage_inj (a b a' b' : Bytes32) (h : pairMessage a b = pairMessage a' b') :
    a = a' ∧ b = b' := by
  obtain ⟨ha, hb⟩ := bytes_append_inj h
  exact ⟨ha, FixedBytes.ext_bytes hb⟩

section Hashing

variable (sha256 : Bytes → Bytes32)

/-- `hash_pair`: the hash of two nodes written side by side. -/
def hashPair (left right : Bytes32) : Bytes32 := sha256 (left.bytes ++ right.bytes)

def zeroValue : Nat → Bytes32
  | 0 => zeroBytes
  | level + 1 => hashPair sha256 (zeroValue level) (zeroValue level)

def emptyRoot : Bytes32 := zeroValue sha256 treeDepth

/-- The sibling loop shared by the two verifiers of a path. -/
def foldSiblings : Bytes32 → UInt64 → List Bytes32 → Bytes32
  | current, _, [] => current
  | current, index, sibling :: rest =>
    foldSiblings
      (if index &&& 1 = 0 then hashPair sha256 current sibling else hashPair sha256 sibling current)
      (index >>> 1) rest

end Hashing

structure MerkleProof where
  leafIndex : UInt64
  siblings : List Bytes32
  root : Bytes32
  deriving DecidableEq

def MerkleProof.verify (sha256 : Bytes → Bytes32) (proof : MerkleProof) (leaf : Bytes32) : Bool :=
  if proof.siblings.length ≠ treeDepth then false
  else decide (foldSiblings sha256 leaf proof.leafIndex proof.siblings = proof.root)

/-- The loop state of `compute_insert`: the running node, the shifted index, the new entries. -/
structure InsertLoop where
  current : Bytes32
  index : UInt64
  updates : List (Nat × Bytes32)

/-- One level of `compute_insert`. -/
def insertLevel (sha256 : Bytes → Bytes32) (getFilled : Nat → Bytes32) (loop : InsertLoop)
    (level : Nat) : InsertLoop :=
  if loop.index &&& 1 = 0 then
    { current := hashPair sha256 loop.current (zeroValue sha256 level)
      index := loop.index >>> 1
      updates := loop.updates ++ [(level, loop.current)] }
  else
    { current := hashPair sha256 (getFilled level) loop.current
      index := loop.index >>> 1
      updates := loop.updates }

/-- `compute_insert`: the new root and the entries of `filled_subtrees` to store. -/
def computeInsert (sha256 : Bytes → Bytes32) (leaf : Bytes32) (nextIndex : UInt64)
    (getFilled : Nat → Bytes32) : Bytes32 × List (Nat × Bytes32) :=
  let loop := (List.range treeDepth).foldl (insertLevel sha256 getFilled) ⟨leaf, nextIndex, []⟩
  (loop.current, loop.updates)

/-- The descending loop of `build_proof_paths`: write node `level` from its two children. -/
def buildUp (sha256 : Bytes → Bytes32) : Nat → (Nat → Bytes32) → Nat → Bytes32
  | 0, nodes => nodes
  | level + 1, nodes =>
    buildUp sha256 level (Function.update nodes (level + 1)
      (hashPair sha256 (nodes (2 * (level + 1))) (nodes (2 * (level + 1) + 1))))

/-- The heap of `build_proof_paths`, root at 1 and leaf `i` at `2^20 + i`. More leaves than the
tree has places are written out of bounds. -/
def buildNodes (sha256 : Bytes → Bytes32) (leaves : List Bytes32) : Outcome (Nat → Bytes32) := do
  ensure (leaves.length ≤ 2 ^ treeDepth) (.panic "index out of bounds")
  let zeroed : Nat → Bytes32 := fun _ => zeroBytes
  let filled := leaves.zipIdx.foldl
    (fun nodes entry => Function.update nodes (2 ^ treeDepth + entry.2) entry.1) zeroed
  let padded := (List.range' leaves.length (2 ^ treeDepth - leaves.length)).foldl
    (fun nodes i => Function.update nodes (2 ^ treeDepth + i) (zeroValue sha256 0)) filled
  pure (buildUp sha256 (2 ^ treeDepth - 1) padded)

/-- The sibling loop of `build_proof_paths`. -/
def heapSiblings (nodes : Nat → Bytes32) : Nat → Nat → List Bytes32
  | 0, _ => []
  | n + 1, pos =>
    (if pos % 2 = 0 then nodes (pos + 1) else nodes (pos - 1)) :: heapSiblings nodes n (pos / 2)

def buildProofPaths (sha256 : Bytes → Bytes32) (leaves : List Bytes32) :
    Outcome (List (List Bytes32)) := do
  let nodes ← buildNodes sha256 leaves
  pure ((List.range leaves.length).map fun i => heapSiblings nodes treeDepth (2 ^ treeDepth + i))

end ObscuraNetwork
