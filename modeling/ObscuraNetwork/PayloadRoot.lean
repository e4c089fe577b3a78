import ObscuraNetwork.BeaconText
import ObscuraNetwork.Ssz
import Mathlib.Data.Nat.Bitwise

namespace ObscuraNetwork

namespace BeaconApi

structure ExecutionPayloadHeaderJson where
  parentHash : String
  feeRecipient : String
  stateRoot : String
  receiptsRoot : String
  logsBloom : String
  prevRandao : String
  blockNumber : String
  gasLimit : String
  gasUsed : String
  timestamp : String
  extraData : String
  baseFeePerGas : String
  blockHash : String
  transactionsRoot : String
  withdrawalsRoot : String
  blobGasUsed : String
  excessBlobGas : String

/-- An array of leaves, the `[[u8; 32]; n]` of the source. -/
abbrev Leaves (n : Nat) := {leaves : List Bytes32 // leaves.length = n}

/-- A leaf that starts with the bytes and is zero behind them. -/
def zeroPadded (bytes : Bytes) : Bytes32 :=
  ⟨bytes.take 32 ++ List.replicate (32 - (bytes.take 32).length) 0, by simp⟩

/-- Little-endian bytes of a number, `width` of them. -/
def leBytes (width v : Nat) : Bytes := (List.range width).map fun i => UInt8.ofNat (v / 256 ^ i)

/-- `data.chunks(32)`, each chunk copied to a zero leaf. -/
def chunkLeaves (data : Bytes) : List Bytes32 :=
  (List.range ((data.length + 31) / 32)).map fun i => zeroPadded (data.drop (32 * i))

def parseUint256Le (b : Build) (s : String) : Outcome Bytes32 :=
  let s := trimChars s.toList
  if ['0', 'x'] <+: s ∨ ['0', 'X'] <+: s then do
    let bytes ← hexDecode b (String.ofList s)
    pure (zeroPadded bytes.reverse)
  else do
    let v ← context "parse uint256 decimal" (parseUnsigned (2 ^ 128) (String.ofList s))
    pure (zeroPadded (leBytes 16 v))

section Roots

variable (sha256 : Bytes → Bytes32)

/-- One round of the level loops: hash the nodes two by two. -/
def nextLevel : List Bytes32 → Outcome (List Bytes32)
  | [] => pure []
  | [_] => .error (.panic "index out of bounds")
  | left :: right :: rest => do
    let next ← nextLevel rest
    pure (sha256Pair sha256 left right :: next)

def firstNode : List Bytes32 → Outcome Bytes32
  | [] => .error (.panic "index out of bounds")
  | node :: _ => pure node

/-- The loop of `merkle_root_vec`; a round halves the level, so its length is fuel enough. -/
def rootLoop : Nat → List Bytes32 → Outcome Bytes32
  | 0, level => firstNode level
  | fuel + 1, level =>
    if 1 < level.length then do
      let next ← nextLevel sha256 level
      rootLoop fuel next
    else firstNode level

def merkleRootVec (level : List Bytes32) : Outcome Bytes32 := do
  ensure (level ≠ [] ∧ level.length.isPowerOfTwo)
    (.panic "assertion failed: !level.is_empty() && level.len().is_power_of_two()")
  rootLoop sha256 level.length level

/-- The loop of `merkle_branch_32`, with the number of levels left. -/
def branchLoop : (n : Nat) → List Bytes32 → Nat → Outcome (Branch n)
  | 0, _, _ => pure ⟨[], rfl⟩
  | n + 1, level, idx =>
    match level[idx ^^^ 1]? with
    | none => .error (.panic "index out of bounds")
    | some sibling => do
      let next ← nextLevel sha256 level
      let above ← branchLoop n next (idx / 2)
      pure ⟨sibling :: above.1, by simp [above.2]⟩

def merkleBranch32 (leaves : Leaves 32) (leafIndex : Nat) : Outcome (Branch 5) :=
  branchLoop sha256 5 leaves.1 leafIndex

def sszBytesVectorRoot (data : Bytes) : Outcome Bytes32 := merkleRootVec sha256 (chunkLeaves data)

def sszByteListRoot (data : Bytes) (maxChunks : Nat) : Outcome Bytes32 := do
  let treeSize := maxChunks.nextPowerOfTwo
  let leaves := (List.range treeSize).map fun i => (chunkLeaves data).getD i zeroBytes
  let chunkRoot ← merkleRootVec sha256 leaves
  pure (sha256Pair sha256 chunkRoot (uint64Leaf (UInt64.ofNat data.length)))

end Roots

/-- The leaves of the fields before the block hash, parsed in the order of the source. -/
def leavesBeforeHash (b : Build) (exec : ExecutionPayloadHeaderJson) : Outcome (Leaves 12) := do
  let parentHash ← parseBytes32 b exec.parentHash
  let fee ← hexDecode b exec.feeRecipient
  ensure (fee.length = 20)
    (.bail ("ssz: fee_recipient has " ++ toString fee.length ++ " bytes, expected 20"))
  let stateRoot ← parseBytes32 b exec.stateRoot
  let receiptsRoot ← parseBytes32 b exec.receiptsRoot
  let bloom ← hexDecode b exec.logsBloom
  ensure (bloom.length = 256)
    (.bail ("ssz: logs_bloom has " ++ toString bloom.length ++ " bytes, expected 256"))
  let logsBloom ← sszBytesVectorRoot b.sha256 bloom
  let prevRandao ← parseBytes32 b exec.prevRandao
  let blockNumber ← context "ssz: parse block_number" (parseU64 exec.blockNumber)
  let gasLimit ← context "ssz: parse gas_limit" (parseU64 exec.gasLimit)
  let gasUsed ← context "ssz: parse gas_used" (parseU64 exec.gasUsed)
  let timestamp ← context "ssz: parse timestamp" (parseU64 exec.timestamp)
  let extra ← hexDecode b exec.extraData
  ensure (extra.length ≤ 32)
    (.bail ("ssz: extra_data has " ++ toString extra.length ++ " bytes, max 32"))
  let extraData ← sszByteListRoot b.sha256 extra 1
  let baseFee ← context "ssz: parse base_fee_per_gas" (parseUint256Le b exec.baseFeePerGas)
  pure
    ⟨[parentHash, zeroPadded fee, stateRoot, receiptsRoot, logsBloom, prevRandao,
      uint64Leaf blockNumber, uint64Leaf gasLimit, uint64Leaf gasUsed, uint64Leaf timestamp,
      extraData, baseFee], rfl⟩

def leavesAfterHash (b : Build) (exec : ExecutionPayloadHeaderJson) : Outcome (Leaves 4) := do
  let transactionsRoot ← parseBytes32 b exec.transactionsRoot
  let withdrawalsRoot ← parseBytes32 b exec.withdrawalsRoot
  let blobGasUsed ← context "ssz: parse blob_gas_used" (parseU64 exec.blobGasUsed)
  let excessBlobGas ← context "ssz: parse excess_blob_gas" (parseU64 exec.excessBlobGas)
  pure
    ⟨[transactionsRoot, withdrawalsRoot, uint64Leaf blobGasUsed, uint64Leaf excessBlobGas], rfl⟩

/-- The 17 fields of the header, padded to 32 leaves. -/
def executionPayloadLeaves (b : Build) (exec : ExecutionPayloadHeaderJson) :
    Outcome (Leaves 32) := do
  let before ← leavesBeforeHash b exec
  let blockHash ← parseBytes32 b exec.blockHash
  let after ← leavesAfterHash b exec
  pure
    ⟨before.1 ++ blockHash :: after.1 ++ List.replicate 15 zeroBytes,
      by simp [before.2, after.2]⟩

def sszExecutionPayloadRoot (b : Build) (exec : ExecutionPayloadHeaderJson) :
    Outcome (Bytes32 × Leaves 32) := do
  let leaves ← executionPayloadLeaves b exec
  let root ← merkleRootVec b.sha256 leaves.1
  pure (root, leaves)

section Trees

variable {sha256 : Bytes → Bytes32}

theorem nextLevel_pairs {ι : Type} (f g : ι → Bytes32) (xs : List ι) :
    nextLevel sha256 (xs.flatMap fun i => [f i, g i]) =
      .ok (xs.map fun i => sha256Pair sha256 (f i) (g i)) := by
  induction xs with
  | nil => rfl
  | cons x xs ih =>
    show nextLevel sha256 (f x :: g x :: xs.flatMap fun i => [f i, g i]) = _
    rw [nextLevel, ih]
    rfl

/-- A round of a level loop leads from one row of the tree to the row above it. -/
theorem nextLevel_row (leaf : Nat → Bytes32) (k n : Nat) :
    nextLevel sha256 (treeRow (sha256Pair sha256) leaf k (n + 1)) =
      .ok (treeRow (sha256Pair sha256) leaf (k + 1) n) := by
  rw [treeRow_succ, nextLevel_pairs]
  rfl

variable (sha256) in
theorem rootLoop_row (leaf : Nat → Bytes32) (k n : Nat) {fuel : Nat} (hfuel : n ≤ fuel) :
    rootLoop sha256 fuel (treeRow (sha256Pair sha256) leaf k n) =
      .ok (treeNode (sha256Pair sha256) leaf (k + n) 0) := by
  induction n generalizing k fuel with
  | zero => cases fuel <;> rfl
  | succ n ih =>
    obtain ⟨fuel, rfl⟩ : ∃ m, fuel = m + 1 := ⟨fuel - 1, by omega⟩
    have hlong : 1 < 2 ^ (n + 1) := Nat.one_lt_two_pow (by omega)
    rw [rootLoop, treeRow_length, if_pos hlong, nextLevel_row, ok_bind, ih (k + 1) (by omega),
      Nat.add_right_comm, Nat.add_assoc]

/-- The root of a vector of `2^n` leaves is the root of the tree over them. -/
theorem merkleRootVec_eq {level : List Bytes32} {n : Nat} (h : level.length = 2 ^ n) :
    merkleRootVec sha256 level =
      .ok (treeNode (sha256Pair sha256) (fun i => level.getD i zeroBytes) n 0) := by
  have hrow := list_eq_treeRow (sha256Pair sha256) zeroBytes h
  have hpos : 0 < 2 ^ n := Nat.two_pow_pos n
  have hne : level ≠ [] := List.ne_nil_of_length_pos (h ▸ hpos)
  have hfuel : n ≤ level.length := h ▸ Nat.le_of_lt Nat.lt_two_pow_self
  have hloop := rootLoop_row sha256 (fun i => level.getD i zeroBytes) 0 n hfuel
  rw [← hrow, Nat.zero_add] at hloop
  rw [merkleRootVec, ensure_true ⟨hne, n, h⟩, ok_bind, hloop]

theorem xor_one (i : Nat) : i ^^^ 1 = if i % 2 = 0 then i + 1 else i - 1 := by
  split
  next h => exact Nat.xor_one_of_even (Nat.even_iff.mpr h)
  next h => exact Nat.xor_one_of_odd (Nat.odd_iff.mpr (by omega))

variable (sha256) in
theorem branchLoop_row (leaf : Nat → Bytes32) (k : Nat) {n i : Nat} (hi : i < 2 ^ n) :
    branchLoop sha256 n (treeRow (sha256Pair sha256) leaf k n) i =
      .ok ⟨siblingsFrom (sha256Pair sha256) leaf k i n, siblingsFrom_length leaf k i n⟩ := by
  induction n generalizing k i with
  | zero => rfl
  | succ n ih =>
    have hsibling : i ^^^ 1 < 2 ^ (n + 1) := by
      have heven : 2 ^ (n + 1) = 2 * 2 ^ n := pow_succ' 2 n
      rw [xor_one]
      split <;> omega
    have hhalf : i / 2 < 2 ^ n := by
      have heven : 2 ^ (n + 1) = 2 * 2 ^ n := pow_succ' 2 n
      omega
    rw [branchLoop, treeRow_getElem? leaf hsibling, xor_one]
    show (nextLevel sha256 _ >>= fun _ => _) = _
    rw [nextLevel_row, ok_bind, ih (k + 1) hhalf, ok_bind]
    rfl

theorem merkleBranch32_eq {leaves : Leaves 32} {i : Nat} (hi : i < 32) :
    merkleBranch32 sha256 leaves i =
      .ok ⟨siblingsFrom (sha256Pair sha256) (fun j => leaves.1.getD j zeroBytes) 0 i 5,
        siblingsFrom_length _ 0 i 5⟩ := by
  have hlen : leaves.1.length = 2 ^ 5 := leaves.2
  have hrow := list_eq_treeRow (sha256Pair sha256) zeroBytes hlen
  have hbranch := branchLoop_row sha256 (fun j => leaves.1.getD j zeroBytes) 0
    (show i < 2 ^ 5 from hi)
  rw [← hrow] at hbranch
  exact hbranch

/-- The branch built for a leaf leads from that leaf to the root built over all of them. -/
theorem merkleBranch32_verifies {leaves : Leaves 32} {branch : Branch 5} {root : Bytes32} {i : Nat}
    (hi : i < 32) (hbranch : merkleBranch32 sha256 leaves i = .ok branch)
    (hroot : merkleRootVec sha256 leaves.1 = .ok root) :
    walk (sha256Pair sha256) i (leaves.1.getD i zeroBytes) branch.1 = root := by
  have hwalk := @walk_siblings _ (sha256Pair sha256) (fun j => leaves.1.getD j zeroBytes) 0 i 5
  have hlen : leaves.1.length = 2 ^ 5 := leaves.2
  have htop : i / 2 ^ 5 = 0 := Nat.div_eq_of_lt hi
  have hbranchEq := Except.ok.inj ((merkleBranch32_eq hi).symm.trans hbranch)
  have hrootEq := Except.ok.inj ((merkleRootVec_eq hlen).symm.trans hroot)
  rw [htop] at hwalk
  rw [← hbranchEq, ← hrootEq]
  exact hwalk

end Trees

theorem executionPayloadLeaves_blockHash {b : Build} {exec : ExecutionPayloadHeaderJson}
    {leaves : Leaves 32} (h : executionPayloadLeaves b exec = .ok leaves) :
    parseBytes32 b exec.blockHash = .ok (leaves.1.getD 12 zeroBytes) := by
  simp only [executionPayloadLeaves, bind_ok, pure_ok] at h
  obtain ⟨before, _, blockHash, hblockHash, after, _, rfl⟩ := h
  have hlen : before.1.length = 12 := before.2
  have hleaf : (before.1 ++ blockHash :: after.1 ++ List.replicate 15 zeroBytes).getD 12 zeroBytes =
      blockHash := by
    rw [List.append_assoc, List.getD_append_right _ _ _ _ (by omega), hlen]
    rfl
  exact hblockHash.trans (congrArg Except.ok hleaf.symm)

end BeaconApi

end ObscuraNetwork
