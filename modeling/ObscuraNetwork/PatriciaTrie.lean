import ObscuraNetwork.MptBinding

namespace ObscuraNetwork

/-- A Merkle-Patricia trie over keys of nibbles. An empty branch value is no value. -/
inductive Trie where
  | empty
  | leaf (path : List UInt8) (value : Bytes)
  | extension (path : List UInt8) (child : Trie)
  | branch (children : Fin 16 → Trie) (value : Bytes)

namespace Trie

/-- A trie over keys of `n` nibbles, whatever the number of entries of its branches. -/
inductive WellFormed : Nat → Trie → Prop
  | empty (n : Nat) : WellFormed n .empty
  | leaf {n : Nat} {path : List UInt8} (value : Bytes) (hlen : path.length = n)
      (hpath : ∀ x ∈ path, x.toNat < 16) : WellFormed n (.leaf path value)
  | extension {n : Nat} {path : List UInt8} {children : Fin 16 → Trie} {value : Bytes}
      (hne : path ≠ []) (hpath : ∀ x ∈ path, x.toNat < 16)
      (hchild : WellFormed n (.branch children value)) :
      WellFormed (path.length + n) (.extension path (.branch children value))
  | branch {n : Nat} {children : Fin 16 → Trie} (value : Bytes)
      (hchildren : ∀ i, WellFormed n (children i)) : WellFormed (n + 1) (.branch children value)
  | branchEnd (value : Bytes) : WellFormed 0 (.branch (fun _ => .empty) value)

def lookup : Trie → List UInt8 → Option Bytes
  | .empty, _ => none
  | .leaf path value, key => if key = path then some value else none
  | .extension path child, key =>
    if path <+: key then child.lookup (key.drop path.length) else none
  | .branch _ value, [] => if value = [] then none else some value
  | .branch children _, n :: rest =>
    if h : n.toNat < 16 then (children ⟨n.toNat, h⟩).lookup rest else none

section Encoding

variable (keccak256 : Bytes → Bytes32)

/-- How a parent holds a node: a short one whole, a longer one by its hash. -/
def nodeReference (node : Bytes) : Bytes :=
  if node.length < 32 then node else rlpEncodeBytes (keccak256 node).bytes

def encode : Trie → Bytes
  | .empty => rlpEncodeBytes []
  | .leaf path value => rlpEncodeList [rlpEncodeBytes (hexPrefix true path), rlpEncodeBytes value]
  | .extension path child =>
    rlpEncodeList [rlpEncodeBytes (hexPrefix false path), nodeReference keccak256 child.encode]
  | .branch children value =>
    rlpEncodeList (List.ofFn (fun i => nodeReference keccak256 (children i).encode) ++
      [rlpEncodeBytes value])

def root (t : Trie) : Bytes32 := keccak256 (t.encode keccak256)

/-- A node in a proof: one that its parent holds whole has no entry of its own. -/
def proofEntry (t : Trie) : List Bytes :=
  if (t.encode keccak256).length < 32 then [] else [t.encode keccak256]

/-- The hashed nodes below the root on the way to a key. -/
def proofBelow : Trie → List UInt8 → List Bytes
  | .extension path child, key =>
    if path <+: key then
      child.proofEntry keccak256 ++ child.proofBelow (key.drop path.length)
    else []
  | .branch children _, n :: rest =>
    if h : n.toNat < 16 then
      (children ⟨n.toNat, h⟩).proofEntry keccak256 ++ (children ⟨n.toNat, h⟩).proofBelow rest
    else []
  | _, _ => []

/-- The proof that `eth_getProof` returns for a key: the root and the hashed nodes below it. -/
def proof (t : Trie) (key : List UInt8) : List Bytes :=
  t.encode keccak256 :: t.proofBelow keccak256 key

/-- No node below the root on the way to the key is held whole by its parent. -/
def hashedPath : Trie → List UInt8 → Bool
  | .extension path child, key =>
    if path <+: key then
      decide (32 ≤ (child.encode keccak256).length) && child.hashedPath (key.drop path.length)
    else true
  | .branch children _, n :: rest =>
    if h : n.toNat < 16 then
      decide (32 ≤ ((children ⟨n.toNat, h⟩).encode keccak256).length) &&
        (children ⟨n.toNat, h⟩).hashedPath rest
    else true
  | _, _ => true

/-- What a parent's item reads as: nothing, the node itself, or its hash. -/
def readReference (t : Trie) : Bytes :=
  match t with
  | .empty => []
  | t =>
    if (t.encode keccak256).length < 32 then t.encode keccak256
    else (keccak256 (t.encode keccak256)).bytes

variable {keccak256}

theorem encode_list {t : Trie} (h : t ≠ .empty) :
    ∃ items, t.encode keccak256 = rlpEncodeList items := by
  cases t with
  | empty => exact absurd rfl h
  | leaf path value => exact ⟨_, rfl⟩
  | extension path child => exact ⟨_, rfl⟩
  | branch children value => exact ⟨_, rfl⟩

theorem readReference_of_ne {t : Trie} (h : t ≠ .empty) :
    t.readReference keccak256 =
      if (t.encode keccak256).length < 32 then t.encode keccak256
      else (keccak256 (t.encode keccak256)).bytes := by
  cases t with
  | empty => exact absurd rfl h
  | leaf path value => rfl
  | extension path child => rfl
  | branch children value => rfl

theorem nodeReference_reads (t : Trie) :
    ReadsAs (nodeReference keccak256 (t.encode keccak256)) (t.readReference keccak256) := by
  by_cases hempty : t = .empty
  · subst hempty
    have hlen : ([] : Bytes).length + 9 < 2 ^ 64 := by decide
    exact readsAs_string hlen
  · rw [readReference_of_ne hempty, nodeReference]
    split
    next hshort =>
      obtain ⟨items, hitems⟩ := @encode_list keccak256 t hempty
      rw [hitems] at hshort ⊢
      exact readsAs_list hshort
    next =>
      apply readsAs_string
      rw [(keccak256 (t.encode keccak256)).length_bytes]
      decide

/-- A child that is held whole is no hash; one that is hashed is followed. -/
theorem followHash_reference (t : Trie) (nibblePos : Nat) :
    followHash nibblePos (t.readReference keccak256) =
      if (t.encode keccak256).length < 32 then .reject
      else .follow nibblePos (t.root keccak256) := by
  by_cases hempty : t = .empty
  · subst hempty
    rfl
  · rw [readReference_of_ne hempty, followHash]
    split
    next hshort => rw [dif_neg (by omega)]
    next =>
      rw [dif_pos (FixedBytes.length_bytes _)]
      rfl

end Encoding

end Trie

end ObscuraNetwork
