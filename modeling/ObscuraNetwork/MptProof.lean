import ObscuraNetwork.Rlp

namespace ObscuraNetwork

def byteNibbles (b : UInt8) : List UInt8 := [b >>> 4, b &&& 0x0f]

/-- Decode a hex-prefix path: whether it is a leaf's, and its nibbles. -/
def decodeHp : Bytes → Bool × List UInt8
  | [] => (false, [])
  | first :: rest =>
    let firstNibble := (first >>> 4) &&& 0x0f
    let odd := if firstNibble &&& 1 = 1 then [first &&& 0x0f] else []
    (decide (2 ≤ firstNibble), odd ++ rest.flatMap byteNibbles)

def bytesToNibbles (key : Bytes32) : List UInt8 := key.bytes.flatMap byteNibbles

/-- What a node says about the key: it has no place for it, it ends the search with a value, or the
search goes on at a hash from a later nibble. -/
inductive NodeStep where
  | reject
  | value (bytes : Bytes)
  | follow (nibblePos : Nat) (hash : Bytes32)

/-- The step to the child of a node, which must be a hash. -/
def followHash (nibblePos : Nat) (child : Bytes) : NodeStep :=
  if h : child.length = 32 then .follow nibblePos ⟨child, h⟩ else .reject

def readBranch (nibbles : List UInt8) (nibblePos : Nat) (items : List Bytes) : NodeStep :=
  if nibbles.length ≤ nibblePos then .value (items.getD 16 [])
  else followHash (nibblePos + 1) (items.getD (nibbles.getD nibblePos 0).toNat [])

def readPath (nibbles : List UInt8) (nibblePos : Nat) (encodedPath second : Bytes) : NodeStep :=
  let (isLeaf, path) := decodeHp encodedPath
  if nibbles.length < nibblePos + path.length then .reject
  else if (nibbles.drop nibblePos).take path.length ≠ path then .reject
  else if isLeaf then
    if nibblePos + path.length ≠ nibbles.length then .reject else .value second
  else followHash (nibblePos + path.length) second

/-- The match on the number of items. -/
def readNode (nibbles : List UInt8) (nibblePos : Nat) (items : List Bytes) : NodeStep :=
  if items.length = 17 then readBranch nibbles nibblePos items
  else match items with
    | [encodedPath, second] => readPath nibbles nibblePos encodedPath second
    | _ => .reject

section Verify

variable (keccak256 : Bytes → Bytes32)

/-- The node loop of `verify_mpt_proof`. A node whose hash differs from the expected one is let
through when it has fewer than 32 bytes. -/
def verifyNodes (nibbles : List UInt8) (expectedValue : Bytes) :
    Nat → Bytes32 → List Bytes → Outcome Bool
  | _, _, [] => pure false
  | nibblePos, currentHash, nodeRlp :: proof =>
    if keccak256 nodeRlp ≠ currentHash ∧ 32 ≤ nodeRlp.length then pure false
    else do
      match ← rlpDecodeList nodeRlp with
      | none => pure false
      | some items =>
        match readNode nibbles nibblePos items with
        | .reject => pure false
        | .value bytes => pure (decide (bytes = expectedValue))
        | .follow nibblePos hash => verifyNodes nibbles expectedValue nibblePos hash proof

def verifyMptProof (root key : Bytes32) (proof : List Bytes) (expectedValue : Bytes) :
    Outcome Bool :=
  verifyNodes keccak256 (bytesToNibbles key) expectedValue 0 root proof

end Verify

/-- A node the loop lets through, and what it says. -/
structure NodeRead (keccak256 : Bytes → Bytes32) (nibbles : List UInt8) (nibblePos : Nat)
    (hash : Bytes32) (node : Bytes) (step : NodeStep) : Prop where
  admitted : keccak256 node = hash ∨ node.length < 32
  items : ∃ items, rlpDecodeList node = .ok (some items) ∧ readNode nibbles nibblePos items = step

/-- An accepted search: the nodes it follows and the one that ends it with the value. -/
inductive MptPath (keccak256 : Bytes → Bytes32) (nibbles : List UInt8) (value : Bytes) :
    Nat → Bytes32 → List Bytes → Prop
  | last {nibblePos : Nat} {hash : Bytes32} {node : Bytes} (proof : List Bytes)
      (h : NodeRead keccak256 nibbles nibblePos hash node (.value value)) :
      MptPath keccak256 nibbles value nibblePos hash (node :: proof)
  | next {nibblePos nibblePos' : Nat} {hash hash' : Bytes32} {node : Bytes} {proof : List Bytes}
      (h : NodeRead keccak256 nibbles nibblePos hash node (.follow nibblePos' hash'))
      (rest : MptPath keccak256 nibbles value nibblePos' hash' proof) :
      MptPath keccak256 nibbles value nibblePos hash (node :: proof)

section MptPath

variable {keccak256 : Bytes → Bytes32} {nibbles : List UInt8} {value : Bytes}

theorem verifyNodes_true {nibblePos : Nat} {hash : Bytes32} {proof : List Bytes} :
    verifyNodes keccak256 nibbles value nibblePos hash proof = .ok true ↔
      MptPath keccak256 nibbles value nibblePos hash proof := by
  induction proof generalizing nibblePos hash with
  | nil =>
    constructor
    · intro h
      cases h
    · intro h
      cases h
  | cons node proof ih =>
    rw [verifyNodes]
    constructor
    · intro h
      split at h
      next => cases h
      next hadmitted =>
        have hadmitted' : keccak256 node = hash ∨ node.length < 32 := by
          by_cases heq : keccak256 node = hash
          · exact Or.inl heq
          · exact Or.inr (by by_contra hlen; exact hadmitted ⟨heq, by omega⟩)
        obtain ⟨decoded, hdecoded, h⟩ := bind_ok.mp h
        cases decoded with
        | none => cases h
        | some items =>
          simp only at h
          cases hstep : readNode nibbles nibblePos items with
          | reject =>
            rw [hstep] at h
            cases h
          | value bytes =>
            rw [hstep] at h
            simp only [pure_ok, decide_eq_true_eq] at h
            subst h
            exact .last proof ⟨hadmitted', items, hdecoded, hstep⟩
          | follow nibblePos' hash' =>
            rw [hstep] at h
            exact .next ⟨hadmitted', items, hdecoded, hstep⟩ (ih.mp h)
    · intro h
      have hcheck : ∀ step, NodeRead keccak256 nibbles nibblePos hash node step →
          ¬(keccak256 node ≠ hash ∧ 32 ≤ node.length) := by
        intro step hread hbad
        rcases hread.admitted with heq | hlen
        · exact hbad.1 heq
        · omega
      cases h with
      | last proof hread =>
        rw [if_neg (hcheck _ hread)]
        obtain ⟨items, hdecoded, hstep⟩ := hread.items
        rw [hdecoded, ok_bind]
        simp only [hstep, decide_true]
        rfl
      | next hread rest =>
        rw [if_neg (hcheck _ hread)]
        obtain ⟨items, hdecoded, hstep⟩ := hread.items
        rw [hdecoded, ok_bind]
        simp only [hstep]
        exact ih.mpr rest

theorem verifyMptProof_true {root key : Bytes32} {proof : List Bytes} :
    verifyMptProof keccak256 root key proof value = .ok true ↔
      MptPath keccak256 (bytesToNibbles key) value 0 root proof := verifyNodes_true

end MptPath

end ObscuraNetwork
