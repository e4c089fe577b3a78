import ObscuraNetwork.PrivacyTypes
import ObscuraNetwork.MerkleRoots
import ObscuraNetwork.Build
import Mathlib.Algebra.BigOperators.Group.List.Basic

namespace ObscuraNetwork

structure NoteData where
  amount : UInt64
  assetId : Bytes32
  ownerPubkey : Bytes
  salt : Bytes32
  deriving DecidableEq

structure TransferWitness where
  spendingKeys : List Bytes32
  inputs : List NoteData
  outputs : List NoteData
  merkleRoot : Bytes32
  leafIndices : List UInt64
  merklePaths : List (List Bytes32)
  deriving DecidableEq

structure UnshieldWitness where
  spendingKey : Bytes32
  note : NoteData
  deriving DecidableEq

structure TransferPublicOutputs where
  nullifiers : List Bytes32
  outputCommitments : List Bytes32
  transferAmount : UInt64
  assetId : Bytes32
  merkleRoot : Bytes32
  deriving DecidableEq

structure UnshieldPublicOutputs where
  nullifier : Bytes32
  amount : UInt64
  assetId : Bytes32
  deriving DecidableEq

def NoteData.message (note : NoteData) : Bytes :=
  noteMessage note.amount note.assetId note.ownerPubkey note.salt

section Circuits

variable (sha256 : Bytes → Bytes32)

def hashNote (note : NoteData) : Bytes32 := sha256 note.message

def hashNullifier (spendingKey commitment : Bytes32) : Bytes32 :=
  sha256 (nullifierMessage spendingKey commitment)

/-- `verify_merkle_inclusion`: the path is walked whatever its length. -/
def verifyMerkleInclusion (leaf : Bytes32) (leafIndex : UInt64) (siblings : List Bytes32)
    (root : Bytes32) : Bool := decide (foldSiblings sha256 leaf leafIndex siblings = root)

/-- The fold of `checked_add` over the amounts; `overflow` is the text of its `expect`. -/
def checkedSum (overflow : String) : UInt64 → List NoteData → Outcome UInt64
  | acc, [] => pure acc
  | acc, note :: rest =>
    if acc.toNat + note.amount.toNat < 2 ^ 64 then checkedSum overflow (acc + note.amount) rest
    else .error (.panic overflow)

/-- `main` of the transfer circuit: the committed outputs, or the text of the failed assertion. -/
def transferMain (witness : TransferWitness) : Outcome TransferPublicOutputs :=
  match witness.inputs.head? with
  | none => .error (.panic "must have at least one input")
  | some first => do
    ensure (witness.outputs ≠ []) (.panic "must have at least one output")
    ensure (witness.inputs.length = witness.spendingKeys.length)
      (.panic "spending key count must match input count")
    let assetId := first.assetId
    ensureAll (fun note => note.assetId = assetId)
      (fun _ => .panic "all inputs must have same asset") witness.inputs
    ensureAll (fun note => note.assetId = assetId)
      (fun _ => .panic "all outputs must have same asset") witness.outputs
    let inputSum ← checkedSum "input overflow" 0 witness.inputs
    let outputSum ← checkedSum "output overflow" 0 witness.outputs
    ensure (inputSum = outputSum) (.panic "input sum must equal output sum")
    ensure (witness.leafIndices.length = witness.inputs.length)
      (.panic "leaf_indices count must match input count")
    ensure (witness.merklePaths.length = witness.inputs.length)
      (.panic "merkle_paths count must match input count")
    ensureAll
      (fun entry => verifyMerkleInclusion sha256 (hashNote sha256 entry.1.1) entry.1.2 entry.2
        witness.merkleRoot = true)
      (fun entry => .panic ("Merkle inclusion proof failed for input at index " ++
        toString entry.1.2.toNat))
      ((witness.inputs.zip witness.leafIndices).zip witness.merklePaths)
    ensureAll (fun note => 0 < note.amount) (fun _ => .panic "output amount must be non-zero")
      witness.outputs
    pure
      { nullifiers := (witness.inputs.zip witness.spendingKeys).map fun entry =>
          hashNullifier sha256 entry.2 (hashNote sha256 entry.1)
        outputCommitments := witness.outputs.map (hashNote sha256)
        transferAmount := inputSum
        assetId
        merkleRoot := witness.merkleRoot }

/-- `main` of the unshield circuit. -/
def unshieldMain (witness : UnshieldWitness) : Outcome UnshieldPublicOutputs := do
  ensure (0 < witness.note.amount) (.panic "note amount must be non-zero")
  ensure (witness.note.ownerPubkey.length = 32) (.panic "pubkey must be 32 bytes")
  let commitment := hashNote sha256 witness.note
  let nullifier := hashNullifier sha256 witness.spendingKey commitment
  pure { nullifier, amount := witness.note.amount, assetId := witness.note.assetId }

end Circuits

structure TransferAccepted (sha256 : Bytes → Bytes32) (witness : TransferWitness)
    (out : TransferPublicOutputs) : Prop where
  first : ∃ first, witness.inputs.head? = some first ∧ out.assetId = first.assetId
  outputs : witness.outputs ≠ []
  keys : witness.inputs.length = witness.spendingKeys.length
  inputAssets : ∀ note ∈ witness.inputs, note.assetId = out.assetId
  outputAssets : ∀ note ∈ witness.outputs, note.assetId = out.assetId
  inputSum : checkedSum "input overflow" 0 witness.inputs = .ok out.transferAmount
  outputSum : checkedSum "output overflow" 0 witness.outputs = .ok out.transferAmount
  indices : witness.leafIndices.length = witness.inputs.length
  paths : witness.merklePaths.length = witness.inputs.length
  inclusion : ∀ entry ∈ (witness.inputs.zip witness.leafIndices).zip witness.merklePaths,
    foldSiblings sha256 (hashNote sha256 entry.1.1) entry.1.2 entry.2 = witness.merkleRoot
  positive : ∀ note ∈ witness.outputs, 0 < note.amount
  nullifiers : out.nullifiers = (witness.inputs.zip witness.spendingKeys).map fun entry =>
    hashNullifier sha256 entry.2 (hashNote sha256 entry.1)
  outputCommitments : out.outputCommitments = witness.outputs.map (hashNote sha256)
  merkleRoot : out.merkleRoot = witness.merkleRoot

theorem transferMain_ok {sha256 : Bytes → Bytes32} {witness : TransferWitness}
    {out : TransferPublicOutputs} :
    transferMain sha256 witness = .ok out ↔ TransferAccepted sha256 witness out := by
  unfold transferMain
  cases hf : witness.inputs.head? with
  | none =>
    constructor
    · intro h
      simp at h
    · intro h
      obtain ⟨⟨_, h, _⟩⟩ := h
      simp [hf] at h
  | some first =>
    simp only [bind_ok, ensure_ok, ensureAll_ok, pure_ok, verifyMerkleInclusion, decide_eq_true_eq]
    constructor
    · intro h
      obtain ⟨_, ho, _, hk, _, hia, _, hoa, sum, hi, sum', hs, _, rfl, _, hx, _, hp, _, hm, _, hpos,
        rfl⟩ := h
      exact ⟨⟨first, hf, rfl⟩, ho, hk, hia, hoa, hi, hs, hx, hp, hm, hpos, rfl, rfl, rfl⟩
    · intro h
      obtain ⟨⟨first', hf', ha⟩, ho, hk, hia, hoa, hi, hs, hx, hp, hm, hpos, hn, hc, hr⟩ := h
      cases hf.symm.trans hf'
      refine ⟨(), ho, (), hk, (), ha ▸ hia, (), ha ▸ hoa, _, hi, _, hs, (), rfl, (), hx, (), hp, (),
        hm, (), hpos, ?_⟩
      cases out
      simp_all

theorem checkedSum_ok {overflow : String} {notes : List NoteData} {acc total : UInt64}
    (h : checkedSum overflow acc notes = .ok total) :
    total.toNat = acc.toNat + (notes.map fun note => note.amount.toNat).sum := by
  induction notes generalizing acc with
  | nil =>
    simp only [checkedSum, pure_ok] at h
    simp [h]
  | cons note rest ih =>
    rw [checkedSum] at h
    split at h
    next hlt =>
      rw [ih h, toNat_add_of_lt hlt, List.map_cons, List.sum_cons]
      omega
    next => cases h

/-- Every output is worth at least one unit, so there are at most as many as the amount. -/
theorem TransferAccepted.outputs_le {sha256 : Bytes → Bytes32} {witness : TransferWitness}
    {out : TransferPublicOutputs} (h : TransferAccepted sha256 witness out) :
    witness.outputs.length ≤ out.transferAmount.toNat := by
  have htotal := checkedSum_ok h.outputSum
  have hpos : ∀ x ∈ witness.outputs.map fun note => note.amount.toNat, 1 ≤ x := by
    intro x hx
    obtain ⟨note, hnote, rfl⟩ := List.mem_map.mp hx
    exact UInt64.lt_iff_toNat_lt.mp (h.positive note hnote)
  have hle := List.length_le_sum_of_one_le _ hpos
  rw [List.length_map] at hle
  simp only [UInt64.toNat_zero] at htotal
  omega

theorem unshieldMain_ok {sha256 : Bytes → Bytes32} {witness : UnshieldWitness}
    {out : UnshieldPublicOutputs} :
    unshieldMain sha256 witness = .ok out ↔
      0 < witness.note.amount ∧ witness.note.ownerPubkey.length = 32 ∧
      out = ⟨hashNullifier sha256 witness.spendingKey (hashNote sha256 witness.note),
        witness.note.amount, witness.note.assetId⟩ := by
  simp only [unshieldMain, bind_ok, ensure_ok, pure_ok]
  constructor
  · intro h
    obtain ⟨_, hamount, _, hkey, rfl⟩ := h
    exact ⟨hamount, hkey, rfl⟩
  · intro h
    obtain ⟨hamount, hkey, rfl⟩ := h
    exact ⟨(), hamount, (), hkey, rfl⟩

end ObscuraNetwork
