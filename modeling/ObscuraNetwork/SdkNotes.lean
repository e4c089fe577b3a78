import ObscuraNetwork.ComplianceProof
import ObscuraNetwork.HonestTransfer
import ObscuraNetwork.SdkText

namespace ObscuraNetwork

namespace Sdk

open Compliance (bigintToBytes encodeText)

structure Note where
  amount : Int
  assetId : Bytes
  ownerPubkey : Bytes
  salt : Bytes

structure NoteSecret where
  spendingKey : Bytes

structure ShieldedNote where
  note : Note
  secret : NoteSecret
  commitment : String
  nullifier : String

structure PublicInputsJson where
  transferAmount : String
  assetId : String
  merkleRoot : String

/-- The call that `transfer` submits. -/
structure TransferCall where
  proof : Bytes
  publicInputs : PublicInputsJson
  nullifiers : List String
  outputCommitments : List String

section Crypto

variable (sha256 : Bytes → Bytes32)

def computeCommitment (note : Note) : Bytes32 :=
  sha256 (bigintToBytes note.amount ++ note.assetId ++ note.ownerPubkey ++ note.salt)

def computeNullifier (secret : NoteSecret) (note : Note) : Bytes32 :=
  sha256 (secret.spendingKey ++ (computeCommitment sha256 note).bytes)

/-- The owner key of a note is the hash of the key that spends it. -/
def ownerKey (spendingKey : Bytes32) : Bytes := (sha256 spendingKey.bytes).bytes

/-- `generateNote`, with the salt and the key that it draws. -/
def generateNote (amount : Int) (assetId : String) (salt spendingKey : Bytes32) : ShieldedNote :=
  let note : Note := ⟨amount, fromHex assetId, ownerKey sha256 spendingKey, salt.bytes⟩
  let secret : NoteSecret := ⟨spendingKey.bytes⟩
  { note, secret
    commitment := toHex (computeCommitment sha256 note).bytes
    nullifier := toHex (computeNullifier sha256 secret note).bytes }

/-- `buildTransferProof`: a mock proof over the texts of the notes. -/
def buildTransferProof (inputs outputs : List ShieldedNote) (merkleRoot : Bytes) : Bytes :=
  let inputSum := inputs.foldl (fun s n => s + n.note.amount) 0
  let parts := encodeText "obscura-transfer-v1" ++ merkleRoot ++ bigintToBytes inputSum ++
    (inputs.flatMap fun input => fromHex input.commitment ++ fromHex input.nullifier) ++
    outputs.flatMap fun output => fromHex output.commitment
  encodeText "OBSv" ++ (sha256 parts).bytes

/-- `ObscuraClient.transfer` up to the submission. The outputs are notes of its own, whatever public
keys it was asked to pay; `draw` is what it draws for each. -/
def transfer (inputNotes : List ShieldedNote) (outputAmounts : List Int)
    (draw : Nat → Bytes32 × Bytes32) : Except String (TransferCall × List ShieldedNote) :=
  match inputNotes with
  | [] => .error "No input notes"
  | first :: _ =>
    if outputAmounts = [] then .error "No output amounts"
    else
      let inputSum := inputNotes.foldl (fun s n => s + n.note.amount) 0
      let outputSum := outputAmounts.foldl (fun s a => s + a) 0
      if inputSum ≠ outputSum then
        .error ("Input sum (" ++ toString inputSum ++ ") !== output sum (" ++ toString outputSum ++
          ")")
      else
        let assetId := toHex first.note.assetId
        let outputNotes := outputAmounts.zipIdx.map fun (amount, i) =>
          generateNote sha256 amount assetId (draw i).1 (draw i).2
        let mockRoot : Bytes := List.replicate 32 0
        .ok
          ({ proof := buildTransferProof sha256 inputNotes outputNotes mockRoot
             publicInputs := ⟨toString inputSum, assetId, toHex mockRoot⟩
             nullifiers := inputNotes.map ShieldedNote.nullifier
             outputCommitments := outputNotes.map ShieldedNote.commitment }, outputNotes)

end Crypto

/-- The module's note has the values of the SDK's. -/
structure Carries (n : Note) (note : ObscuraNetwork.Note) : Prop where
  amount : (note.amount.toNat : Int) = n.amount
  assetId : note.assetId.id.bytes = n.assetId
  ownerPubkey : note.ownerPubkey = n.ownerPubkey
  salt : note.salt.bytes = n.salt

/-- The wallet's record of a note: its two texts are those of the note and its key, and the key is
the one that the owner key was derived from. -/
structure Holds (sha256 : Bytes → Bytes32) (n : ShieldedNote) (note : ObscuraNetwork.Note)
    (spendingKey : Bytes32) : Prop where
  carries : Carries n.note note
  key : n.secret.spendingKey = spendingKey.bytes
  owner : note.ownerPubkey = ownerKey sha256 spendingKey
  commitment : n.commitment = toHex (hashNote sha256 note.toData).bytes
  nullifier : n.nullifier =
    toHex (hashNullifier sha256 spendingKey (hashNote sha256 note.toData)).bytes

section Agreement

variable {sha256 : Bytes → Bytes32}

theorem lowBytes_natCast (k m : Nat) :
    Compliance.lowBytes k m = (List.range k).map fun i => UInt8.ofNat (m / 256 ^ i) := by
  induction k generalizing m with
  | zero => rfl
  | succ k ih =>
    have hbyte : UInt8.ofNat ((m : Int) % 256).toNat = UInt8.ofNat m := by
      apply UInt8.toNat_inj.mp
      rw [UInt8.toNat_ofNat', UInt8.toNat_ofNat']
      omega
    have hrest : (m : Int) / 256 = (m / 256 : Nat) := rfl
    have hpow : ∀ i, m / 256 / 256 ^ i = m / 256 ^ (i + 1) := by
      intro i
      rw [Nat.div_div_eq_div_mul, ← Nat.pow_succ']
    rw [Compliance.lowBytes, hbyte, hrest, ih, List.range_succ_eq_map, List.map_cons, List.map_map,
      pow_zero, Nat.div_one]
    simp only [hpow]
    rfl

/-- An amount that a `u64` holds is written as the module writes it. -/
theorem bigintToBytes_eq {n : Int} {x : UInt64} (h : (x.toNat : Int) = n) :
    bigintToBytes n = toLeBytes x := by
  rw [← h]
  exact lowBytes_natCast 8 x.toNat

theorem computeCommitment_eq {n : Note} {note : ObscuraNetwork.Note} (h : Carries n note) :
    computeCommitment sha256 n = hashNote sha256 note.toData := by
  unfold computeCommitment hashNote NoteData.message noteMessage
  rw [bigintToBytes_eq h.amount, ← h.assetId, ← h.ownerPubkey, ← h.salt]
  rfl

/-- What `generateNote` returns is a record of the note with these values. -/
theorem generateNote_holds {amount : Int} {assetId : String} {asset salt spendingKey : Bytes32}
    {value : UInt64} (hamount : (value.toNat : Int) = amount)
    (hasset : fromHex assetId = asset.bytes) :
    Holds sha256 (generateNote sha256 amount assetId salt spendingKey)
      ⟨value, ⟨asset⟩, ownerKey sha256 spendingKey, salt⟩ spendingKey := by
  have hcarries : Carries (generateNote sha256 amount assetId salt spendingKey).note
      ⟨value, ⟨asset⟩, ownerKey sha256 spendingKey, salt⟩ := ⟨hamount, hasset.symm, rfl, rfl⟩
  have hcommitment : computeCommitment sha256 (generateNote sha256 amount assetId salt
      spendingKey).note = _ := computeCommitment_eq hcarries
  refine ⟨hcarries, rfl, rfl, ?_, ?_⟩
  · rw [← hcommitment]
    rfl
  · rw [← hcommitment]
    rfl

/-- The texts of a record are read as the commitment and the nullifier of the note. -/
theorem Holds.texts {b : Build} {n : ShieldedNote} {note : ObscuraNetwork.Note}
    {spendingKey : Bytes32} (h : Holds b.sha256 n note spendingKey) :
    Commitment.fromStr b n.commitment = .ok ⟨hashNote b.sha256 note.toData⟩ ∧
      Nullifier.fromStr b n.nullifier =
        .ok ⟨hashNullifier b.sha256 spendingKey (hashNote b.sha256 note.toData)⟩ := by
  rw [Commitment.fromStr, Nullifier.fromStr, h.commitment, h.nullifier, hashFromStr_toHex,
    hashFromStr_toHex]
  exact ⟨rfl, rfl⟩

theorem Holds.length_owner {n : ShieldedNote} {note : ObscuraNetwork.Note} {spendingKey : Bytes32}
    (h : Holds sha256 n note spendingKey) : note.ownerPubkey.length = 32 := by
  rw [h.owner]
  exact FixedBytes.length_bytes _

end Agreement

/-- The texts that the SDK keeps for a note it has generated are the module's commitment of the note
and its nullifier under the kept key, which is what the circuit commits when the note is spent. -/
theorem sdk_note_agrees (b : Build) {amount : Int} {assetId : String} {value : UInt64}
    {asset : Bytes32} (salt spendingKey : Bytes32) (hamount : (value.toNat : Int) = amount)
    (hpositive : 0 < amount)
    (hasset : assetId.toList.map Char.toLower = asset.bytes.flatMap hexPair) :
    let n := generateNote b.sha256 amount assetId salt spendingKey
    let note : ObscuraNetwork.Note := ⟨value, ⟨asset⟩, ownerKey b.sha256 spendingKey, salt⟩
    ∃ commitment, Commitment.fromNote b.sha256 note = .ok commitment ∧
      Commitment.fromStr b n.commitment = .ok commitment ∧
      Nullifier.fromStr b n.nullifier = .ok (Nullifier.compute b.sha256 spendingKey commitment) ∧
      unshieldMain b.sha256 ⟨spendingKey, note.toData⟩ =
        .ok ⟨(Nullifier.compute b.sha256 spendingKey commitment).hash, value, asset⟩ := by
  intro n note
  have hholds : Holds b.sha256 n note spendingKey :=
    generateNote_holds hamount (fromHex_spells hasset).1
  obtain ⟨hcommitment, hnullifier⟩ := hholds.texts
  have hvalue : 0 < value := by
    rw [UInt64.lt_iff_toNat_lt, UInt64.toNat_zero]
    omega
  exact ⟨_, Commitment.fromNote_ok.mpr
      ⟨UInt64.pos_iff_ne_zero.mp hvalue, hholds.length_owner, rfl⟩,
    hcommitment, hnullifier, unshieldMain_ok.mpr ⟨hvalue, hholds.length_owner, rfl⟩⟩

theorem sdk_note_agrees_unit :
    ∃ commitment,
      Commitment.fromStr .default
        (generateNote sha256 1 (toHex zeroBytes.bytes) zeroBytes zeroBytes).commitment =
        .ok commitment ∧
      unshieldMain sha256 ⟨zeroBytes, (⟨1, ⟨zeroBytes⟩, ownerKey sha256 zeroBytes, zeroBytes⟩ :
        ObscuraNetwork.Note).toData⟩ =
        .ok ⟨(Nullifier.compute sha256 zeroBytes commitment).hash, 1, zeroBytes⟩ := by
  obtain ⟨commitment, _, htext, _, hspent⟩ := sdk_note_agrees .default zeroBytes zeroBytes
    (show ((1 : UInt64).toNat : Int) = 1 from rfl) (by decide) (toHex_lower zeroBytes.bytes)
  exact ⟨commitment, htext, hspent⟩

end Sdk

end ObscuraNetwork
