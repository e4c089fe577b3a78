import ObscuraNetwork.Outcome

namespace ObscuraNetwork

structure Commitment where
  hash : Bytes32
  deriving DecidableEq

structure Nullifier where
  hash : Bytes32
  deriving DecidableEq

structure AssetId where
  id : Bytes32
  deriving DecidableEq

structure Note where
  amount : UInt64
  assetId : AssetId
  ownerPubkey : Bytes
  salt : Bytes32
  deriving DecidableEq

/-- The bytes under a note's commitment: amount, asset, owner key and salt. -/
def noteMessage (amount : UInt64) (assetId : Bytes32) (ownerPubkey : Bytes) (salt : Bytes32) :
    Bytes :=
  toLeBytes amount ++ assetId.bytes ++ ownerPubkey ++ salt.bytes

theorem length_noteMessage (amount : UInt64) (assetId : Bytes32) (ownerPubkey : Bytes)
    (salt : Bytes32) :
    (noteMessage amount assetId ownerPubkey salt).length = 72 + ownerPubkey.length := by
  simp [noteMessage]
  omega

theorem noteMessage_inj {amount amount' : UInt64} {assetId assetId' salt salt' : Bytes32}
    {ownerPubkey ownerPubkey' : Bytes} (hlen : ownerPubkey.length = ownerPubkey'.length)
    (h : noteMessage amount assetId ownerPubkey salt =
      noteMessage amount' assetId' ownerPubkey' salt') :
    amount = amount' ∧ assetId = assetId' ∧ ownerPubkey = ownerPubkey' ∧ salt = salt' := by
  simp only [noteMessage, List.append_assoc] at h
  obtain ⟨hamount, h⟩ := List.append_inj h (by simp)
  obtain ⟨hasset, h⟩ := bytes_append_inj h
  obtain ⟨howner, hsalt⟩ := List.append_inj h hlen
  exact ⟨toLeBytes_injective hamount, hasset, howner, FixedBytes.ext_bytes hsalt⟩

/-- `Commitment::from_note`. -/
def Commitment.fromNote (sha256 : Bytes → Bytes32) (note : Note) : Outcome Commitment := do
  ensure (note.amount ≠ 0) (.bail "Note amount must be non-zero")
  ensure (note.ownerPubkey.length = 32) (.bail "Owner pubkey must be 32 bytes")
  pure ⟨sha256 (noteMessage note.amount note.assetId.id note.ownerPubkey note.salt)⟩

theorem Commitment.fromNote_ok {sha256 : Bytes → Bytes32} {note : Note} {commitment : Commitment} :
    fromNote sha256 note = .ok commitment ↔
      note.amount ≠ 0 ∧ note.ownerPubkey.length = 32 ∧
      commitment =
        ⟨sha256 (noteMessage note.amount note.assetId.id note.ownerPubkey note.salt)⟩ := by
  simp only [fromNote, bind_ok, ensure_ok, pure_ok]
  constructor
  · intro h
    obtain ⟨_, hamount, _, hkey, rfl⟩ := h
    exact ⟨hamount, hkey, rfl⟩
  · intro h
    obtain ⟨hamount, hkey, rfl⟩ := h
    exact ⟨(), hamount, (), hkey, rfl⟩

theorem Commitment.fromNote_noPanic (sha256 : Bytes → Bytes32) (note : Note) :
    NoPanic (fromNote sha256 note) :=
  (noPanic_ensure _ _).bind fun _ _ => (noPanic_ensure _ _).bind fun _ _ => noPanic_ok _

/-- The bytes under a nullifier: spending key and commitment. -/
def nullifierMessage (spendingKey commitment : Bytes32) : Bytes :=
  spendingKey.bytes ++ commitment.bytes

theorem nullifierMessage_inj {k c k' c' : Bytes32}
    (h : nullifierMessage k c = nullifierMessage k' c') : k = k' ∧ c = c' := by
  obtain ⟨hk, hc⟩ := bytes_append_inj h
  exact ⟨hk, FixedBytes.ext_bytes hc⟩

def Nullifier.compute (sha256 : Bytes → Bytes32) (spendingKey : Bytes32) (commitment : Commitment) :
    Nullifier := ⟨sha256 (nullifierMessage spendingKey commitment.hash)⟩

end ObscuraNetwork
