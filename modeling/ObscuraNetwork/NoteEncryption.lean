import ObscuraNetwork.Curve25519

namespace ObscuraNetwork

namespace Encryption

structure NoteContent where
  amount : UInt64
  assetId : Bytes32
  salt : Bytes32
  memo : FixedBytes 64
  deriving DecidableEq

namespace NoteContent

def toBytes (content : NoteContent) : Bytes :=
  toLeBytes content.amount ++ content.assetId.bytes ++ content.salt.bytes ++ content.memo.bytes

def fromBytes (data : Bytes) : Outcome NoteContent :=
  if h : data.length < 136 then
    .error (.bail ("NoteContent too short: " ++ toString data.length ++ " bytes (need 136)"))
  else
    have hlen : 136 ≤ data.length := Nat.le_of_not_lt h
    pure
      { amount := UInt64.ofNat (leValue (data.take 8))
        assetId := ⟨(data.drop 8).take 32, by rw [List.length_take, List.length_drop]; omega⟩
        salt := ⟨(data.drop 40).take 32, by rw [List.length_take, List.length_drop]; omega⟩
        memo := ⟨(data.drop 72).take 64, by rw [List.length_take, List.length_drop]; omega⟩ }

end NoteContent

structure EncryptedNote where
  encForRecipient : Bytes
  encForCompliance : Bytes
  deriving DecidableEq

/-- `.ok()` of a result. -/
def toOption {α : Type} : Outcome α → Option α
  | .ok a => some a
  | .error _ => none

namespace EncryptedNote

variable (sha256 : Bytes → Bytes32) (dh : X25519)

/-- `EncryptedNote::create` with the two ephemeral keys that it draws. -/
def create (content : NoteContent) (recipientPk oraclePk ephSk ephSk' : Bytes32) :
    EncryptedNote where
  encForRecipient := encryptNote sha256 dh ephSk content.toBytes recipientPk
  encForCompliance := encryptNote sha256 dh ephSk' content.toBytes oraclePk

def decryptAsRecipient (e : EncryptedNote) (viewingSk : Bytes32) : Outcome NoteContent := do
  let plaintext ← decryptNote sha256 dh e.encForRecipient viewingSk
  NoteContent.fromBytes plaintext

def decryptAsOracle (e : EncryptedNote) (oracleSk : Bytes32) : Outcome NoteContent := do
  let plaintext ← decryptNote sha256 dh e.encForCompliance oracleSk
  NoteContent.fromBytes plaintext

def tryDecrypt (e : EncryptedNote) (viewingSk : Bytes32) : Option NoteContent :=
  ((toOption (decryptNote sha256 dh e.encForRecipient viewingSk)).bind fun p =>
    toOption (NoteContent.fromBytes p)).or
      ((toOption (decryptNote sha256 dh e.encForCompliance viewingSk)).bind fun p =>
        toOption (NoteContent.fromBytes p))

end EncryptedNote

section NoteEncryption

theorem length_toBytes (content : NoteContent) : content.toBytes.length = 136 := by
  simp [NoteContent.toBytes]

/-- A note is read back from its fixed layout. -/
theorem fromBytes_toBytes (content : NoteContent) :
    NoteContent.fromBytes content.toBytes = .ok content := by
  have hlen := length_toBytes content
  have hamountLen : (toLeBytes content.amount).length = 8 := length_toLeBytes _
  have hsaltOff : (toLeBytes content.amount ++ content.assetId.bytes).length = 40 := by
    rw [List.length_append, hamountLen, content.assetId.size]
  have hmemoOff :
      (toLeBytes content.amount ++ content.assetId.bytes ++ content.salt.bytes).length = 72 := by
    rw [List.length_append, hsaltOff, content.salt.size]
  have hamount : content.toBytes.take 8 = toLeBytes content.amount := by
    rw [NoteContent.toBytes, List.append_assoc, List.append_assoc, List.take_left' hamountLen]
  have hassetId : (content.toBytes.drop 8).take 32 = content.assetId.bytes := by
    rw [NoteContent.toBytes, List.append_assoc, List.append_assoc, List.drop_left' hamountLen,
      List.take_left' content.assetId.size]
  have hsalt : (content.toBytes.drop 40).take 32 = content.salt.bytes := by
    rw [NoteContent.toBytes, List.append_assoc, List.drop_left' hsaltOff,
      List.take_left' content.salt.size]
  have hmemo : (content.toBytes.drop 72).take 64 = content.memo.bytes := by
    rw [NoteContent.toBytes, List.drop_left' hmemoOff, List.take_of_length_le (by
      rw [content.memo.size])]
  rw [NoteContent.fromBytes, dif_neg (by omega)]
  simp only [hamount, hassetId, hsalt, hmemo, leValue_toLeBytes, UInt64.ofNat_toNat]
  rfl

theorem parsed_toBytes (content : NoteContent) :
    toOption (NoteContent.fromBytes content.toBytes) = some content := by
  rw [fromBytes_toBytes]
  rfl

variable {sha256 : Bytes → Bytes32} {dh : X25519} {content : NoteContent}
  {viewingSk oracleSk ephSk ephSk' : Bytes32}

/-- Where the other blob of a note cannot be read, the second attempt decides. -/
theorem tryDecrypt_second {e : EncryptedNote} {sk : Bytes32}
    (hfirst : Refused (decryptNote sha256 dh e.encForRecipient sk) ∨
      decryptNote sha256 dh e.encForRecipient sk = .ok content.toBytes)
    (hsecond : decryptNote sha256 dh e.encForCompliance sk = .ok content.toBytes) :
    e.tryDecrypt sha256 dh sk = some content := by
  unfold EncryptedNote.tryDecrypt
  obtain ⟨message, hrefused⟩ | hread := hfirst
  · rw [hrefused, hsecond]
    exact parsed_toBytes content
  · rw [hread]
    show (toOption (NoteContent.fromBytes content.toBytes)).or _ = some content
    rw [parsed_toBytes, Option.some_or]

/-- What is encrypted for a public key is read with its secret key, whole and by either reader. -/
theorem note_encryption_round_trip (hviewing : dh.Commutes ephSk viewingSk)
    (horacle : dh.Commutes ephSk' oracleSk) :
    (∀ plaintext, decryptNote sha256 dh
        (encryptNote sha256 dh ephSk plaintext (dh.publicKey viewingSk)) viewingSk =
      .ok plaintext) ∧
    ∀ content : NoteContent,
      let e := EncryptedNote.create sha256 dh content (dh.publicKey viewingSk)
        (dh.publicKey oracleSk) ephSk ephSk'
      e.decryptAsRecipient sha256 dh viewingSk = .ok content ∧
      e.decryptAsOracle sha256 dh oracleSk = .ok content ∧
      e.tryDecrypt sha256 dh viewingSk = some content ∧
      (MacBinds sha256 dh ephSk (dh.publicKey viewingSk) oracleSk content.toBytes →
        e.tryDecrypt sha256 dh oracleSk = some content) := by
  refine ⟨decrypt_own hviewing, fun content => ?_⟩
  intro e
  have hrecipient : decryptNote sha256 dh e.encForRecipient viewingSk = .ok content.toBytes :=
    decrypt_own hviewing content.toBytes
  have hcompliance : decryptNote sha256 dh e.encForCompliance oracleSk = .ok content.toBytes :=
    decrypt_own horacle content.toBytes
  refine ⟨?_, ?_, ?_, ?_⟩
  · rw [EncryptedNote.decryptAsRecipient, hrecipient, ok_bind, fromBytes_toBytes]
  · rw [EncryptedNote.decryptAsOracle, hcompliance, ok_bind, fromBytes_toBytes]
  · unfold EncryptedNote.tryDecrypt
    rw [hrecipient]
    show (toOption (NoteContent.fromBytes content.toBytes)).or _ = some content
    rw [parsed_toBytes, Option.some_or]
  · intro hmac
    exact tryDecrypt_second (decrypt_other hmac) hcompliance

theorem note_encryption_round_trip_sample :
    let content : NoteContent :=
      { amount := 1000
        assetId := FixedBytes.replicate 32 2
        salt := FixedBytes.replicate 32 3
        memo := FixedBytes.replicate 64 0 }
    (EncryptedNote.create ObscuraNetwork.sha256 Curve25519.dalek content
      (Curve25519.dalek.publicKey (FixedBytes.replicate 32 4))
      (Curve25519.dalek.publicKey (FixedBytes.replicate 32 5))
      (FixedBytes.replicate 32 6) (FixedBytes.replicate 32 7)).tryDecrypt ObscuraNetwork.sha256
        Curve25519.dalek (FixedBytes.replicate 32 5) = some content := by
  intro content
  have hviewing : Curve25519.dalek.Commutes (FixedBytes.replicate 32 6)
      (FixedBytes.replicate 32 4) := by
    rw [X25519.Commutes]
    decide +kernel
  have horacle : Curve25519.dalek.Commutes (FixedBytes.replicate 32 7)
      (FixedBytes.replicate 32 5) := by
    rw [X25519.Commutes]
    decide +kernel
  refine ((note_encryption_round_trip hviewing horacle).2 content).2.2.2 ?_
  intro hverifies
  exact absurd hverifies (by decide +kernel)

end NoteEncryption

end Encryption

end ObscuraNetwork
