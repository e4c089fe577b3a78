import ObscuraNetwork.Outcome

namespace ObscuraNetwork

/-- The two functions of `x25519_dalek` that note encryption uses. -/
structure X25519 where
  /-- `PublicKey::from(&sk)` -/
  publicKey : Bytes32 → Bytes32
  /-- `sk.diffie_hellman(&pk)` -/
  diffieHellman : Bytes32 → Bytes32 → Bytes32

namespace X25519

/-- Either of two parties computes the shared secret from the public key of the other. -/
def Commutes (dh : X25519) (sk sk' : Bytes32) : Prop :=
  dh.diffieHellman sk (dh.publicKey sk') = dh.diffieHellman sk' (dh.publicKey sk)

end X25519

namespace Encryption

def encryptionOverhead : Nat := 64

def xorBytes (xs ys : Bytes) : Bytes := List.zipWith (· ^^^ ·) xs ys

section Cipher

variable (sha256 : Bytes → Bytes32)

/-- SHA-256 of "obscura-enc-v1", the shared secret and the ephemeral key. -/
def deriveKey (dhBytes ephPk : Bytes32) : Bytes32 :=
  sha256 ([0x6f, 0x62, 0x73, 0x63, 0x75, 0x72, 0x61, 0x2d, 0x65, 0x6e, 0x63, 0x2d, 0x76, 0x31] ++
    dhBytes.bytes ++ ephPk.bytes)

/-- SHA-256 of "mac", the key and the ciphertext. -/
def computeMac (key : Bytes32) (ciphertext : Bytes) : Bytes32 :=
  sha256 ([0x6d, 0x61, 0x63] ++ key.bytes ++ ciphertext)

/-- The string "ks", the key and the index of a block. -/
def ksMessage (key : Bytes32) (blockIdx : UInt8) : Bytes := [0x6b, 0x73] ++ key.bytes ++ [blockIdx]

def ksBlock (key : Bytes32) (blockIdx : UInt8) : Bytes32 := sha256 (ksMessage key blockIdx)

/-- The loop of `stream_xor` over what remains of the data; each round takes a byte at least, so
the length of the data is fuel enough. The index wraps. -/
def streamLoop (key : Bytes32) : Nat → UInt8 → Bytes → Bytes
  | 0, _, _ => []
  | fuel + 1, blockIdx, rest =>
    if rest = [] then []
    else xorBytes (rest.take 32) (ksBlock sha256 key blockIdx).bytes ++
      streamLoop key fuel (blockIdx + 1) (rest.drop 32)

def streamXor (data : Bytes) (key : Bytes32) : Bytes := streamLoop sha256 key data.length 0 data

variable (dh : X25519)

/-- `encrypt_note` with the ephemeral secret key that it draws. -/
def encryptNote (ephSk : Bytes32) (plaintext : Bytes) (recipientPk : Bytes32) : Bytes :=
  let ephPk := dh.publicKey ephSk
  let key := deriveKey sha256 (dh.diffieHellman ephSk recipientPk) ephPk
  let ciphertext := streamXor sha256 plaintext key
  let mac := computeMac sha256 key ciphertext
  ephPk.bytes ++ mac.bytes ++ ciphertext

def decryptNote (blob : Bytes) (mySk : Bytes32) : Outcome Bytes :=
  if h : blob.length < encryptionOverhead then
    .error (.bail ("Encrypted note too short: " ++ toString blob.length ++ " bytes (min " ++
      toString encryptionOverhead ++ ")"))
  else
    have hlen : 64 ≤ blob.length := Nat.le_of_not_lt h
    let ephPk : Bytes32 := ⟨blob.take 32, by rw [List.length_take]; omega⟩
    let expectedMac : Bytes32 :=
      ⟨(blob.drop 32).take 32, by rw [List.length_take, List.length_drop]; omega⟩
    let ciphertext := blob.drop 64
    let key := deriveKey sha256 (dh.diffieHellman mySk ephPk) ephPk
    let actualMac := computeMac sha256 key ciphertext
    if actualMac ≠ expectedMac then
      .error (.bail "Note decryption failed: MAC mismatch (wrong key or tampered data)")
    else pure (streamXor sha256 ciphertext key)

/-- The key a blob is made with, and the one that the holder of a secret key derives for it. -/
def blobKey (ephSk recipientPk : Bytes32) : Bytes32 :=
  deriveKey sha256 (dh.diffieHellman ephSk recipientPk) (dh.publicKey ephSk)

def readerKey (ephSk mySk : Bytes32) : Bytes32 :=
  deriveKey sha256 (dh.diffieHellman mySk (dh.publicKey ephSk)) (dh.publicKey ephSk)

/-- The MAC of a blob does not verify under a reader's key other than the one it was made with. -/
def MacBinds (ephSk recipientPk mySk : Bytes32) (plaintext : Bytes) : Prop :=
  let ciphertext := streamXor sha256 plaintext (blobKey sha256 dh ephSk recipientPk)
  computeMac sha256 (readerKey sha256 dh ephSk mySk) ciphertext =
      computeMac sha256 (blobKey sha256 dh ephSk recipientPk) ciphertext →
    readerKey sha256 dh ephSk mySk = blobKey sha256 dh ephSk recipientPk

end Cipher

section Stream

variable {sha256 : Bytes → Bytes32} {key : Bytes32}

/-- The keystream byte at a place behind the start of a block. -/
def ksByte (sha256 : Bytes → Bytes32) (key : Bytes32) (blockIdx : UInt8) (i : Nat) : UInt8 :=
  (ksBlock sha256 key (blockIdx + UInt8.ofNat (i / 32))).bytes.getD (i % 32) 0

theorem xorBytes_eq_mapIdx {xs ys : Bytes} (h : xs.length ≤ ys.length) :
    xorBytes xs ys = xs.mapIdx fun i x => x ^^^ ys.getD i 0 := by
  have hlen : (xorBytes xs ys).length = xs.length := by
    rw [xorBytes, List.length_zipWith, Nat.min_eq_left h]
  refine List.ext_getElem (by rw [hlen, List.length_mapIdx]) fun i hi _ => ?_
  have hi' : i < ys.length := by omega
  simp [xorBytes, List.getElem?_eq_getElem hi']

theorem ksByte_next (blockIdx : UInt8) (i : Nat) :
    ksByte sha256 key blockIdx (i + 32) = ksByte sha256 key (blockIdx + 1) i := by
  have hblock : (i + 32) / 32 = 1 + i / 32 := by omega
  have hplace : (i + 32) % 32 = i % 32 := by omega
  rw [ksByte, ksByte, hblock, hplace, UInt8.ofNat_add, UInt8.add_assoc]
  rfl

/-- Byte by byte the loop adds the keystream. -/
theorem streamLoop_eq {fuel : Nat} {blockIdx : UInt8} {data : Bytes} (hfuel : data.length ≤ fuel) :
    streamLoop sha256 key fuel blockIdx data =
      data.mapIdx fun i x => x ^^^ ksByte sha256 key blockIdx i := by
  induction fuel generalizing blockIdx data with
  | zero =>
    obtain rfl : data = [] := List.length_eq_zero_iff.mp (by omega)
    rfl
  | succ fuel ih =>
    rw [streamLoop]
    split
    next hempty =>
      rw [hempty]
      rfl
    next hne =>
      have hpos := List.length_pos_iff.mpr hne
      have hrest : (data.drop 32).length ≤ fuel := by
        rw [List.length_drop]
        omega
      have hfirst : (data.take 32).length ≤ (ksBlock sha256 key blockIdx).bytes.length := by
        rw [List.length_take, FixedBytes.length_bytes]
        omega
      have hhead : xorBytes (data.take 32) (ksBlock sha256 key blockIdx).bytes =
          (data.take 32).mapIdx fun i x => x ^^^ ksByte sha256 key blockIdx i := by
        rw [xorBytes_eq_mapIdx hfirst]
        refine List.mapIdx_eq_mapIdx_iff.mpr fun i hi => ?_
        have hlow : i < 32 := by
          rw [List.length_take] at hi
          omega
        rw [ksByte, Nat.div_eq_of_lt hlow, Nat.mod_eq_of_lt hlow]
        simp
      rw [hhead, ih hrest]
      conv_rhs => rw [← List.take_append_drop 32 data, List.mapIdx_append]
      congr 1
      refine List.mapIdx_eq_mapIdx_iff.mpr fun i hi => ?_
      have hfull : (data.take 32).length = 32 := by
        rw [List.length_drop] at hi
        rw [List.length_take]
        omega
      rw [hfull, ksByte_next]

theorem streamXor_eq (data : Bytes) :
    streamXor sha256 data key = data.mapIdx fun i x => x ^^^ ksByte sha256 key 0 i :=
  streamLoop_eq (Nat.le_refl _)

theorem length_streamXor (data : Bytes) : (streamXor sha256 data key).length = data.length := by
  rw [streamXor_eq, List.length_mapIdx]

/-- The keystream is taken off again by adding it once more. -/
theorem streamXor_streamXor (data : Bytes) :
    streamXor sha256 (streamXor sha256 data key) key = data := by
  rw [streamXor_eq, streamXor_eq, List.mapIdx_mapIdx]
  refine List.ext_getElem List.length_mapIdx fun i hi _ => ?_
  rw [List.getElem_mapIdx, Function.comp_apply, UInt8.xor_assoc, UInt8.xor_self, UInt8.xor_zero]

end Stream

section RoundTrip

variable {sha256 : Bytes → Bytes32} {dh : X25519}

theorem decryptNote_parts (ephPk mac mySk : Bytes32) (ciphertext : Bytes) :
    decryptNote sha256 dh (ephPk.bytes ++ mac.bytes ++ ciphertext) mySk =
      let key := deriveKey sha256 (dh.diffieHellman mySk ephPk) ephPk
      if computeMac sha256 key ciphertext ≠ mac then
        .error (.bail "Note decryption failed: MAC mismatch (wrong key or tampered data)")
      else pure (streamXor sha256 ciphertext key) := by
  have hboth : (ephPk.bytes ++ mac.bytes).length = 64 := by
    rw [List.length_append, ephPk.size, mac.size]
  have hlong : ¬(ephPk.bytes ++ mac.bytes ++ ciphertext).length < encryptionOverhead := by
    rw [List.length_append, hboth]
    show ¬64 + ciphertext.length < 64
    omega
  have hephPk : (ephPk.bytes ++ mac.bytes ++ ciphertext).take 32 = ephPk.bytes := by
    rw [List.append_assoc, List.take_left' ephPk.size]
  have hmac : ((ephPk.bytes ++ mac.bytes ++ ciphertext).drop 32).take 32 = mac.bytes := by
    rw [List.append_assoc, List.drop_left' ephPk.size, List.take_left' mac.size]
  have hciphertext : (ephPk.bytes ++ mac.bytes ++ ciphertext).drop 64 = ciphertext :=
    List.drop_left' hboth
  rw [decryptNote, dif_neg hlong]
  simp only [hephPk, hmac, hciphertext]

/-- Under another key than its own a blob is refused: its MAC does not verify there. -/
theorem decrypt_other {ephSk recipientPk mySk : Bytes32} {plaintext : Bytes}
    (hmac : MacBinds sha256 dh ephSk recipientPk mySk plaintext) :
    Refused (decryptNote sha256 dh (encryptNote sha256 dh ephSk plaintext recipientPk) mySk) ∨
      decryptNote sha256 dh (encryptNote sha256 dh ephSk plaintext recipientPk) mySk =
        .ok plaintext := by
  simp only [encryptNote, decryptNote_parts]
  split
  next => exact Or.inl ⟨_, rfl⟩
  next hverifies =>
    have hkey : readerKey sha256 dh ephSk mySk = blobKey sha256 dh ephSk recipientPk :=
      hmac (not_not.mp hverifies)
    have hplain :
        streamXor sha256 (streamXor sha256 plaintext (blobKey sha256 dh ephSk recipientPk))
          (readerKey sha256 dh ephSk mySk) = plaintext := by
      rw [hkey, streamXor_streamXor]
    exact Or.inr (congrArg Except.ok hplain)

/-- The holder of the secret key reads what was encrypted for its public key. -/
theorem decrypt_own {ephSk mySk : Bytes32} (h : dh.Commutes ephSk mySk) (plaintext : Bytes) :
    decryptNote sha256 dh (encryptNote sha256 dh ephSk plaintext (dh.publicKey mySk)) mySk =
      .ok plaintext := by
  simp only [encryptNote, decryptNote_parts, ← show dh.diffieHellman ephSk (dh.publicKey mySk) =
    dh.diffieHellman mySk (dh.publicKey ephSk) from h]
  rw [if_neg (not_not.mpr rfl), streamXor_streamXor]
  rfl

end RoundTrip

end Encryption

end ObscuraNetwork
