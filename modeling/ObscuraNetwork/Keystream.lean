import ObscuraNetwork.CollisionFree
import ObscuraNetwork.NoteCipher
import ObscuraNetwork.Sha256

namespace ObscuraNetwork

namespace Encryption

/-- The number of blocks that a message takes. -/
def blockCount (data : Bytes) : Nat := (data.length + 31) / 32

/-- The keystream blocks of a message in the order of their positions. -/
def streamBlocks (sha256 : Bytes → Bytes32) (key : Bytes32) (data : Bytes) : List Bytes32 :=
  (List.range (blockCount data)).map fun i => ksBlock sha256 key (UInt8.ofNat i)

/-- The bytes of a message at one position. -/
def messageBlock (data : Bytes) (i : Nat) : Bytes := (data.drop (32 * i)).take 32

/-- The keystream blocks at different positions are different, and so no two whole blocks of the
ciphertext give the sum of the two blocks of the plaintext away. -/
structure NoKeystreamReuse (sha256 : Bytes → Bytes32) (key : Bytes32) (data : Bytes) : Prop where
  blocks : (streamBlocks sha256 key data).Pairwise (· ≠ ·)
  ciphertext : ∀ i j, i ≠ j → 32 * (i + 1) ≤ data.length → 32 * (j + 1) ≤ data.length →
    xorBytes (messageBlock (streamXor sha256 data key) i)
        (messageBlock (streamXor sha256 data key) j) ≠
      xorBytes (messageBlock data i) (messageBlock data j)

/-- The strings hashed for the keystream of a message. -/
def KeystreamHashes (key : Bytes32) (data : Bytes) : Set Bytes :=
  {m | ∃ i < blockCount data, m = ksMessage key (UInt8.ofNat i)}

section Keystream

variable {sha256 : Bytes → Bytes32} {key : Bytes32} {data : Bytes}

theorem whole_block_lt {i : Nat} (h : 32 * (i + 1) ≤ data.length) : i < blockCount data := by
  unfold blockCount
  omega

theorem length_messageBlock {i : Nat} (h : 32 * (i + 1) ≤ data.length) :
    (messageBlock data i).length = 32 := by
  rw [messageBlock, List.length_take, List.length_drop]
  omega

/-- Each whole block of the ciphertext is the block of the plaintext and the keystream block at its
position. -/
theorem messageBlock_streamXor {i : Nat} (h : 32 * (i + 1) ≤ data.length) :
    messageBlock (streamXor sha256 data key) i =
      xorBytes (messageBlock data i) (ksBlock sha256 key (UInt8.ofNat i)).bytes := by
  have hlen := length_messageBlock h
  have hlen' : (messageBlock (streamXor sha256 data key) i).length = 32 :=
    length_messageBlock (by rwa [length_streamXor])
  have hblock := (ksBlock sha256 key (UInt8.ofNat i)).size
  have hfits :
      (messageBlock data i).length ≤ (ksBlock sha256 key (UInt8.ofNat i)).bytes.length := by
    omega
  rw [xorBytes_eq_mapIdx hfits]
  refine List.ext_getElem (by rw [List.length_mapIdx, hlen, hlen']) fun k hk _ => ?_
  have hplace : (32 * i + k) / 32 = i := by omega
  have hbyte : (32 * i + k) % 32 = k := by omega
  rw [List.getElem_mapIdx]
  simp only [messageBlock, List.getElem_take, List.getElem_drop, streamXor_eq,
    List.getElem_mapIdx, ksByte, hplace, hbyte, UInt8.zero_add]

/-- The sums of two blocks agree exactly when the keystream blocks do. -/
theorem xor_blocks_iff {xs ys as bs : Bytes} (hx : xs.length = 32) (hy : ys.length = 32)
    (ha : as.length = 32) (hb : bs.length = 32) :
    xorBytes (xorBytes xs as) (xorBytes ys bs) = xorBytes xs ys ↔ as = bs := by
  have hcancel : ∀ x y a b : UInt8, x ^^^ a ^^^ (y ^^^ b) = x ^^^ y ↔ a = b := by
    intro x y a b
    have hswap : x ^^^ a ^^^ (y ^^^ b) = x ^^^ y ^^^ (a ^^^ b) := by
      rw [UInt8.xor_assoc, UInt8.xor_assoc, ← UInt8.xor_assoc a, UInt8.xor_comm a y,
        UInt8.xor_assoc y]
    rw [hswap]
    constructor
    · intro h
      have hzero : x ^^^ y ^^^ (a ^^^ b) = x ^^^ y ^^^ 0 := by rw [h, UInt8.xor_zero]
      exact UInt8.xor_eq_zero_iff.mp ((UInt8.xor_right_inj _).mp hzero)
    · intro h
      rw [h, UInt8.xor_self, UInt8.xor_zero]
  constructor
  · intro h
    refine List.ext_getElem (by rw [ha, hb]) fun k hk hk' => ?_
    have hget := congrArg (fun zs : Bytes => zs[k]?) h
    have hx' : k < xs.length := by omega
    have hy' : k < ys.length := by omega
    simp only [xorBytes, List.getElem?_zipWith, List.getElem?_eq_getElem hk,
      List.getElem?_eq_getElem hk', List.getElem?_eq_getElem hx',
      List.getElem?_eq_getElem hy'] at hget
    exact (hcancel _ _ _ _).mp (Option.some.inj hget)
  · rintro rfl
    refine List.ext_getElem (by simp [xorBytes, hx, hy, ha]) fun k _ _ => ?_
    simp only [xorBytes, List.getElem_zipWith]
    exact (hcancel _ _ _ _).mpr rfl

theorem ciphertext_blocks_iff {i j : Nat} (hi : 32 * (i + 1) ≤ data.length)
    (hj : 32 * (j + 1) ≤ data.length) :
    xorBytes (messageBlock (streamXor sha256 data key) i)
        (messageBlock (streamXor sha256 data key) j) =
      xorBytes (messageBlock data i) (messageBlock data j) ↔
        ksBlock sha256 key (UInt8.ofNat i) = ksBlock sha256 key (UInt8.ofNat j) := by
  rw [messageBlock_streamXor hi, messageBlock_streamXor hj,
    xor_blocks_iff (length_messageBlock hi) (length_messageBlock hj) (FixedBytes.size _)
      (FixedBytes.size _)]
  exact ⟨FixedBytes.ext_bytes, congrArg FixedBytes.bytes⟩

theorem ksBlock_inj (cf : CollisionFreeOn sha256 (KeystreamHashes key data)) {i j : Nat}
    (hi : i < blockCount data) (hj : j < blockCount data)
    (h : ksBlock sha256 key (UInt8.ofNat i) = ksBlock sha256 key (UInt8.ofNat j)) :
    UInt8.ofNat i = UInt8.ofNat j := by
  have hmessage := cf ⟨i, hi, rfl⟩ ⟨j, hj, rfl⟩ h
  exact (List.cons.inj (List.append_cancel_left hmessage)).1

/-- No keystream is used twice exactly in the messages of at most 256 blocks. -/
theorem keystream_reuse_iff (cf : CollisionFreeOn sha256 (KeystreamHashes key data)) :
    NoKeystreamReuse sha256 key data ↔ data.length ≤ 8192 := by
  constructor
  · intro h
    by_contra hlong
    have hcount : 256 < blockCount data := by
      unfold blockCount
      omega
    have hlen : 256 < (streamBlocks sha256 key data).length := by
      rw [streamBlocks, List.length_map, List.length_range]
      exact hcount
    have hdiffer := List.pairwise_iff_getElem.mp h.blocks 0 256 (by omega) hlen (by omega)
    simp only [streamBlocks, List.getElem_map, List.getElem_range] at hdiffer
    exact hdiffer rfl
  · intro hshort
    have hcount : blockCount data ≤ 256 := by
      unfold blockCount
      omega
    have hblocks : ∀ i j, i < blockCount data → j < blockCount data →
        ksBlock sha256 key (UInt8.ofNat i) = ksBlock sha256 key (UInt8.ofNat j) → i = j := by
      intro i j hi hj heq
      have hindex := congrArg UInt8.toNat (ksBlock_inj cf hi hj heq)
      rwa [UInt8.toNat_ofNat_of_lt' (by show i < 256; omega),
        UInt8.toNat_ofNat_of_lt' (by show j < 256; omega)] at hindex
    refine ⟨?_, ?_⟩
    · rw [streamBlocks, List.pairwise_map]
      refine List.pairwise_iff_getElem.mpr fun i j hi hj hlt => ?_
      rw [List.length_range] at hi hj
      rw [List.getElem_range, List.getElem_range]
      intro heq
      have := hblocks i j hi hj heq
      omega
    · intro i j hne hi hj heq
      have hsame := (ciphertext_blocks_iff hi hj).mp heq
      exact hne (hblocks i j (whole_block_lt hi) (whole_block_lt hj) hsame)

theorem keystream_reuse_short :
    NoKeystreamReuse ObscuraNetwork.sha256 (FixedBytes.replicate 32 1) (List.replicate 64 7) := by
  refine (keystream_reuse_iff ?_).mpr (by decide)
  refine collisionFreeOn_of_nodup
    (l := [ksMessage (FixedBytes.replicate 32 1) 0, ksMessage (FixedBytes.replicate 32 1) 1]) ?_ ?_
  · rintro m ⟨i, hi, rfl⟩
    have hcount : i < 2 := hi
    rcases (by omega : i = 0 ∨ i = 1) with rfl | rfl
    · exact List.mem_cons_self
    · exact List.mem_cons_of_mem _ List.mem_cons_self
  · decide +kernel

/-- In a message of 257 blocks the last one is added to the keystream of the first. -/
theorem long_message_reuse :
    ¬NoKeystreamReuse ObscuraNetwork.sha256 (FixedBytes.replicate 32 1)
      (List.replicate 8224 0) := by
  intro h
  have hlen : (List.replicate 8224 (0 : UInt8)).length = 8224 := List.length_replicate
  have hfirst : 32 * (0 + 1) ≤ (List.replicate 8224 (0 : UInt8)).length := by omega
  have hlast : 32 * (256 + 1) ≤ (List.replicate 8224 (0 : UInt8)).length := by omega
  exact h.ciphertext 0 256 (by decide) hfirst hlast
    ((ciphertext_blocks_iff hfirst hlast).mpr rfl)

end Keystream

end Encryption

end ObscuraNetwork
