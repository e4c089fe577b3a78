import ObscuraNetwork.Rlp

namespace ObscuraNetwork

/-- Big-endian bytes of a number without a leading zero. -/
structure MinimalBytes (v : Nat) (bs : Bytes) : Prop where
  value : beValue bs = v
  head : bs.head? ≠ some 0

theorem dropZeros_head (bs : Bytes) : (bs.dropWhile (· = 0)).head? ≠ some 0 := by
  intro h
  have hzero := List.head?_dropWhile_not (p := fun b : UInt8 => decide (b = 0)) bs
  rw [h] at hzero
  exact absurd hzero (by decide)

/-- An encoded number reads back as its minimal bytes, and zero as no byte at all. -/
theorem rlpDecodeItem_uint {v : Nat} (h : v < 2 ^ 128) :
    ∃ bytes, rlpDecodeItem (rlpEncodeUint v) = .ok (some (bytes, (rlpEncodeUint v).length)) ∧
      MinimalBytes v bytes := by
  unfold rlpEncodeUint
  split
  next hzero =>
    have hread := @rlpDecodeItem_encode [] (by decide) []
    exact ⟨[], hread, hzero.symm, by simp⟩
  next hne =>
    obtain ⟨hstrip, hvalue, hlen⟩ :=
      stripZeros_toBeBytes (Nat.pos_of_ne_zero hne) (by omega : v < 256 ^ 16)
    have hhead : (stripZeros (toBeBytes 16 v)).head? ≠ some 0 := hstrip ▸ dropZeros_head _
    have hread := rlpDecodeItem_encode
      (by omega : (stripZeros (toBeBytes 16 v)).length + 9 < 2 ^ 64) []
    rw [List.append_nil] at hread
    exact ⟨_, hread, hvalue, hhead⟩

/-- Strings that are encoded one by one and put in a list are read back, and so are numbers. -/
theorem rlp_round_trip (items : List Bytes)
    (h : (items.map rlpEncodeBytes).flatten.length < 2 ^ 63) (v : Nat) (hv : v < 2 ^ 128) :
    rlpDecodeList (rlpEncodeList (items.map rlpEncodeBytes)) = .ok (some items) ∧
      ∃ bytes, rlpDecodeItem (rlpEncodeUint v) = .ok (some (bytes, (rlpEncodeUint v).length)) ∧
        MinimalBytes v bytes :=
  ⟨rlpDecodeList_encode (by omega), rlpDecodeItem_uint hv⟩

theorem rlp_round_trip_boundaries :
    rlpDecodeList (rlpEncodeList
        ([[], [0x7f], [0x80], List.replicate 55 1, List.replicate 56 2,
          List.replicate 256 3].map rlpEncodeBytes)) =
      .ok (some [[], [0x7f], [0x80], List.replicate 55 1, List.replicate 56 2,
        List.replicate 256 3]) ∧
      ∃ bytes, rlpDecodeItem (rlpEncodeUint 1000) =
        .ok (some (bytes, (rlpEncodeUint 1000).length)) ∧ MinimalBytes 1000 bytes :=
  rlp_round_trip _ (by decide +kernel) 1000 (by decide)

end ObscuraNetwork
