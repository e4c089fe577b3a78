import ObscuraNetwork.BeaconText

namespace ObscuraNetwork

section HexText

/-- Two digits stand for each byte. -/
theorem hexDecode_length {i : Nat} {text bytes : Bytes} (heven : text.length % 2 = 0)
    (h : hexDecode i text = .ok bytes) : text.length = 2 * bytes.length := by
  fun_induction hexDecode i text generalizing bytes with
  | case1 => simp at h
  | case2 => simp at h
  | case3 => simp at h
  | case4 i high low rest v hv w hw tail htail ih =>
    cases h
    have hrest : rest.length % 2 = 0 := by
      simp only [List.length_cons] at heven
      omega
    have hlen := ih hrest htail
    simp only [List.length_cons]
    omega
  | case5 text i hshort =>
    cases h
    cases text with
    | nil => rfl
    | cons c rest =>
      cases rest with
      | nil => simp at heven
      | cons d rest => exact absurd rfl (hshort c d rest)

theorem hexVal_lead_byte {n : Nat} (hlow : 192 ≤ n) (hhigh : n < 256) :
    hexVal (UInt8.ofNat n) = none := by
  have hn : (UInt8.ofNat n).toNat = n := by
    rw [UInt8.toNat_ofNat']
    exact Nat.mod_eq_of_lt hhigh
  have hbeyond : ∀ m : UInt8, m.toNat < 192 → ¬UInt8.ofNat n ≤ m := by
    intro m hm
    rw [UInt8.le_iff_toNat_le, hn]
    omega
  have h57 := hbeyond 57 (by decide)
  have h70 := hbeyond 70 (by decide)
  have h102 := hbeyond 102 (by decide)
  rw [hexVal, if_neg fun hc => h57 hc.2, if_neg fun hc => h70 hc.2, if_neg fun hc => h102 hc.2]

/-- A character beyond ASCII starts with a byte that is no digit. -/
theorem utf8EncodeChar_lead {c : Char} (hc : 128 ≤ c.toNat) :
    ∃ byte rest, String.utf8EncodeChar c = byte :: rest ∧ hexVal byte = none := by
  have h127 : ¬c.val.toNat ≤ 127 := by
    show ¬c.toNat ≤ 127
    omega
  rw [String.utf8EncodeChar, if_neg h127]
  split
  · exact ⟨_, _, rfl, hexVal_lead_byte (by omega) (by omega)⟩
  · split
    · exact ⟨_, _, rfl, hexVal_lead_byte (by omega) (by omega)⟩
    · exact ⟨_, _, rfl, hexVal_lead_byte (by omega) (by omega)⟩

theorem ascii_digit {n : Nat} (hn : n < 128) :
    String.utf8EncodeChar (Char.ofNat n) = [UInt8.ofNat n] ∧
      (∀ v < 16, hexVal (UInt8.ofNat n) = some (UInt8.ofNat v) ↔
        (Char.ofNat n).toLower = hexDigit v) ∧
      ∀ w, hexVal (UInt8.ofNat n) = some w → w.toNat < 16 := by
  have hcheck : ∀ m < 128, String.utf8EncodeChar (Char.ofNat m) = [UInt8.ofNat m] ∧
      (∀ v < 16, hexVal (UInt8.ofNat m) = some (UInt8.ofNat v) ↔
        (Char.ofNat m).toLower = hexDigit v) ∧
      ∀ w ∈ hexVal (UInt8.ofNat m), w.toNat < 16 := by decide +kernel
  exact hcheck n hn

theorem toLower_beyond_ascii {c : Char} (hc : 128 ≤ c.toNat) {v : Nat} (hv : v < 16) :
    c.toLower ≠ hexDigit v := by
  have hsmall : ∀ m < 16, (hexDigit m).toNat < 128 := by decide
  have hkept : c.toLower = c := by
    refine dif_neg ?_
    rintro ⟨_, hz⟩
    have hle : c.toNat ≤ 90 := UInt32.le_iff_toNat_le.mp hz
    omega
  intro heq
  have hlt := hsmall v hv
  rw [← heq, hkept] at hlt
  omega

/-- A character is a digit in one letter case or the other, or the decoder stops at it. -/
theorem hexChar_cases (c : Char) :
    (∃ v < 16, ∃ byte, String.utf8EncodeChar c = [byte] ∧ hexVal byte = some (UInt8.ofNat v) ∧
      c.toLower = hexDigit v) ∨
    (∃ byte rest, String.utf8EncodeChar c = byte :: rest ∧ hexVal byte = none) ∧
      ∀ v < 16, c.toLower ≠ hexDigit v := by
  by_cases hc : c.toNat < 128
  · obtain ⟨hbytes, hdigit, hsmall⟩ := ascii_digit hc
    rw [Char.ofNat_toNat] at hbytes hdigit
    cases hval : hexVal (UInt8.ofNat c.toNat) with
    | none =>
      refine Or.inr ⟨⟨_, [], hbytes, hval⟩, fun v hv hlower => ?_⟩
      have hsome := (hdigit v hv).mpr hlower
      rw [hval] at hsome
      cases hsome
    | some w =>
      have hw : UInt8.ofNat w.toNat = w := UInt8.ofNat_toNat
      have hlower := (hdigit w.toNat (hsmall w hval)).mp (by rw [hval, hw])
      exact Or.inl ⟨w.toNat, hsmall w hval, _, hbytes, by rw [hval, hw], hlower⟩
  · have hbeyond : 128 ≤ c.toNat := by omega
    exact Or.inr ⟨utf8EncodeChar_lead hbeyond, fun v hv => toLower_beyond_ascii hbeyond hv⟩

/-- The value of two digits and the byte with these digits. -/
theorem hexPair_eq_iff {v w : Nat} (hv : v < 16) (hw : w < 16) {byte : UInt8} :
    [hexDigit v, hexDigit w] = hexPair byte ↔ UInt8.ofNat v * 16 + UInt8.ofNat w = byte := by
  have hbyte := byte.toNat_lt
  have hvalue : (UInt8.ofNat v * 16 + UInt8.ofNat w).toNat = 16 * v + w := by
    simp only [UInt8.toNat_add, UInt8.toNat_mul, UInt8.toNat_ofNat']
    show (v % 256 * 16 % 256 + w % 256) % 256 = 16 * v + w
    omega
  rw [← UInt8.toNat_inj, hvalue]
  simp only [hexPair, List.cons.injEq, and_true]
  constructor
  · intro h
    have hhigh := hexDigit_inj hv (by omega) h.1
    have hlow := hexDigit_inj hw (by omega) h.2
    omega
  · intro h
    have hhigh : v = byte.toNat / 16 := by omega
    have hlow : w = byte.toNat % 16 := by omega
    exact ⟨congrArg hexDigit hhigh, congrArg hexDigit hlow⟩

theorem hexPair_digits {x y : Char} {digits : List Char} {bytes : Bytes}
    (h : x :: y :: digits = bytes.flatMap hexPair) :
    (∃ v < 16, x = hexDigit v) ∧ ∃ w < 16, y = hexDigit w := by
  cases bytes with
  | nil => simp at h
  | cons byte bytes =>
    have hbyte := byte.toNat_lt
    simp only [hexPair, List.flatMap_cons, List.cons_append, List.cons.injEq] at h
    exact ⟨⟨byte.toNat / 16, by omega, h.1⟩, ⟨byte.toNat % 16, by omega, h.2.1⟩⟩

/-- The decoder does not get past a byte that is no digit. -/
theorem hexDecode_stops {i : Nat} {byte : UInt8} {text bytes : Bytes} (hbyte : hexVal byte = none)
    (heven : (byte :: text).length % 2 = 0) : hexDecode i (byte :: text) ≠ .ok bytes := by
  cases text with
  | nil => simp at heven
  | cons low rest =>
    rw [hexDecode, hbyte]
    simp

theorem hexDecode_pair {i : Nat} {high low v w : UInt8} {rest bytes : Bytes}
    (hhigh : hexVal high = some v) (hlow : hexVal low = some w) :
    hexDecode i (high :: low :: rest) = .ok bytes ↔
      ∃ tail, bytes = (v * 16 + w) :: tail ∧ hexDecode (i + 2) rest = .ok tail := by
  simp only [hexDecode, hhigh, hlow]
  cases hexDecode (i + 2) rest with
  | error e => simp
  | ok tail => simp [eq_comm]

/-- Digits in any letter case are decoded to the bytes they spell, and nothing else is decoded. -/
theorem hexDecode_iff : ∀ (digits : List Char) (i : Nat) (bytes : Bytes),
    ((digits.flatMap String.utf8EncodeChar).length % 2 = 0 ∧
      hexDecode i (digits.flatMap String.utf8EncodeChar) = .ok bytes) ↔
        digits.map Char.toLower = bytes.flatMap hexPair
  | [], i, bytes => by
    cases bytes with
    | nil => exact ⟨fun _ => rfl, fun _ => ⟨rfl, rfl⟩⟩
    | cons byte bytes => simp [hexDecode, hexPair]
  | [c], i, bytes => by
    have hlong : [c].map Char.toLower ≠ bytes.flatMap hexPair := by
      cases bytes <;> simp [hexPair]
    refine ⟨fun h => ?_, fun h => absurd h hlong⟩
    obtain ⟨heven, hdecode⟩ := h
    rw [List.flatMap_cons, List.flatMap_nil, List.append_nil] at heven hdecode
    rcases hexChar_cases c with ⟨v, _, byte, hbyte, _⟩ | ⟨⟨byte, rest, hbyte, hnone⟩, _⟩
    · rw [hbyte] at heven
      simp at heven
    · rw [hbyte] at heven hdecode
      exact absurd hdecode (hexDecode_stops hnone heven)
  | c :: d :: rest, i, bytes => by
    rw [List.flatMap_cons, List.flatMap_cons, List.map_cons, List.map_cons]
    rcases hexChar_cases c with
      ⟨v, hv, high, hhigh, hhighVal, hc⟩ | ⟨⟨high, more, hhigh, hnone⟩, hc⟩
    · rcases hexChar_cases d with ⟨w, hw, low, hlow, hlowVal, hd⟩ | ⟨⟨low, more, hlow, hnone⟩, hd⟩
      · have ih := hexDecode_iff rest (i + 2)
        rw [hhigh, hlow, hc, hd, List.singleton_append, List.singleton_append,
          hexDecode_pair hhighVal hlowVal]
        constructor
        · intro h
          obtain ⟨heven, tail, rfl, htail⟩ := h
          have hrest : (rest.flatMap String.utf8EncodeChar).length % 2 = 0 := by
            simp only [List.length_cons] at heven
            omega
          rw [(ih tail).mp ⟨hrest, htail⟩, List.flatMap_cons, ← (hexPair_eq_iff hv hw).mpr rfl]
          rfl
        · intro h
          cases bytes with
          | nil => simp at h
          | cons byte tail =>
            have hpair : [hexDigit v, hexDigit w] ++ rest.map Char.toLower =
                hexPair byte ++ tail.flatMap hexPair := h
            obtain ⟨hfirst, hsecond⟩ := List.append_inj hpair rfl
            obtain ⟨heven, hdecode⟩ := (ih tail).mpr hsecond
            refine ⟨?_, tail, ?_, hdecode⟩
            · simp only [List.length_cons]
              omega
            · rw [(hexPair_eq_iff hv hw).mp hfirst]
      · constructor
        · intro h
          rw [hhigh, hlow, List.singleton_append, List.cons_append, hexDecode, hhighVal] at h
          simp [hnone] at h
        · intro h
          obtain ⟨_, w, hw, hlow⟩ := hexPair_digits h
          exact absurd hlow (hd w hw)
    · constructor
      · intro h
        rw [hhigh, List.cons_append] at h
        exact absurd h.2 (hexDecode_stops hnone h.1)
      · intro h
        obtain ⟨⟨v, hv, hhigh⟩, _⟩ := hexPair_digits h
        exact absurd hhigh (hc v hv)

end HexText

end ObscuraNetwork
