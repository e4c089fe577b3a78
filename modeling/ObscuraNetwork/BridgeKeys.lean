import ObscuraNetwork.BridgeTypes

namespace ObscuraNetwork

theorem hexDigit_inj {m n : Nat} (hm : m < 16) (hn : n < 16) (h : hexDigit m = hexDigit n) :
    m = n := by
  have hcheck : ∀ m' < 16, ∀ n' < 16, hexDigit m' = hexDigit n' → m' = n' := by decide
  exact hcheck m hm n hn h

/-- The characters `hex::encode` writes for one byte. -/
def hexPair (byte : UInt8) : List Char := [hexDigit (byte.toNat / 16), hexDigit (byte.toNat % 16)]

theorem hexPair_inj {x y : UInt8} (h : hexPair x = hexPair y) : x = y := by
  have hx := x.toNat_lt
  have hy := y.toNat_lt
  simp only [hexPair, List.cons.injEq, and_true] at h
  have hhigh := hexDigit_inj (by omega) (by omega) h.1
  have hlow := hexDigit_inj (by omega) (by omega) h.2
  apply UInt8.toNat_inj.mp
  omega

theorem toList_hexEncode (bs : Bytes) : (hexEncode bs).toList = bs.flatMap hexPair :=
  String.toList_ofList

theorem length_toList_hexEncode (bs : Bytes) : (hexEncode bs).toList.length = 2 * bs.length := by
  rw [toList_hexEncode]
  induction bs with
  | nil => rfl
  | cons x bs ih =>
    rw [List.flatMap_cons, List.length_append, ih, List.length_cons]
    simp only [hexPair, List.length_cons, List.length_nil]
    omega

theorem flatMap_hexPair_injective : Function.Injective (List.flatMap hexPair) := by
  intro xs
  induction xs with
  | nil =>
    intro ys h
    cases ys with
    | nil => rfl
    | cons y ys => simp [hexPair] at h
  | cons x xs ih =>
    intro ys h
    cases ys with
    | nil => simp [hexPair] at h
    | cons y ys =>
      rw [List.flatMap_cons, List.flatMap_cons] at h
      obtain ⟨hhead, htail⟩ := List.append_inj h rfl
      rw [hexPair_inj hhead, ih htail]

theorem hexEncode_injective : Function.Injective hexEncode := by
  intro xs ys h
  have h := congrArg String.toList h
  rw [toList_hexEncode, toList_hexEncode] at h
  exact flatMap_hexPair_injective h

theorem blockKey_injective : Function.Injective blockKey := by
  intro x y h
  have hhex := (String.append_right_inj "0x").mp h
  exact FixedBytes.ext_bytes (hexEncode_injective hhex)

/-- Reading the decimal digits back gives the number. -/
theorem toString_toNat_inj {x y : UInt64} (h : toString x.toNat = toString y.toNat) : x = y := by
  have hdigits := congrArg String.toList h
  simp only [Nat.toString_eq_repr, Nat.toList_repr] at hdigits
  have hread := congrArg (fun digits => Nat.ofDigitChars 10 digits 0) hdigits
  simp only [Nat.ofDigitChars_ten_toDigits] at hread
  exact UInt64.toNat_inj.mp hread

theorem withdrawalKey_injective : Function.Injective withdrawalKey := by
  intro x y h
  exact toString_toNat_inj ((String.append_right_inj "wd_").mp h)

theorem makeDepositKeyStr_inj {c c' : Bytes20} {x y : UInt64}
    (h : makeDepositKeyStr c x = makeDepositKeyStr c' y) : c = c' ∧ x = y := by
  have h := congrArg String.toList h
  simp only [makeDepositKeyStr, String.toList_append, List.append_assoc] at h
  have h := List.append_cancel_left h
  obtain ⟨hc, hid⟩ := List.append_inj h (by simp [length_toList_hexEncode])
  have hid := List.append_cancel_left hid
  have hc := hexEncode_injective (String.toList_inj.mp hc)
  exact ⟨FixedBytes.ext_bytes hc, toString_toNat_inj (String.toList_inj.mp hid)⟩

/-- The two families of keys of `processed_deposits` differ in their first character. -/
theorem makeDepositKeyStr_ne_withdrawalKey (c : Bytes20) (x y : UInt64) :
    makeDepositKeyStr c x ≠ withdrawalKey y := by
  intro h
  have h := congrArg (fun s => s.toList.head?) h
  simp [makeDepositKeyStr, withdrawalKey] at h

end ObscuraNetwork
