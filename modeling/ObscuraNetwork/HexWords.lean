import ObscuraNetwork.BridgeLogs
import ObscuraNetwork.HexText
import ObscuraNetwork.OutcomeRules
import ObscuraNetwork.RlpSafety
import Mathlib.Tactic.Ring

namespace ObscuraNetwork

theorem beValue_append (high low : Bytes) :
    beValue (high ++ low) = beValue high * 256 ^ low.length + beValue low := by
  induction low using List.reverseRecOn with
  | nil => simp [beValue]
  | append_singleton low b ih =>
    rw [← List.append_assoc, beValue_concat, beValue_concat, ih, List.length_append,
      List.length_singleton, pow_succ]
    ring

theorem beValue_cons (b : UInt8) (bs : Bytes) :
    beValue (b :: bs) = b.toNat * 256 ^ bs.length + beValue bs := by
  have hfirst : beValue [b] = b.toNat := Nat.zero_add _
  rw [← List.singleton_append, beValue_append, hfirst]

theorem beValue_replicate_zero (n : Nat) : beValue (List.replicate n 0) = 0 := by
  induction n with
  | zero => rfl
  | succ n ih =>
    rw [List.replicate_succ, beValue_cons, ih]
    show 0 * _ + 0 = 0
    omega

theorem beValue_eq_zero {bs : Bytes} (h : beValue bs = 0) : bs = List.replicate bs.length 0 := by
  induction bs with
  | nil => rfl
  | cons b bs ih =>
    rw [beValue_cons] at h
    have hpow : 0 < 256 ^ bs.length := Nat.pow_pos (by omega)
    have hbyte : b.toNat = 0 := by
      by_contra hpos
      have := Nat.le_mul_of_pos_left (256 ^ bs.length) (Nat.pos_of_ne_zero hpos)
      omega
    rw [List.length_cons, List.replicate_succ, ← ih (by omega)]
    exact congrArg (· :: bs) (UInt8.toNat_inj.mp hbyte)

namespace EthClient

/-- The text writes the bytes in digits of either letter case, behind markers that are trimmed. -/
def Spells (text : String) (bytes : Bytes) : Prop :=
  (trimHex text).map Char.toLower = bytes.flatMap hexPair

theorem hexDecode_ok {b : Build} {text : String} {bytes : Bytes} :
    hexDecode b text = .ok bytes ↔ Spells text bytes := by
  unfold hexDecode Spells
  dsimp only
  split
  next hempty =>
    rw [hempty, pure_ok, List.map_nil]
    cases bytes with
    | nil => exact iff_of_true rfl rfl
    | cons byte bytes => simp [hexPair]
  next =>
    rw [context_ok, ← hexDecode_iff _ 0, BeaconApi.decodeHexBytes]
    split
    next hodd => exact iff_of_false (by simp) fun h => hodd h.1
    next heven =>
      rw [not_not] at heven
      rw [and_iff_right heven]
      cases ObscuraNetwork.hexDecode 0 ((trimHex text).flatMap String.utf8EncodeChar) with
      | error e => simp
      | ok decoded => rw [pure_ok, Except.ok.injEq]

theorem Spells.unique {text : String} {bytes bytes' : Bytes} (h : Spells text bytes)
    (h' : Spells text bytes') : bytes = bytes' :=
  Except.ok.inj ((hexDecode_ok (b := Build.default).mpr h).symm.trans (hexDecode_ok.mpr h'))

/-- What a node writes spells the bytes. -/
theorem spells_hexText (bytes : Bytes) : Spells (BeaconApi.hexText bytes) bytes := by
  have htrim : trimHex (BeaconApi.hexText bytes) = bytes.flatMap hexPair := by
    rw [trimHex, BeaconApi.toList_hexText]
    exact (if_pos ⟨rfl, rfl⟩).trans (BeaconApi.trimStartPair_hexPairs (Or.inl rfl) bytes)
  rw [Spells, htrim]
  exact (hexDecode_iff _ 0 bytes).mp
    ⟨BeaconApi.length_hexPairs_even bytes, BeaconApi.decode_hexPairs 0 bytes⟩

theorem noPanic_context {α : Type} {text : String} {x : Outcome α} (h : NoPanic x) :
    NoPanic (context text x) := by
  rcases x with (message | message) | a
  · exact noPanic_bail text
  · exact absurd rfl (h message)
  · exact noPanic_ok a

theorem noPanic_hexDecode (b : Build) (text : String) : NoPanic (hexDecode b text) := by
  unfold hexDecode BeaconApi.decodeHexBytes
  dsimp only
  split
  next => exact noPanic_ok []
  next =>
    apply noPanic_context
    split
    next => exact noPanic_bail _
    next =>
      split
      next => exact noPanic_bail _
      next => exact noPanic_ok _

theorem hexVal_lower {c : Char} {v : Nat} (hv : v < 16) (h : c.toLower = hexDigit v) :
    hexVal (UInt8.ofNat (min c.toNat 255)) = some (UInt8.ofNat v) := by
  by_cases hc : c.toNat < 128
  · have hdigit := (ascii_digit hc).2.1 v hv
    rw [Char.ofNat_toNat] at hdigit
    rw [min_eq_left (by omega)]
    exact hdigit.mpr h
  · exact absurd h (toLower_beyond_ascii (by omega) hv)

theorem hexDigits_step {bound acc v n : Nat} {c : Char} {rest : List Char} (hv : v < 16)
    (h : c.toLower = hexDigit v) :
    hexDigits bound acc (c :: rest) = .ok n ↔
      16 * acc + v < bound ∧ hexDigits bound (16 * acc + v) rest = .ok n := by
  have hdigit : (UInt8.ofNat v).toNat = v := by
    rw [UInt8.toNat_ofNat']
    omega
  rw [hexDigits, hexVal_lower hv h]
  simp only [hdigit, bind_ok, ensure_ok]
  exact exists_const Unit

/-- The digits of bytes are read as the number that the bytes stand for, as long as it fits. -/
theorem hexDigits_bytes {bound acc n : Nat} {cs : List Char} {bytes : Bytes} (hacc : acc < bound)
    (h : cs.map Char.toLower = bytes.flatMap hexPair) :
    hexDigits bound acc cs = .ok n ↔ n = acc * 256 ^ bytes.length + beValue bytes ∧ n < bound := by
  induction bytes generalizing acc cs with
  | nil =>
    have hnone : cs = [] := List.map_eq_nil_iff.mp h
    rw [hnone, hexDigits, pure_ok]
    show acc = n ↔ n = acc * 1 + 0 ∧ n < bound
    omega
  | cons byte bytes ih =>
    have hbyte := byte.toNat_lt
    obtain ⟨c, tail, rfl, hhigh, htail⟩ := List.map_eq_cons_iff.mp h
    obtain ⟨d, rest, rfl, hlow, hrest⟩ := List.map_eq_cons_iff.mp htail
    rw [hexDigits_step (by omega) hhigh, hexDigits_step (by omega) hlow]
    have hsum : 16 * (16 * acc + byte.toNat / 16) + byte.toNat % 16 = acc * 256 + byte.toNat := by
      omega
    have hvalue : (acc * 256 + byte.toNat) * 256 ^ bytes.length + beValue bytes =
        acc * 256 ^ (byte :: bytes).length + beValue (byte :: bytes) := by
      rw [beValue_cons, List.length_cons, pow_succ]
      ring
    rw [hsum]
    constructor
    · rintro ⟨_, hfits, hdigits⟩
      rw [ih hfits hrest, hvalue] at hdigits
      exact hdigits
    · rintro ⟨hn, hbound⟩
      rw [← hvalue] at hn
      have hpow : 0 < 256 ^ bytes.length := Nat.pow_pos (by omega)
      have := Nat.le_mul_of_pos_right (acc * 256 + byte.toNat) hpow
      have hfits : acc * 256 + byte.toNat < bound := by omega
      exact ⟨by omega, hfits, (ih hfits hrest).mpr ⟨hn, hbound⟩⟩

theorem fromStrRadix16_digits {c : Char} {rest : List Char} (hplus : c ≠ '+') :
    fromStrRadix16 (c :: rest) = (do
      let v ← hexDigits (2 ^ 64) 0 (c :: rest)
      pure (UInt64.ofNat v)) := by
  unfold fromStrRadix16
  split
  next hnil => cases hnil
  next hone =>
    cases hone
    exact absurd rfl hplus
  next hmore =>
    cases hmore
    exact absurd rfl hplus
  next => rfl

theorem hexToU64_digits {text : String} {c : Char} {rest : List Char} {v : UInt64}
    (h : trimHex text = c :: rest) (hplus : c ≠ '+') :
    hexToU64 text = .ok v ↔
      ∃ n, hexDigits (2 ^ 64) 0 (c :: rest) = .ok n ∧ UInt64.ofNat n = v := by
  unfold hexToU64
  dsimp only
  rw [h, if_neg (List.cons_ne_nil c rest), context_ok, fromStrRadix16_digits hplus]
  simp only [bind_ok, pure_ok]

theorem hexDigit_ne_plus {c : Char} {v : Nat} (hv : v < 16) (h : c.toLower = hexDigit v) :
    c ≠ '+' := by
  have hcheck : ∀ n < 16, '+'.toLower ≠ hexDigit n := by decide
  intro hc
  rw [hc] at h
  exact hcheck v hv h

/-- Of a word that is written out, the number is read that it stands for, or nothing. -/
theorem hexToU64_word {text : String} {word : Bytes} {v : UInt64} (h : Spells text word)
    (hne : word ≠ []) : hexToU64 text = .ok v ↔ beValue word = v.toNat := by
  have hv := v.toNat_lt
  cases word with
  | nil => exact absurd rfl hne
  | cons byte bytes =>
    have hbyte := byte.toNat_lt
    obtain ⟨c, tail, hcs, hhigh, _⟩ := List.map_eq_cons_iff.mp h
    have hplus : c ≠ '+' := hexDigit_ne_plus (by omega) hhigh
    rw [hexToU64_digits hcs hplus, ← hcs]
    constructor
    · rintro ⟨n, hn, hnv⟩
      rw [hexDigits_bytes (by omega) h] at hn
      rw [← hnv, UInt64.toNat_ofNat']
      omega
    · intro hvalue
      refine ⟨beValue (byte :: bytes), (hexDigits_bytes (by omega) h).mpr ⟨by omega, by omega⟩, ?_⟩
      rw [hvalue, UInt64.ofNat_toNat]

theorem hexDigits_append (bound acc : Nat) (cs ds : List Char) :
    hexDigits bound acc (cs ++ ds) = (do
      let v ← hexDigits bound acc cs
      hexDigits bound v ds) := by
  induction cs generalizing acc with
  | nil => rfl
  | cons c rest ih =>
    rw [List.cons_append, hexDigits, hexDigits]
    split
    next => rfl
    next digit _ =>
      dsimp only
      by_cases hfits : 16 * acc + digit.toNat < bound
      · rw [ensure_true hfits, ok_bind, ok_bind]
        exact ih _
      · rw [ensure_false hfits]
        rfl

theorem digitChar_lower {n : Nat} (hn : n < 16) :
    n.digitChar.toLower = hexDigit n ∧ n.digitChar ≠ 'x' := by
  have hcheck : ∀ m < 16, m.digitChar.toLower = hexDigit m ∧ m.digitChar ≠ 'x' := by decide
  exact hcheck n hn

theorem mem_toDigits {n : Nat} {c : Char} (hc : c ∈ Nat.toDigits 16 n) :
    ∃ m < 16, c = m.digitChar := by
  induction n using Nat.strongRecOn with
  | ind n ih =>
    by_cases hn : n < 16
    · rw [Nat.toDigits_of_lt_base hn] at hc
      exact ⟨n, hn, List.mem_singleton.mp hc⟩
    · rw [Nat.toDigits_of_base_le (by omega) (by omega)] at hc
      rcases List.mem_append.mp hc with hhigh | hlow
      · exact ih (n / 16) (by omega) hhigh
      · exact ⟨n % 16, by omega, List.mem_singleton.mp hlow⟩

theorem hexDigits_toDigits {bound n m : Nat} :
    hexDigits bound 0 (Nat.toDigits 16 n) = .ok m ↔ m = n ∧ n < bound := by
  have hnil : ∀ acc m, hexDigits bound acc [] = .ok m ↔ acc = m := fun _ _ => pure_ok
  induction n using Nat.strongRecOn generalizing m with
  | ind n ih =>
    by_cases hsmall : n < 16
    · rw [Nat.toDigits_of_lt_base hsmall, hexDigits_step hsmall (digitChar_lower hsmall).1, hnil]
      omega
    · have hlast : n % 16 < 16 := by omega
      rw [Nat.toDigits_of_base_le (by omega) (by omega), hexDigits_append, bind_ok]
      simp only [hexDigits_step hlast (digitChar_lower hlast).1, hnil]
      constructor
      · intro h
        obtain ⟨high, hhigh, hfits, hm⟩ := h
        have := (ih (n / 16) (by omega)).mp hhigh
        omega
      · intro h
        exact ⟨n / 16, (ih (n / 16) (by omega)).mpr ⟨rfl, by omega⟩, by omega, by omega⟩

theorem trimHex_quantityText (n : Nat) : trimHex (quantityText n) = Nat.toDigits 16 n := by
  have htext : (quantityText n).toList = '0' :: 'x' :: Nat.toDigits 16 n := by
    rw [quantityText, String.toList_append, String.toList_ofList, String.toList_ofList]
    rfl
  rw [trimHex, htext]
  refine (if_pos ⟨rfl, rfl⟩).trans ?_
  match hdigits : Nat.toDigits 16 n with
  | [] => rfl
  | [c] => rfl
  | c :: d :: rest =>
    have hmem : d ∈ Nat.toDigits 16 n := by
      rw [hdigits]
      exact List.mem_cons_of_mem _ List.mem_cons_self
    obtain ⟨m, hm, rfl⟩ := mem_toDigits hmem
    exact BeaconApi.trimStartPair_of_ne (digitChar_lower hm).2

/-- A quantity that a node writes is read back, unless it is too large. -/
theorem hexToU64_quantity {n : Nat} {v : UInt64} :
    hexToU64 (quantityText n) = .ok v ↔ n = v.toNat := by
  obtain ⟨c, rest, hdigits⟩ := List.exists_cons_of_ne_nil (Nat.toDigits_ne_nil (b := 16) (n := n))
  obtain ⟨m, hm, hc⟩ := mem_toDigits (hdigits ▸ List.mem_cons_self)
  have hplus : c ≠ '+' := hexDigit_ne_plus hm (hc ▸ (digitChar_lower hm).1)
  rw [hexToU64_digits ((trimHex_quantityText n).trans hdigits) hplus, ← hdigits]
  simp only [hexDigits_toDigits]
  have hv := v.toNat_lt
  constructor
  · intro h
    obtain ⟨_, ⟨rfl, hfits⟩, rfl⟩ := h
    rw [UInt64.toNat_ofNat', Nat.mod_eq_of_lt hfits]
  · intro h
    exact ⟨n, ⟨rfl, by omega⟩, by rw [h, UInt64.ofNat_toNat]⟩

theorem hexToU64_quantityText (n : UInt64) : hexToU64 (quantityText n.toNat) = .ok n :=
  hexToU64_quantity.mpr rfl

theorem noPanic_hexDigits (bound acc : Nat) (cs : List Char) :
    NoPanic (hexDigits bound acc cs) := by
  induction cs generalizing acc with
  | nil => exact noPanic_ok acc
  | cons c rest ih =>
    unfold hexDigits
    split
    next => exact noPanic_bail _
    next => exact (noPanic_ensure _ _).bind fun _ _ => ih _

theorem noPanic_hexToU64 (text : String) : NoPanic (hexToU64 text) := by
  unfold hexToU64 fromStrRadix16
  dsimp only
  split
  next => exact noPanic_ok 0
  next =>
    apply noPanic_context
    split
    next => exact noPanic_bail _
    next => exact noPanic_bail _
    next => exact (noPanic_hexDigits _ _ _).bind fun v _ => noPanic_ok _
    next => exact (noPanic_hexDigits _ _ _).bind fun v _ => noPanic_ok _

theorem hexToBytes32_ok {b : Build} {text : String} {word : Bytes32} :
    hexToBytes32 b text = .ok word ↔ Spells text word.bytes := by
  simp only [hexToBytes32, bind_ok, hexDecode_ok]
  constructor
  · rintro ⟨bytes, hbytes, hword⟩
    split at hword
    next =>
      cases hword
      exact hbytes
    next => cases hword
  · intro h
    exact ⟨word.bytes, h, dif_pos word.size⟩

theorem noPanic_hexToBytes32 (b : Build) (text : String) : NoPanic (hexToBytes32 b text) := by
  refine (noPanic_hexDecode b text).bind fun bytes _ => ?_
  split
  next => exact noPanic_ok _
  next => exact noPanic_bail _

theorem hexToAddress_word {b : Build} {text : String} {padding : Bytes} {address sender : Bytes20}
    (h : Spells text (padding ++ address.bytes)) :
    hexToAddress b text = .ok sender ↔ sender = address := by
  have hlen : 20 ≤ (padding ++ address.bytes).length := by
    rw [List.length_append, FixedBytes.length_bytes]
    omega
  have hlast : (padding ++ address.bytes).drop ((padding ++ address.bytes).length - 20) =
      address.bytes := by
    rw [List.length_append, FixedBytes.length_bytes, Nat.add_sub_cancel, List.drop_left]
  simp only [hexToAddress, bind_ok, hexDecode_ok]
  constructor
  · rintro ⟨bytes, hbytes, hsender⟩
    rw [hbytes.unique h, dif_pos hlen] at hsender
    rw [← Except.ok.inj hsender]
    exact FixedBytes.ext_bytes hlast
  · rintro rfl
    refine ⟨_, h, ?_⟩
    rw [dif_pos hlen]
    exact congrArg Except.ok (FixedBytes.ext_bytes hlast)

theorem hexToAddress_some (b : Build) {text : String} :
    (∃ address, hexToAddress b text = .ok address) ↔
      ∃ bytes, Spells text bytes ∧ 20 ≤ bytes.length := by
  simp only [hexToAddress, bind_ok, hexDecode_ok]
  constructor
  · rintro ⟨address, bytes, hbytes, haddress⟩
    split at haddress
    next hlen => exact ⟨bytes, hbytes, hlen⟩
    next => cases haddress
  · rintro ⟨bytes, hbytes, hlen⟩
    exact ⟨_, bytes, hbytes, dif_pos hlen⟩

theorem noPanic_hexToAddress (b : Build) (text : String) : NoPanic (hexToAddress b text) := by
  refine (noPanic_hexDecode b text).bind fun bytes _ => ?_
  split
  next => exact noPanic_ok _
  next => exact noPanic_bail _

end EthClient

end ObscuraNetwork
