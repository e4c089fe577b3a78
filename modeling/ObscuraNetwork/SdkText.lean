import ObscuraNetwork.HexText
import ObscuraNetwork.PrivacyTypes

namespace ObscuraNetwork

/-- The text of a 32-byte type, which its `Display` writes. -/
def displayHash (hash : Bytes32) : String := hexEncode hash.bytes

/-- `FromStr` of a 32-byte type. -/
def hashFromStr (b : Build) (kind s : String) : Outcome Bytes32 := do
  let bytes ← BeaconApi.decodeHexBytes b (s.toList.flatMap String.utf8EncodeChar)
  if h : bytes.length = 32 then pure ⟨bytes, h⟩
  else .error (.bail (kind ++ " must be 32 bytes"))

def Commitment.fromStr (b : Build) (s : String) : Outcome Commitment :=
  Commitment.mk <$> hashFromStr b "Commitment" s

def Nullifier.fromStr (b : Build) (s : String) : Outcome Nullifier :=
  Nullifier.mk <$> hashFromStr b "Nullifier" s

def AssetId.fromStr (b : Build) (s : String) : Outcome AssetId :=
  AssetId.mk <$> hashFromStr b "AssetId" s

namespace Sdk

/-- A string as its UTF-16 code units. -/
def codeUnits (s : String) : List Nat := s.toList.flatMap fun c =>
  if c.toNat < 0x10000 then [c.toNat]
  else [0xd800 + (c.toNat - 0x10000) / 0x400, 0xdc00 + (c.toNat - 0x10000) % 0x400]

/-- White space and line terminators. -/
def isSpace (u : Nat) : Bool :=
  [9, 10, 11, 12, 13, 32, 160, 5760, 8232, 8233, 8239, 8287, 12288, 65279].contains u ||
    (8192 ≤ u && u ≤ 8202)

def hexUnit (u : Nat) : Option Nat :=
  if 48 ≤ u ∧ u ≤ 57 then some (u - 48)
  else if 65 ≤ u ∧ u ≤ 70 then some (u - 55)
  else if 97 ≤ u ∧ u ≤ 102 then some (u - 87)
  else none

/-- The digits up to the first unit that is none, or `NaN` when there is none at all. -/
def parseDigits16 (units : List Nat) : Option Int :=
  let digits := (units.map hexUnit).takeWhile Option.isSome
  if digits = [] then none
  else some (Int.ofNat (digits.foldl (fun acc d => 16 * acc + d.getD 0) 0))

/-- The marker `0x` or `0X`. -/
def stripMarker (units : List Nat) : List Nat :=
  if units.take 2 = [48, 120] ∨ units.take 2 = [48, 88] then units.drop 2 else units

/-- `parseInt` with radix 16: a sign and a marker may stand before the digits. -/
def parseInt16 (units : List Nat) : Option Int :=
  let units := units.dropWhile isSpace
  if units.head? = some 45 then (parseDigits16 (stripMarker units.tail)).map fun n => -n
  else if units.head? = some 43 then parseDigits16 (stripMarker units.tail)
  else parseDigits16 (stripMarker units)

/-- What an element of a `Uint8Array` becomes: `NaN` is stored as zero. -/
def toUint8 : Option Int → UInt8
  | none => 0
  | some n => UInt8.ofNat (n % 256).toNat

/-- `fromHex` of the SDK; a last digit that stands alone is dropped. -/
def fromHex (hex : String) : Bytes :=
  let units := codeUnits hex
  let clean := if units.take 2 = [48, 120] then units.drop 2 else units
  (List.range (clean.length / 2)).map fun i => toUint8 (parseInt16 ((clean.drop (2 * i)).take 2))

def toHex (bytes : Bytes) : String := hexEncode bytes

end Sdk

section Hashes

variable {b : Build} {kind text : String} {hash : Bytes32}

theorem decodeHexBytes_ok {bytes : Bytes} :
    BeaconApi.decodeHexBytes b (text.toList.flatMap String.utf8EncodeChar) = .ok bytes ↔
      text.toList.map Char.toLower = bytes.flatMap hexPair := by
  rw [← hexDecode_iff _ 0, BeaconApi.decodeHexBytes]
  split
  next hodd => exact iff_of_false (by simp) fun h => hodd h.1
  next heven =>
    rw [not_not] at heven
    rw [and_iff_right heven]
    cases ObscuraNetwork.hexDecode 0 (text.toList.flatMap String.utf8EncodeChar) with
    | error e => simp
    | ok decoded => rw [pure_ok, Except.ok.injEq]

/-- A text is read as the bytes that it spells, in digits of either letter case. -/
theorem hashFromStr_ok :
    hashFromStr b kind text = .ok hash ↔
      text.toList.map Char.toLower = hash.bytes.flatMap hexPair := by
  simp only [hashFromStr, bind_ok, decodeHexBytes_ok]
  constructor
  · intro h
    obtain ⟨bytes, hspells, h⟩ := h
    split at h
    next hlen =>
      obtain rfl := pure_ok.mp h
      exact hspells
    next => cases h
  · intro h
    refine ⟨hash.bytes, h, ?_⟩
    rw [dif_pos hash.length_bytes]
    rfl

end Hashes

namespace Sdk

theorem hexUnit_digit {c : Char} {v : Nat} (hv : v < 16) (h : c.toLower = hexDigit v) :
    c.toNat < 128 ∧ hexUnit c.toNat = some v := by
  have hascii : c.toNat < 128 := by
    by_contra hc
    exact toLower_beyond_ascii (by omega) hv h
  have hcheck : ∀ n < 128, ∀ w < 16, (Char.ofNat n).toLower = hexDigit w → hexUnit n = some w := by
    decide +kernel
  exact ⟨hascii, hcheck c.toNat hascii v hv (by rwa [Char.ofNat_toNat])⟩

theorem hexUnit_some {u v : Nat} (h : hexUnit u = some v) :
    v < 16 ∧ isSpace u = false ∧ u ≠ 43 ∧ u ≠ 45 ∧ u ≠ 88 ∧ u ≠ 120 := by
  have hsmall : u < 103 := by
    unfold hexUnit at h
    split at h
    · omega
    · split at h
      · omega
      · split at h
        · omega
        · cases h
  have hcheck : ∀ n < 103, ∀ w ∈ hexUnit n, w < 16 ∧ isSpace n = false ∧ n ≠ 43 ∧ n ≠ 45 ∧
      n ≠ 88 ∧ n ≠ 120 := by decide
  exact hcheck u hsmall v h

/-- Two digits are neither a sign nor a marker. -/
theorem parseInt16_pair {u w high low : Nat} (hu : hexUnit u = some high)
    (hw : hexUnit w = some low) : parseInt16 [u, w] = some (Int.ofNat (16 * high + low)) := by
  obtain ⟨_, hspace, hplus, hminus, _, _⟩ := hexUnit_some hu
  obtain ⟨_, _, _, _, hupper, hlower⟩ := hexUnit_some hw
  have hdigits : parseDigits16 [u, w] = some (Int.ofNat (16 * high + low)) := by
    simp [parseDigits16, hu, hw]
  have hmarker : stripMarker [u, w] = [u, w] := by
    simp [stripMarker, hlower, hupper]
  have hkept : [u, w].dropWhile isSpace = [u, w] := by
    rw [List.dropWhile_cons_of_neg (by rw [hspace]; simp)]
  unfold parseInt16
  rw [hkept, if_neg (by simpa using hminus), if_neg (by simpa using hplus), hmarker, hdigits]

/-- The units spell the bytes, in digits of either letter case. -/
def SpellUnits (units : List Nat) (bytes : Bytes) : Prop :=
  units.map hexUnit =
    bytes.flatMap fun byte => [some (byte.toNat / 16), some (byte.toNat % 16)]

theorem spellUnits_codeUnits {text : String} {bytes : Bytes}
    (h : text.toList.map Char.toLower = bytes.flatMap hexPair) :
    SpellUnits (codeUnits text) bytes := by
  unfold SpellUnits codeUnits
  generalize text.toList = cs at h
  induction bytes generalizing cs with
  | nil =>
    obtain rfl := List.map_eq_nil_iff.mp h
    rfl
  | cons byte rest ih =>
    have hbyte := byte.toNat_lt
    rcases cs with _ | ⟨c, _ | ⟨d, cs⟩⟩
    · simp [hexPair] at h
    · simp [hexPair] at h
    · simp only [List.map_cons, List.flatMap_cons, hexPair, List.cons_append, List.nil_append,
        List.cons.injEq] at h
      obtain ⟨hc, hd, hrest⟩ := h
      obtain ⟨hcAscii, hcUnit⟩ := hexUnit_digit (by omega) hc
      obtain ⟨hdAscii, hdUnit⟩ := hexUnit_digit (by omega) hd
      rw [List.flatMap_cons, List.flatMap_cons, if_pos (by omega), if_pos (by omega),
        List.flatMap_cons]
      simp only [List.cons_append, List.nil_append, List.map_cons, hcUnit, hdUnit]
      rw [ih cs hrest]

theorem fromHex_units {units : List Nat} {bytes : Bytes} (h : SpellUnits units bytes) :
    ((List.range (units.length / 2)).map fun i =>
      toUint8 (parseInt16 ((units.drop (2 * i)).take 2))) = bytes := by
  induction bytes generalizing units with
  | nil =>
    obtain rfl := List.map_eq_nil_iff.mp h
    rfl
  | cons byte rest ih =>
    have hbyte := byte.toNat_lt
    rcases units with _ | ⟨u, _ | ⟨w, units⟩⟩
    · simp [SpellUnits] at h
    · simp [SpellUnits] at h
    · simp only [SpellUnits, List.map_cons, List.flatMap_cons, List.cons_append, List.nil_append,
        List.cons.injEq] at h
      obtain ⟨hu, hw, hrest⟩ := h
      have hlen : (u :: w :: units).length / 2 = units.length / 2 + 1 := by
        simp only [List.length_cons]
        omega
      have hstored : toUint8 (some (Int.ofNat (16 * (byte.toNat / 16) + byte.toNat % 16))) =
          byte := by
        have hvalue : 16 * (byte.toNat / 16) + byte.toNat % 16 = byte.toNat := by omega
        rw [hvalue, toUint8]
        apply UInt8.toNat_inj.mp
        rw [UInt8.toNat_ofNat', Int.ofNat_eq_natCast]
        omega
      rw [hlen, List.range_succ_eq_map, List.map_cons, List.map_map, Nat.mul_zero, List.drop_zero,
        List.take_succ_cons, List.take_succ_cons, List.take_zero, parseInt16_pair hu hw, hstored]
      exact congrArg _ (ih hrest)

/-- Digits of either letter case, with a marker or without one, are read as the bytes they spell. -/
theorem fromHex_spells {text : String} {bytes : Bytes}
    (h : text.toList.map Char.toLower = bytes.flatMap hexPair) :
    fromHex text = bytes ∧ fromHex ("0x" ++ text) = bytes := by
  have hunits := spellUnits_codeUnits h
  have hmarked : codeUnits ("0x" ++ text) = 48 :: 120 :: codeUnits text := by
    simp [codeUnits]
  refine ⟨?_, ?_⟩
  · have hdigits : (codeUnits text).take 2 ≠ [48, 120] := by
      intro hmarker
      have hfirst := congrArg (List.map hexUnit) hmarker
      rw [List.map_take, hunits] at hfirst
      cases bytes with
      | nil => simp at hfirst
      | cons byte rest => simp [hexUnit] at hfirst
    unfold fromHex
    dsimp only
    rw [if_neg hdigits]
    exact fromHex_units hunits
  · unfold fromHex
    rw [hmarked]
    exact fromHex_units hunits

theorem toHex_lower (bytes : Bytes) :
    (toHex bytes).toList.map Char.toLower = bytes.flatMap hexPair := by
  rw [toHex, toList_hexEncode]
  exact (hexDecode_iff _ 0 bytes).mp
    ⟨BeaconApi.length_hexPairs_even bytes, BeaconApi.decode_hexPairs 0 bytes⟩

theorem hashFromStr_displayHash (b : Build) (kind : String) (hash : Bytes32) :
    hashFromStr b kind (displayHash hash) = .ok hash :=
  hashFromStr_ok.mpr (toHex_lower hash.bytes)

/-- The SDK writes a hash as its `Display` does, and the module reads it back. -/
theorem hashFromStr_toHex (b : Build) (kind : String) (hash : Bytes32) :
    hashFromStr b kind (toHex hash.bytes) = .ok hash :=
  hashFromStr_displayHash b kind hash

end Sdk

end ObscuraNetwork
