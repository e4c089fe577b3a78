import ObscuraNetwork.BridgeKeys

namespace ObscuraNetwork

/-- `anyhow::Context`: an error displays its outermost text. -/
def context {α : Type} (text : String) : Outcome α → Outcome α
  | .ok a => .ok a
  | .error (.bail _) => .error (.bail text)
  | .error (.panic message) => .error (.panic message)

@[simp] theorem context_ok {α : Type} {text : String} {x : Outcome α} {a : α} :
    context text x = .ok a ↔ x = .ok a := by
  rcases x with (message | message) | a'
  · simp [context]
  · simp [context]
  · rfl

namespace BeaconApi

/-- `trim_start_matches` with a pattern of two characters. -/
def trimStartPair (a b : Char) : List Char → List Char
  | c :: d :: rest => if c = a ∧ d = b then trimStartPair a b rest else c :: d :: rest
  | cs => cs

/-- `hex::decode`. -/
def decodeHexBytes (b : Build) (text : Bytes) : Outcome Bytes :=
  if text.length % 2 ≠ 0 then .error (.bail "Odd number of digits")
  else
    match ObscuraNetwork.hexDecode 0 text with
    | .error (c, i) => .error (.bail (b.hexErrorText c i))
    | .ok bytes => pure bytes

def hexDecode (b : Build) (s : String) : Outcome Bytes :=
  let s := trimStartPair '0' 'X' (trimStartPair '0' 'x' (trimChars s.toList))
  if s = [] then pure []
  else context "hex decode failed" (decodeHexBytes b (s.flatMap String.utf8EncodeChar))

/-- The digits of `str::parse` for an unsigned type with values below `bound`. -/
def parseDigits (bound : Nat) : Nat → List Char → Outcome Nat
  | acc, [] => pure acc
  | acc, c :: rest => do
    ensure (c.isDigit = true) (.bail "invalid digit found in string")
    let acc := 10 * acc + (c.toNat - '0'.toNat)
    ensure (acc < bound) (.bail "number too large to fit in target type")
    parseDigits bound acc rest

/-- `str::parse` for an unsigned type: digits after an optional plus sign. -/
def parseUnsigned (bound : Nat) (s : String) : Outcome Nat :=
  match s.toList with
  | [] => .error (.bail "cannot parse integer from empty string")
  | ['+'] => .error (.bail "invalid digit found in string")
  | '+' :: rest => parseDigits bound 0 rest
  | cs => parseDigits bound 0 cs

def parseU64 (s : String) : Outcome UInt64 := do
  let v ← parseUnsigned (2 ^ 64) s
  pure (UInt64.ofNat v)

def parseBytes32 (b : Build) (s : String) : Outcome Bytes32 := do
  let bytes ← context ("hex decode: " ++ s) (hexDecode b s)
  if h : bytes.length = 32 then pure ⟨bytes, h⟩
  else .error (.bail ("expected 32 bytes, got " ++ toString bytes.length ++ " (input: " ++ s ++
    ")"))

def parseForkVersion (b : Build) (s : String) : Outcome (FixedBytes 4) := do
  let bytes ← hexDecode b s
  if h : bytes.length = 4 then pure ⟨bytes, h⟩
  else .error (.bail ("expected 4-byte fork version, got " ++ toString bytes.length ++ " bytes"))

section RoundTrip

/-- A byte string as the API writes it. -/
def hexText (bs : Bytes) : String := "0x" ++ hexEncode bs

theorem toList_hexText (bs : Bytes) : (hexText bs).toList = '0' :: 'x' :: bs.flatMap hexPair := by
  rw [hexText, String.toList_append, toList_hexEncode]
  rfl

theorem trimChars_eq_self {cs : List Char} (h : ∀ c ∈ cs, isWhitespace c = false) :
    trimChars cs = cs := by
  have hkeep : ∀ xs : List Char, (∀ c ∈ xs, isWhitespace c = false) →
      xs.dropWhile isWhitespace = xs := by
    intro xs hxs
    cases xs with
    | nil => rfl
    | cons c rest => simp [hxs c List.mem_cons_self]
  have hrev : ∀ c ∈ cs.reverse, isWhitespace c = false := fun c hc => h c (List.mem_reverse.mp hc)
  rw [trimChars, hkeep cs h, hkeep cs.reverse hrev, List.reverse_reverse]

theorem trimStartPair_of_ne {a b c d : Char} {rest : List Char} (h : d ≠ b) :
    trimStartPair a b (c :: d :: rest) = c :: d :: rest := if_neg fun hn => h hn.2

/-- A hex digit is one byte of text, no blank and no marker, and stands for its value. -/
theorem hexDigit_text {n : Nat} (hn : n < 16) :
    String.utf8EncodeChar (hexDigit n) = [UInt8.ofNat (hexDigit n).toNat] ∧
      hexVal (UInt8.ofNat (hexDigit n).toNat) = some (UInt8.ofNat n) ∧
      isWhitespace (hexDigit n) = false ∧ hexDigit n ≠ 'x' ∧ hexDigit n ≠ 'X' := by
  have hcheck : ∀ m < 16, String.utf8EncodeChar (hexDigit m) = [UInt8.ofNat (hexDigit m).toNat] ∧
      hexVal (UInt8.ofNat (hexDigit m).toNat) = some (UInt8.ofNat m) ∧
      isWhitespace (hexDigit m) = false ∧ hexDigit m ≠ 'x' ∧ hexDigit m ≠ 'X' := by decide
  exact hcheck n hn

theorem hexPair_whitespace {byte : UInt8} {c : Char} (hc : c ∈ hexPair byte) :
    isWhitespace c = false := by
  have hbyte := byte.toNat_lt
  simp only [hexPair, List.mem_cons, List.not_mem_nil, or_false] at hc
  rcases hc with rfl | rfl
  · exact (hexDigit_text (by omega)).2.2.1
  · exact (hexDigit_text (by omega)).2.2.1

/-- No marker starts the digits of a byte string. -/
theorem trimStartPair_hexPairs {b : Char} (hb : b = 'x' ∨ b = 'X') (bs : Bytes) :
    trimStartPair '0' b (bs.flatMap hexPair) = bs.flatMap hexPair := by
  cases bs with
  | nil => rfl
  | cons byte bs =>
    have hbyte := byte.toNat_lt
    obtain ⟨_, _, _, hx, hX⟩ := hexDigit_text (n := byte.toNat % 16) (by omega)
    apply trimStartPair_of_ne
    rcases hb with rfl | rfl
    · exact hx
    · exact hX

theorem decode_hexPairs (i : Nat) (bs : Bytes) :
    ObscuraNetwork.hexDecode i ((bs.flatMap hexPair).flatMap String.utf8EncodeChar) = .ok bs := by
  induction bs generalizing i with
  | nil => rfl
  | cons byte bs ih =>
    have hbyte := byte.toNat_lt
    obtain ⟨hhigh, hhighVal, _⟩ := hexDigit_text (n := byte.toNat / 16) (by omega)
    obtain ⟨hlow, hlowVal, _⟩ := hexDigit_text (n := byte.toNat % 16) (by omega)
    have hvalue : UInt8.ofNat (byte.toNat / 16) * 16 + UInt8.ofNat (byte.toNat % 16) = byte := by
      apply UInt8.toNat_inj.mp
      simp only [UInt8.toNat_add, UInt8.toNat_mul, UInt8.toNat_ofNat']
      show (byte.toNat / 16 % 256 * 16 % 256 + byte.toNat % 16 % 256) % 256 = byte.toNat
      omega
    simp only [hexPair, List.flatMap_cons, List.cons_append, List.nil_append, hhigh, hlow,
      ObscuraNetwork.hexDecode, hhighVal, hlowVal, hvalue]
    rw [ih]

theorem length_hexPairs_even (bs : Bytes) :
    ((bs.flatMap hexPair).flatMap String.utf8EncodeChar).length % 2 = 0 := by
  induction bs with
  | nil => rfl
  | cons byte bs ih =>
    have hbyte := byte.toNat_lt
    have hhigh := (hexDigit_text (n := byte.toNat / 16) (by omega)).1
    have hlow := (hexDigit_text (n := byte.toNat % 16) (by omega)).1
    simp only [hexPair, List.flatMap_cons, List.cons_append, List.nil_append, hhigh, hlow,
      List.length_cons]
    omega

/-- What the API writes is read back. -/
theorem hexDecode_hexText (b : Build) (bs : Bytes) : hexDecode b (hexText bs) = .ok bs := by
  have hblank : ∀ c ∈ '0' :: 'x' :: bs.flatMap hexPair, isWhitespace c = false := by
    intro c hc
    rcases List.mem_cons.mp hc with rfl | hc
    · rfl
    rcases List.mem_cons.mp hc with rfl | hc
    · rfl
    obtain ⟨byte, _, hc⟩ := List.mem_flatMap.mp hc
    exact hexPair_whitespace hc
  have hmarker : trimStartPair '0' 'x' ('0' :: 'x' :: bs.flatMap hexPair) = bs.flatMap hexPair := by
    rw [trimStartPair, if_pos ⟨rfl, rfl⟩, trimStartPair_hexPairs (Or.inl rfl)]
  simp only [hexDecode, toList_hexText, trimChars_eq_self hblank, hmarker,
    trimStartPair_hexPairs (Or.inr rfl)]
  split
  next hempty =>
    cases bs with
    | nil => rfl
    | cons byte bs => simp [hexPair] at hempty
  next =>
    rw [decodeHexBytes, if_neg (not_not.mpr (length_hexPairs_even bs)), decode_hexPairs]
    rfl

example : hexDecode Build.default " 0x0x0X1f " = .ok [0x1f] := by decide +kernel

theorem parseBytes32_hexText (b : Build) (x : Bytes32) :
    parseBytes32 b (hexText x.bytes) = .ok x := by
  rw [parseBytes32, hexDecode_hexText]
  exact dif_pos x.size

theorem parseForkVersion_hexText (b : Build) (x : FixedBytes 4) :
    parseForkVersion b (hexText x.bytes) = .ok x := by
  rw [parseForkVersion, hexDecode_hexText]
  exact dif_pos x.size

theorem le_ofDigitChars (acc : Nat) (cs : List Char) : acc ≤ Nat.ofDigitChars 10 cs acc := by
  induction cs generalizing acc with
  | nil => simp
  | cons c cs ih =>
    rw [Nat.ofDigitChars_cons]
    have := ih (10 * acc + (c.toNat - '0'.toNat))
    omega

theorem parseDigits_eq {bound acc : Nat} {cs : List Char} (hdigits : ∀ c ∈ cs, c.isDigit = true)
    (hbound : Nat.ofDigitChars 10 cs acc < bound) :
    parseDigits bound acc cs = .ok (Nat.ofDigitChars 10 cs acc) := by
  induction cs generalizing acc with
  | nil => rfl
  | cons c cs ih =>
    rw [Nat.ofDigitChars_cons] at hbound ⊢
    have hle := le_ofDigitChars (10 * acc + (c.toNat - '0'.toNat)) cs
    have hrest := ih (fun d hd => hdigits d (List.mem_cons_of_mem _ hd)) hbound
    rw [parseDigits, ensure_true (hdigits c List.mem_cons_self), ok_bind]
    show (ensure _ _ >>= fun _ => _) = _
    rw [ensure_true (by omega), ok_bind, hrest]

/-- A number below the bound is read back from its decimal text. -/
theorem parseUnsigned_toString {bound n : Nat} (hn : n < bound) :
    parseUnsigned bound (toString n) = .ok n := by
  have hdigits : ∀ c ∈ Nat.toDigits 10 n, c.isDigit = true := fun c hc =>
    Nat.isDigit_of_mem_toDigits (by decide) (by decide) hc
  have hvalue : Nat.ofDigitChars 10 (Nat.toDigits 10 n) 0 = n := Nat.ofDigitChars_ten_toDigits
  have hparse : parseDigits bound 0 (Nat.toDigits 10 n) = .ok _ := parseDigits_eq hdigits (by omega)
  have hplus : '+' ∉ Nat.toDigits 10 n := fun hmem => absurd (hdigits '+' hmem) (by decide)
  rw [hvalue] at hparse
  simp only [parseUnsigned, Nat.toString_eq_repr, Nat.toList_repr]
  split
  next hnil => exact absurd hnil Nat.toDigits_ne_nil
  next hcs => exact absurd (hcs ▸ List.mem_cons_self) hplus
  next hcs => exact absurd (hcs ▸ List.mem_cons_self) hplus
  next => exact hparse

theorem parseU64_toString (v : UInt64) : parseU64 (toString v.toNat) = .ok v := by
  rw [parseU64, parseUnsigned_toString v.toNat_lt, ok_bind, UInt64.ofNat_toNat]
  rfl

example : parseU64 "18446744073709551616" =
    .error (.bail "number too large to fit in target type") := by decide +kernel

end RoundTrip

end BeaconApi

end ObscuraNetwork
