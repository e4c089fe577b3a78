import ObscuraNetwork.HexText
import ObscuraNetwork.SanctionsCompleteness
import ObscuraNetwork.SdnScanner
import Mathlib.Data.List.DropRight

namespace ObscuraNetwork

namespace SanctionsOracle

/-- An Ethereum address, left-padded with zeros. -/
def paddedAddress (address : Bytes20) : Bytes32 := ⟨List.replicate 12 0 ++ address.bytes, by simp⟩

/-- What `parse_eth_addresses` makes of one string, if it keeps it. -/
def parseEthAddress (s : String) : Option Bytes32 :=
  let text := (stripHexPrefix (trimChars s.toList)).flatMap String.utf8EncodeChar
  if text.length ≠ 40 then none
  else
    match hexDecode 0 text with
    | .error _ => none
    | .ok bytes => if h : bytes.length = 20 then some (paddedAddress ⟨bytes, h⟩) else none

def parseEthAddresses (raw : List String) : List Bytes32 := raw.filterMap parseEthAddress

/-- The string is a zero, the marker and 40 hex digits, in any letter case, of the address. -/
def Spells (marker : Char) (s : String) (address : Bytes20) : Prop :=
  ∃ digits, s.toList = '0' :: marker :: digits ∧
    digits.map Char.toLower = address.bytes.flatMap hexPair

/-- The strings hashed for the well-formed addresses of a list. -/
def AddressHashes (raw : List String) : Set Bytes :=
  {m | ∃ s ∈ raw, ∃ address, (Spells 'x' s address ∨ Spells 'X' s address) ∧
    m = addrMessage (paddedAddress address)}

/-- The tree of the parsed strings reports every well-formed address among them, and no other that
collides neither with them nor with a sentinel. -/
def NoAddressLost (sha256 : Bytes → Bytes32) (raw : List String) : Prop :=
  ∃ tree, build sha256 (parseEthAddresses raw) = .ok tree ∧
    (∀ s ∈ raw, ∀ address, Spells 'x' s address ∨ Spells 'X' s address →
      tree.isSanctioned sha256 (paddedAddress address) = true) ∧
    ∀ address, CollisionFreeOn sha256 (insert (addrMessage address) (AddressHashes raw)) →
      hashAddr sha256 address ≠ minSentinel → hashAddr sha256 address ≠ maxSentinel →
      tree.isSanctioned sha256 address = true →
      ∃ s ∈ raw, ∃ listed, (Spells 'x' s listed ∨ Spells 'X' s listed) ∧
        address = paddedAddress listed

section SdnAddresses

theorem trimChars_idem (cs : List Char) : trimChars (trimChars cs) = trimChars cs := by
  have htrim : ∀ xs : List Char,
      trimChars xs = (xs.dropWhile isWhitespace).rdropWhile isWhitespace := fun _ => rfl
  have hlead : (cs.dropWhile isWhitespace).rdropWhile isWhitespace <+:
      cs.dropWhile isWhitespace := List.rdropWhile_prefix isWhitespace _
  have hfront : ((cs.dropWhile isWhitespace).rdropWhile isWhitespace).dropWhile isWhitespace =
      (cs.dropWhile isWhitespace).rdropWhile isWhitespace := by
    rw [List.dropWhile_eq_self_iff]
    intro hpos
    have hdropped := List.dropWhile_eq_self_iff.mp
      (List.dropWhile_idempotent isWhitespace (l := cs))
    have hlen : 0 < (cs.dropWhile isWhitespace).length := hpos.trans_le hlead.length_le
    rw [hlead.getElem hpos]
    exact hdropped hlen
  rw [htrim (trimChars cs), htrim cs, hfront, List.rdropWhile_idempotent]

/-- What the scanner takes for an address is trimmed and has a marker. -/
theorem versionDetail_address {window : List Char} {s : String}
    (h : versionDetail window = .ok (some s)) :
    trimChars s.toList = s.toList ∧ (['0', 'x'] <+: s.toList ∨ ['0', 'X'] <+: s.toList) := by
  unfold versionDetail at h
  split at h
  next => simp at h
  next =>
    obtain ⟨afterOpen, _, h⟩ := bind_ok.mp h
    split at h
    next => simp at h
    next =>
      obtain ⟨content, _, h⟩ := bind_ok.mp h
      split at h
      next => simp at h
      next =>
        obtain ⟨text, _, h⟩ := bind_ok.mp h
        dsimp only at h
        split at h
        next hmarker =>
          have hs : String.ofList (trimChars text) = s := by simpa using h
          rw [← hs, String.toList_ofList]
          exact ⟨trimChars_idem text, hmarker⟩
        next => simp at h

theorem parseEthAddress_iff {s : String} {address : Bytes32} :
    parseEthAddress s = some address ↔ ∃ listed : Bytes20,
      (stripHexPrefix (trimChars s.toList)).map Char.toLower = listed.bytes.flatMap hexPair ∧
        address = paddedAddress listed := by
  constructor
  · intro h
    simp only [parseEthAddress] at h
    split at h
    next => simp at h
    next hlen =>
      split at h
      next => simp at h
      next bytes hbytes =>
        split at h
        next hsize =>
          have heven : ((stripHexPrefix (trimChars s.toList)).flatMap
              String.utf8EncodeChar).length % 2 = 0 := by omega
          have hdigits := (hexDecode_iff _ 0 bytes).mp ⟨heven, hbytes⟩
          exact ⟨⟨bytes, hsize⟩, hdigits, (Option.some.inj h).symm⟩
        next => simp at h
  · intro h
    obtain ⟨listed, hdigits, rfl⟩ := h
    obtain ⟨heven, hbytes⟩ := (hexDecode_iff _ 0 listed.bytes).mpr hdigits
    have hlen := hexDecode_length heven hbytes
    rw [listed.size] at hlen
    simp only [parseEthAddress, hlen, hbytes, dif_pos listed.size]
    rfl

/-- Of the strings that the scanner finds those with a small marker are kept, and only they. -/
theorem parse_extracted {s : String} (htrim : trimChars s.toList = s.toList)
    (hmarker : ['0', 'x'] <+: s.toList ∨ ['0', 'X'] <+: s.toList) {address : Bytes32} :
    parseEthAddress s = some address ↔
      ∃ listed, Spells 'x' s listed ∧ address = paddedAddress listed := by
  rw [parseEthAddress_iff, htrim]
  rcases hmarker with ⟨rest, hs⟩ | ⟨rest, hs⟩
  · have hrest : s.toList = '0' :: 'x' :: rest := hs.symm
    constructor
    · intro h
      obtain ⟨listed, hdigits, haddress⟩ := h
      rw [hrest] at hdigits
      exact ⟨listed, ⟨rest, hrest, hdigits⟩, haddress⟩
    · intro h
      obtain ⟨listed, ⟨digits, hs', hdigits⟩, haddress⟩ := h
      refine ⟨listed, ?_, haddress⟩
      rw [hs']
      exact hdigits
  · have hrest : s.toList = '0' :: 'X' :: rest := hs.symm
    constructor
    · intro h
      obtain ⟨listed, hdigits, _⟩ := h
      have hkept : stripHexPrefix ('0' :: 'X' :: rest) = '0' :: 'X' :: rest := by
        simp [stripHexPrefix]
      rw [hrest, hkept] at hdigits
      obtain ⟨_, w, hw, hmarker⟩ := hexPair_digits hdigits
      exact absurd hmarker.symm (BeaconApi.hexDigit_text hw).2.2.2.1
    · intro h
      obtain ⟨listed, ⟨digits, hs', _⟩, _⟩ := h
      rw [hrest] at hs'
      simp at hs'

theorem spells_unique {m m' : Char} {s : String} {address address' : Bytes20}
    (h : Spells m s address) (h' : Spells m' s address') : address = address' := by
  obtain ⟨digits, hs, hdigits⟩ := h
  obtain ⟨digits', hs', hdigits'⟩ := h'
  have hsame : '0' :: m :: digits = '0' :: m' :: digits' := hs.symm.trans hs'
  have htail : digits = digits' := (List.cons.inj (List.cons.inj hsame).2).2
  have hbytes := hdigits.symm.trans (htail ▸ hdigits')
  exact FixedBytes.ext_bytes (flatMap_hexPair_injective hbytes)

theorem paddedAddress_injective : Function.Injective paddedAddress := by
  intro address address' h
  have hbytes := List.append_cancel_left (congrArg FixedBytes.bytes h)
  exact FixedBytes.ext_bytes hbytes

theorem addrMessage_injective : Function.Injective addrMessage := by
  intro address address' h
  exact FixedBytes.ext_bytes (List.append_cancel_left h)

variable {sha256 : Bytes → Bytes32} {raw : List String}

/-- The strings come from the scanner. -/
def Extracted (raw : List String) : Prop :=
  ∀ s ∈ raw, trimChars s.toList = s.toList ∧ (['0', 'x'] <+: s.toList ∨ ['0', 'X'] <+: s.toList)

theorem extracted_of_scan {xml : String} (h : extractEthAddressesFromXml xml = .ok raw) :
    Extracted raw := by
  intro s hs
  obtain ⟨_, _, window, _, _, hdetail⟩ := (mem_extract h s).mp hs
  exact versionDetail_address hdetail

theorem mem_parseEthAddresses (hraw : Extracted raw) {address : Bytes32} :
    address ∈ parseEthAddresses raw ↔
      ∃ s ∈ raw, ∃ listed, Spells 'x' s listed ∧ address = paddedAddress listed := by
  rw [parseEthAddresses, List.mem_filterMap]
  constructor
  · intro h
    obtain ⟨s, hs, hparse⟩ := h
    obtain ⟨htrim, hmarker⟩ := hraw s hs
    exact ⟨s, hs, (parse_extracted htrim hmarker).mp hparse⟩
  · intro h
    obtain ⟨s, hs, hspells⟩ := h
    obtain ⟨htrim, hmarker⟩ := hraw s hs
    exact ⟨s, hs, (parse_extracted htrim hmarker).mpr hspells⟩

/-- An address is reported when a string with a small marker spells it; else it collides. -/
theorem isSanctioned_parsed (hraw : Extracted raw) {d : Nat} {tree : SanctionsMerkleTree}
    (hb : Built sha256 (parseEthAddresses raw) d tree) {address : Bytes32}
    (hmin : hashAddr sha256 address ≠ minSentinel) (hmax : hashAddr sha256 address ≠ maxSentinel) :
    tree.isSanctioned sha256 address = true ↔
      ∃ s ∈ raw, ∃ listed, Spells 'x' s listed ∧
        hashAddr sha256 address = hashAddr sha256 (paddedAddress listed) := by
  rw [isSanctioned_iff hb, hb.mem]
  constructor
  · intro h
    obtain ⟨parsed, hparsed, hhash⟩ := (h.resolve_left hmin).resolve_left hmax
    obtain ⟨s, hs, listed, hspells, rfl⟩ := (mem_parseEthAddresses hraw).mp hparsed
    exact ⟨s, hs, listed, hspells, hhash⟩
  · intro h
    obtain ⟨s, hs, listed, hspells, hhash⟩ := h
    have hparsed := (mem_parseEthAddresses hraw).mpr ⟨s, hs, listed, hspells, rfl⟩
    exact Or.inr (Or.inr ⟨_, hparsed, hhash⟩)

theorem noAddressLost_iff_respelled (hraw : Extracted raw)
    (cf : CollisionFreeOn sha256 (AddressHashes raw))
    (hsentinel : ∀ s ∈ raw, ∀ address, Spells 'x' s address ∨ Spells 'X' s address →
      hashAddr sha256 (paddedAddress address) ≠ minSentinel ∧
        hashAddr sha256 (paddedAddress address) ≠ maxSentinel) :
    NoAddressLost sha256 raw ↔
      ∀ s ∈ raw, ∀ address, Spells 'X' s address → ∃ s' ∈ raw, Spells 'x' s' address := by
  obtain ⟨tree, d, hbuild, hb⟩ := build_ok sha256 (parseEthAddresses raw)
  constructor
  · intro h s hs address hspells
    obtain ⟨tree', hbuild', hreported, _⟩ := h
    cases Except.ok.inj (hbuild.symm.trans hbuild')
    obtain ⟨hmin, hmax⟩ := hsentinel s hs address (Or.inr hspells)
    obtain ⟨s', hs', listed, hspells', hhash⟩ :=
      (isSanctioned_parsed hraw hb hmin hmax).mp (hreported s hs address (Or.inr hspells))
    have hmessage := cf ⟨s, hs, address, Or.inr hspells, rfl⟩
      ⟨s', hs', listed, Or.inl hspells', rfl⟩ hhash
    have hlisted := paddedAddress_injective (addrMessage_injective hmessage)
    exact ⟨s', hs', hlisted ▸ hspells'⟩
  · intro h
    refine ⟨tree, hbuild, ?_, ?_⟩
    · intro s hs address hspells
      obtain ⟨hmin, hmax⟩ := hsentinel s hs address hspells
      obtain ⟨s', hs', hspells'⟩ : ∃ s' ∈ raw, Spells 'x' s' address := by
        rcases hspells with hx | hX
        · exact ⟨s, hs, hx⟩
        · exact h s hs address hX
      exact (isSanctioned_parsed hraw hb hmin hmax).mpr ⟨s', hs', address, hspells', rfl⟩
    · intro address cf' hmin hmax hreported
      obtain ⟨s, hs, listed, hspells, hhash⟩ := (isSanctioned_parsed hraw hb hmin hmax).mp hreported
      have hmessage := cf' (Set.mem_insert _ _)
        (Set.mem_insert_of_mem _ ⟨s, hs, listed, Or.inl hspells, rfl⟩) hhash
      exact ⟨s, hs, listed, Or.inl hspells, addrMessage_injective hmessage⟩

/-- No extracted address is lost exactly when each one behind a capital marker also stands in the
text behind a small one: the parser drops the capital spelling. -/
theorem no_address_lost_iff {xml : String} (hraw : extractEthAddressesFromXml xml = .ok raw)
    (cf : CollisionFreeOn sha256 (AddressHashes raw))
    (hsentinel : ∀ s ∈ raw, ∀ address, Spells 'x' s address ∨ Spells 'X' s address →
      hashAddr sha256 (paddedAddress address) ≠ minSentinel ∧
        hashAddr sha256 (paddedAddress address) ≠ maxSentinel) :
    NoAddressLost sha256 raw ↔
      ∀ s address, ListedIn xml.toList s → Spells 'X' s address →
        ∃ s', ListedIn xml.toList s' ∧ Spells 'x' s' address := by
  rw [noAddressLost_iff_respelled (extracted_of_scan hraw) cf hsentinel]
  constructor
  · intro h s address hlisted hspells
    obtain ⟨s', hs', hspells'⟩ := h s ((mem_extract hraw s).mpr hlisted) address hspells
    exact ⟨s', (mem_extract hraw s').mp hs', hspells'⟩
  · intro h s hs address hspells
    obtain ⟨s', hlisted', hspells'⟩ := h s address ((mem_extract hraw s).mp hs) hspells
    exact ⟨s', (mem_extract hraw s').mpr hlisted', hspells'⟩

end SdnAddresses

section Sample

def sampleAddress : Bytes20 := FixedBytes.replicate 20 0xab

def sampleDigits : String := "aBABabABAbABABABABabABABABABABABABABAbAB"

/-- One feature with an address in mixed letter case. -/
def sampleXml (marker : String) : String :=
  "FeatureTypeID=\"345\"><VersionDetail>" ++ marker ++ sampleDigits ++ "</VersionDetail>"

theorem sampleXml_scanned :
    extractEthAddressesFromXml (sampleXml "0x") = .ok ["0x" ++ sampleDigits] ∧
      extractEthAddressesFromXml (sampleXml "0X") = .ok ["0X" ++ sampleDigits] := by
  decide +kernel

theorem sampleText_spells :
    Spells 'x' ("0x" ++ sampleDigits) sampleAddress ∧
      Spells 'X' ("0X" ++ sampleDigits) sampleAddress := by
  have hdigits : sampleDigits.toList.map Char.toLower =
      sampleAddress.bytes.flatMap hexPair := by decide +kernel
  exact ⟨⟨sampleDigits.toList, String.toList_append, hdigits⟩,
    ⟨sampleDigits.toList, String.toList_append, hdigits⟩⟩

theorem sampleHash_plain :
    hashAddr ObscuraNetwork.sha256 (paddedAddress sampleAddress) ≠ minSentinel ∧
      hashAddr ObscuraNetwork.sha256 (paddedAddress sampleAddress) ≠ maxSentinel := by
  decide +kernel

theorem sample_address_unique {m : Char} {text s : String} (htext : Spells m text sampleAddress)
    (hs : s ∈ [text]) {address : Bytes20} (h : Spells 'x' s address ∨ Spells 'X' s address) :
    address = sampleAddress := by
  cases List.mem_singleton.mp hs
  exact h.elim (fun hx => spells_unique hx htext) fun hX => spells_unique hX htext

theorem sample_collisionFree {m : Char} {text : String} (htext : Spells m text sampleAddress) :
    CollisionFreeOn ObscuraNetwork.sha256 (AddressHashes [text]) := by
  intro message hmessage message' hmessage' _
  obtain ⟨s, hs, address, hspells, rfl⟩ := hmessage
  obtain ⟨s', hs', address', hspells', rfl⟩ := hmessage'
  rw [sample_address_unique htext hs hspells, sample_address_unique htext hs' hspells']

theorem no_address_lost_small_marker :
    NoAddressLost ObscuraNetwork.sha256 ["0x" ++ sampleDigits] := by
  obtain ⟨hspelled, _⟩ := sampleText_spells
  refine (no_address_lost_iff sampleXml_scanned.1 (sample_collisionFree hspelled) ?_).mpr ?_
  · intro s hs address hspells
    rw [sample_address_unique hspelled hs hspells]
    exact sampleHash_plain
  · intro s address hlisted hspells
    have hs := (mem_extract sampleXml_scanned.1 s).mpr hlisted
    have hlisted' := (mem_extract sampleXml_scanned.1 _).mp List.mem_cons_self
    rw [sample_address_unique hspelled hs (Or.inr hspells)]
    exact ⟨_, hlisted', hspelled⟩

/-- An address behind a capital marker is found and then dropped. -/
theorem capital_marker_lost : ∃ raw, extractEthAddressesFromXml (sampleXml "0X") = .ok raw ∧
    ¬NoAddressLost ObscuraNetwork.sha256 raw := by
  obtain ⟨_, hspelled⟩ := sampleText_spells
  refine ⟨_, sampleXml_scanned.2, fun hkept => ?_⟩
  have hiff := noAddressLost_iff_respelled (extracted_of_scan sampleXml_scanned.2)
    (sample_collisionFree hspelled) fun s hs address hspells => by
      rw [sample_address_unique hspelled hs hspells]
      exact sampleHash_plain
  obtain ⟨s, hs, digits, hsmall, _⟩ := hiff.mp hkept _ List.mem_cons_self _ hspelled
  rw [List.mem_singleton.mp hs, String.toList_append] at hsmall
  have hmarker : 'X' = 'x' := (List.cons.inj (List.cons.inj hsmall).2).1
  exact absurd hmarker (by decide)

end Sample

end SanctionsOracle

end ObscuraNetwork
