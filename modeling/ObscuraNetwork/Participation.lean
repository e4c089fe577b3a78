import ObscuraNetwork.HeliosAgreement
import ObscuraNetwork.HexText

namespace ObscuraNetwork

namespace BeaconApi

/-- The digits of a hex text: what is left of it without blanks around it and without markers. -/
def digitsText (s : String) : Bytes :=
  (trimStartPair '0' 'X' (trimStartPair '0' 'x' (trimChars s.toList))).flatMap
    String.utf8EncodeChar

/-- The participation of a witness is the number of set bits among the 512 of the update, and the
least number that the circuit accepts is two thirds of them. -/
def CountedOutOf512 (b : Build) (update : LightClientFinalityUpdateJson) (witness : HeliosWitness) :
    Prop :=
  ∃ bits, hexDecode b update.syncAggregate.syncCommitteeBits = .ok bits ∧ bits.length = 64 ∧
    witness.syncCommitteeParticipation.toNat = (bits.map countOnes).sum ∧
    witness.syncCommitteeParticipation.toNat ≤ 512 ∧
    (minSyncCommitteeParticipation ≤ witness.syncCommitteeParticipation →
      2 * 512 ≤ 3 * (bits.map countOnes).sum)

section Participation

variable {b : Build}

theorem digitsText_length {s : String} {bytes : Bytes} (h : hexDecode b s = .ok bytes) :
    (digitsText s).length = 2 * bytes.length := by
  simp only [hexDecode] at h
  split at h
  next hempty =>
    cases h
    rw [digitsText, hempty]
    rfl
  next =>
    rw [context_ok, decodeHexBytes] at h
    split at h
    next => simp at h
    next heven =>
      split at h
      next => simp at h
      next decoded hdecoded =>
        cases h
        exact hexDecode_length (not_not.mp heven) hdecoded

theorem countParticipation_512 {bits : Bytes} (hlen : bits.length = 64) {participation : UInt16}
    (h : countParticipation b bits = .ok participation) :
    participation.toNat = (bits.map countOnes).sum ∧ participation.toNat ≤ 512 := by
  have hbits := countParticipation_bits b ⟨bits, hlen⟩
  have htotal := sum_countOnes_le bits
  have hcount := Except.ok.inj (h.symm.trans hbits)
  have hsmall : (bits.map countOnes).sum < 2 ^ 16 := by omega
  rw [hcount, UInt16.toNat_ofNat_of_lt' hsmall]
  exact ⟨rfl, by omega⟩

theorem quorum_two_thirds {participation : UInt16} {n : Nat} (hn : participation.toNat = n)
    (h : minSyncCommitteeParticipation ≤ participation) : 2 * 512 ≤ 3 * n := by
  have hmin : 342 ≤ participation.toNat := UInt16.le_iff_toNat_le.mp h
  omega

variable {update : LightClientFinalityUpdateJson} {genesis : GenesisConfigJson}
  {pubkey : FixedBytes 48} {prevTrustedRoot : Bytes32} {witness : HeliosWitness}

theorem built_participation
    (h : buildHeliosWitness b update genesis pubkey prevTrustedRoot = .ok witness) :
    ∃ bits, hexDecode b update.syncAggregate.syncCommitteeBits = .ok bits ∧
      countParticipation b bits = .ok witness.syncCommitteeParticipation := by
  simp only [buildHeliosWitness, bind_ok, context_ok, pure_ok] at h
  obtain ⟨_, _, _, _, _, _, bits, hbits, participation, hcount, _, _, _, _, _, _, _, _, _, _, _, _,
    _, _, rfl⟩ := h
  exact ⟨bits, hbits, hcount⟩

/-- The relayer counts out of 512 exactly when the text holds 128 digits; no other length is
refused. -/
theorem participation_counted_iff
    (h : buildHeliosWitness b update genesis pubkey prevTrustedRoot = .ok witness) :
    CountedOutOf512 b update witness ↔
      (digitsText update.syncAggregate.syncCommitteeBits).length = 128 := by
  obtain ⟨bits, hbits, hcount⟩ := built_participation h
  have hdigits := digitsText_length hbits
  constructor
  · intro hcounted
    obtain ⟨bits', hbits', hlen, _⟩ := hcounted
    cases Except.ok.inj (hbits.symm.trans hbits')
    omega
  · intro hlen
    have hbytes : bits.length = 64 := by omega
    obtain ⟨hexact, hbound⟩ := countParticipation_512 hbytes hcount
    exact ⟨bits, hbits, hbytes, hexact, hbound, quorum_two_thirds hexact⟩

theorem participation_counted_first : CountedOutOf512 Build.default firstUpdate.text firstWitness :=
  (participation_counted_iff firstWitness_built).mpr (by decide +kernel)

end Participation

section Sample

/-- None of the 512 members signed, and 43 more bytes follow. -/
def trailingBits : Bytes := List.replicate 64 0 ++ List.replicate 43 0xff

def trailingUpdate : LightClientFinalityUpdateJson :=
  { firstUpdate.text with
    syncAggregate :=
      { firstUpdate.text.syncAggregate with syncCommitteeBits := hexText trailingBits } }

def trailingWitness : HeliosWitness := { firstWitness with syncCommitteeParticipation := 344 }

theorem trailingWitness_built :
    buildHeliosWitness Build.default trailingUpdate firstGenesis (FixedBytes.replicate 48 1)
      zeroBytes = .ok trailingWitness := by
  have hcount : countParticipation Build.default trailingBits = .ok 344 := by decide +kernel
  have hfirst : buildHeliosWitness Build.default firstUpdate.text firstGenesis
      (FixedBytes.replicate 48 1) zeroBytes = .ok firstWitness := firstWitness_built
  simp only [buildHeliosWitness, bind_ok, context_ok, pure_ok] at hfirst ⊢
  obtain ⟨attested, hattested, finalized, hfinalized, finality, hfinality, _, _, _, _, rest⟩ :=
    hfirst
  refine ⟨attested, hattested, finalized, hfinalized, finality, hfinality, trailingBits,
    hexDecode_hexText _ _, 344, hcount, ?_⟩
  obtain ⟨signature, hsignature, fork, hfork, genesisRoot, hgenesisRoot, body, hbody, payload,
    hpayload, branch, hbranch, hash, hhash, hwitness⟩ := rest
  refine ⟨signature, hsignature, fork, hfork, genesisRoot, hgenesisRoot, body, hbody, payload,
    hpayload, branch, hbranch, hash, hhash, ?_⟩
  rw [trailingWitness, ← hwitness]

/-- The circuit accepts a witness of an update that no member signed. -/
theorem unsigned_update_accepted :
    ∃ (update : LightClientFinalityUpdateJson) (genesis : GenesisConfigJson)
      (pubkey : FixedBytes 48) (prevTrustedRoot : Bytes32) (witness : HeliosWitness)
      (out : HeliosPublicOutputs),
      buildHeliosWitness Build.default update genesis pubkey prevTrustedRoot = .ok witness ∧
        heliosMain sha256 witness = .ok out ∧ ¬CountedOutOf512 Build.default update witness := by
  obtain ⟨haccepted, _⟩ := heliosMain_ok.mp firstWitness_accepted
  have hmain : heliosMain sha256 trailingWitness = .ok (trailingWitness.outputs sha256) :=
    heliosMain_ok.mpr ⟨{ haccepted with participation := by decide }, rfl⟩
  refine ⟨_, _, _, _, _, _, trailingWitness_built, hmain, ?_⟩
  intro hcounted
  obtain ⟨bits, hbits, hlen, _⟩ := hcounted
  have htrailing : trailingBits = bits :=
    Except.ok.inj ((hexDecode_hexText Build.default trailingBits).symm.trans hbits)
  rw [← htrailing] at hlen
  exact absurd hlen (by decide)

end Sample

end BeaconApi

end ObscuraNetwork
