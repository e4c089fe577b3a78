import ObscuraNetwork.CollisionFree
import ObscuraNetwork.RecipientLink
import ObscuraNetwork.Serde

namespace ObscuraNetwork

/-- The magic bytes of a mock combined proof, `OBSc`. -/
def mockCombinedHeader : Bytes := [0x4f, 0x42, 0x53, 0x63]

/-- `mock_combined_proof`. -/
def mockCombinedProof (transferAmount sanctionsTimestamp : UInt64) : Bytes :=
  mockCombinedHeader ++ toLeBytes transferAmount ++ toLeBytes sanctionsTimestamp

def vkHashCodec : Codec VkHash := .tuple 8 .u32

def combinedOutputsCodec : Codec CombinedPublicOutputs :=
  Codec.struct (.pair (.vec (.array 32)) (.pair (.vec (.array 32)) (.pair .u64 (.pair (.array 32)
      (.pair (.array 32) (.pair (.array 32) (.pair (.array 32) (.pair .u64
        (.pair vkHashCodec vkHashCodec)))))))))
    (fun (nullifiers, outputCommitments, transferAmount, assetId, merkleRoot, recipientCommitment,
        sanctionsRoot, proofTimestamp, transferVkHash, sanctionsVkHash) =>
      ⟨nullifiers, outputCommitments, transferAmount, assetId, merkleRoot, recipientCommitment,
        sanctionsRoot, proofTimestamp, transferVkHash, sanctionsVkHash⟩)
    (fun out => (out.nullifiers, out.outputCommitments, out.transferAmount, out.assetId,
      out.merkleRoot, out.recipientCommitment, out.sanctionsRoot, out.proofTimestamp,
      out.transferVkHash, out.sanctionsVkHash))
    fun _ => rfl

/-- `SP1PublicValues::read`, which goes on where the last reading has stopped. -/
def readValue {α : Type} (c : Codec α) (buffer : Bytes) : Outcome (α × Bytes) :=
  match c.decode buffer with
  | some read => pure read
  | none => .error (.panic "failed to deserialize")

/-- The ten readings of `verify_combined_sp1`. -/
def readCombinedOutputs (buffer : Bytes) : Outcome CombinedPublicOutputs := do
  let (nullifiers, buffer) ← readValue (.vec (.array 32)) buffer
  let (outputCommitments, buffer) ← readValue (.vec (.array 32)) buffer
  let (transferAmount, buffer) ← readValue .u64 buffer
  let (assetId, buffer) ← readValue (.array 32) buffer
  let (merkleRoot, buffer) ← readValue (.array 32) buffer
  let (recipientCommitment, buffer) ← readValue (.array 32) buffer
  let (sanctionsRoot, buffer) ← readValue (.array 32) buffer
  let (proofTimestamp, buffer) ← readValue .u64 buffer
  let (transferVkHash, buffer) ← readValue vkHashCodec buffer
  let (sanctionsVkHash, _) ← readValue vkHashCodec buffer
  pure
    { nullifiers, outputCommitments, transferAmount, assetId, merkleRoot, recipientCommitment
      sanctionsRoot, proofTimestamp, transferVkHash, sanctionsVkHash }

def debugWords (h : VkHash) : String :=
  "[" ++ String.intercalate ", " (h.1.map fun word => toString word.toNat) ++ "]"

/-- The comparison with a registered key hash, when there is one. -/
def checkVkHash (kind : String) (expected : Option VkHash) (vkHash : VkHash) : Outcome Unit :=
  match expected with
  | none => pure ()
  | some expected => ensure (vkHash = expected)
      (.bail ("Combined proof: " ++ kind ++ " VK hash mismatch — expected " ++
        debugWords expected ++ ", got " ++ debugWords vkHash))

/-- The aggregator's program file: where it is looked for and what is found there. -/
structure CombinedElf where
  path : String
  contents : Option Bytes

def verifyCombinedSp1 (b : Build) (elf : CombinedElf) (proofBytes : Bytes)
    (expectedTransferVk expectedSanctionsVk : Option VkHash) : Outcome Unit :=
  match elf.contents with
  | none => .error (.bail ("Combined ELF not found at " ++ elf.path))
  | some contents =>
    match b.sp1Deserialize proofBytes with
    | none => .error (.bail "deserialize combined proof")
    | some proof => do
      ensure (b.sp1Verify contents proof = true) (.bail "Combined Groth16 verification failed")
      let out ← readCombinedOutputs proof.publicValues
      checkVkHash "transfer" expectedTransferVk out.transferVkHash
      checkVkHash "sanctions" expectedSanctionsVk out.sanctionsVkHash

def verifyCombinedProof (b : Build) (elf : CombinedElf) (proof : Bytes)
    (expectedTransferVk expectedSanctionsVk : Option VkHash) : Outcome Unit := do
  ensure (proof ≠ []) (.bail "Combined proof cannot be empty")
  if b.sp1 then verifyCombinedSp1 b elf proof expectedTransferVk expectedSanctionsVk
  else
    ensure (¬(proof.length < 4 ∨ proof.take 4 ≠ mockCombinedHeader))
      (.bail "Combined proof: invalid format — expected 'OBSc' prefix (mock mode)")

/-- The two runs that a combined output stands for. -/
structure StandsFor (transferVk sanctionsVk : VkHash) (out : TransferPublicOutputs)
    (sanctionsOut : SanctionsPublicOutputs) (combined : CombinedPublicOutputs) : Prop where
  fresh : 0 < sanctionsOut.proofTimestamp
  combined : combined =
    { nullifiers := out.nullifiers
      outputCommitments := out.outputCommitments
      transferAmount := out.transferAmount
      assetId := out.assetId
      merkleRoot := out.merkleRoot
      recipientCommitment := sanctionsOut.recipientCommitment
      sanctionsRoot := sanctionsOut.sanctionsRoot
      proofTimestamp := sanctionsOut.proofTimestamp
      transferVkHash := transferVk
      sanctionsVkHash := sanctionsVk }

/-- Sound recursion: behind what verifies there is a run of the program that the key stands for, and
it has committed these public values. -/
structure RecursionSound (b : Build) (contents : Bytes)
    (verifySp1Proof : VkHash → Bytes32 → Outcome Unit) (transferVk sanctionsVk : VkHash) where
  combinedRun : Sp1Proof → CombinedStdin
  transferRun : Bytes32 → TransferWitness
  sanctionsRun : Bytes32 → SanctionsWitness
  combined : ∀ proof, b.sp1Verify contents proof = true → ∃ out,
    combinedMain b.sha256 verifySp1Proof (combinedRun proof) = .ok out ∧
      proof.publicValues = combinedOutputsCodec.encode out
  transfer : ∀ digest, verifySp1Proof transferVk digest = .ok () → ∃ out,
    transferMain b.sha256 (transferRun digest) = .ok out ∧
      digest = b.sha256 (transferOutputsCodec.encode out)
  /-- The inputs are read from bincode, which counts them in a `u64`. -/
  inputs : ∀ digest, (transferRun digest).inputs.length < 2 ^ 64
  sanctions : ∀ digest, verifySp1Proof sanctionsVk digest = .ok () → ∃ out,
    sanctionsMain b.sha256 (sanctionsRun digest) = .ok out ∧
      digest = b.sha256 (sanctionsOutputsCodec.encode out)

/-- The prover of the aggregator has a proof for each of its accepted runs. -/
def CombinedComplete (b : Build) (contents : Bytes)
    (verifySp1Proof : VkHash → Bytes32 → Outcome Unit) : Prop :=
  ∀ stdin combined, combinedMain b.sha256 verifySp1Proof stdin = .ok combined →
    ∃ proof p, proof ≠ [] ∧ b.sp1Deserialize proof = some p ∧ b.sp1Verify contents p = true ∧
      p.publicValues = combinedOutputsCodec.encode combined

namespace RecursionSound

variable {b : Build} {contents : Bytes} {verifySp1Proof : VkHash → Bytes32 → Outcome Unit}
  {transferVk sanctionsVk : VkHash}
  (sound : RecursionSound b contents verifySp1Proof transferVk sanctionsVk) (p : Sp1Proof)

/-- The transfer run behind the digest that the aggregator has verified. -/
def transferBehind : TransferWitness :=
  sound.transferRun (b.sha256 (sound.combinedRun p).transferPvBytes)

def sanctionsBehind : SanctionsWitness :=
  sound.sanctionsRun (b.sha256 (sound.combinedRun p).sanctionsPvBytes)

/-- The bytes the aggregator has read as the transfer's public values, and those the run behind them
has committed. -/
def transferMessages : Set Bytes :=
  {m | m = (sound.combinedRun p).transferPvBytes ∨ ∃ out,
    transferMain b.sha256 (sound.transferBehind p) = .ok out ∧ m = transferOutputsCodec.encode out}

def sanctionsMessages : Set Bytes :=
  {m | m = (sound.combinedRun p).sanctionsPvBytes ∨ ∃ out,
    sanctionsMain b.sha256 (sound.sanctionsBehind p) = .ok out ∧
      m = sanctionsOutputsCodec.encode out}

end RecursionSound

section AggregatedProof

variable {b : Build} {sha256 : Bytes → Bytes32} {contents : Bytes} {elf : CombinedElf}
  {verifySp1Proof : VkHash → Bytes32 → Outcome Unit} {transferVk sanctionsVk : VkHash}
  {expectedTransferVk expectedSanctionsVk : Option VkHash} {proof : Bytes}
  {stdin : CombinedStdin} {combined : CombinedPublicOutputs}

theorem readValue_encode {α : Type} {c : Codec α} {a : α} (h : c.Fits a) (rest : Bytes) :
    readValue c (c.encode a ++ rest) = .ok (a, rest) := by
  rw [readValue, c.decode_encode h]
  rfl

/-- What the aggregator has committed is read back field by field. -/
theorem readCombinedOutputs_encode (h : combinedOutputsCodec.Fits combined) (rest : Bytes) :
    readCombinedOutputs (combinedOutputsCodec.encode combined ++ rest) = .ok combined := by
  obtain ⟨hnullifiers, houtputs, hamount, hasset, hroot, hrecipient, hsanctions, htime, hvk,
    hvk'⟩ := h
  simp only [combinedOutputsCodec, Codec.struct, Codec.pair, List.append_assoc,
    readCombinedOutputs, readValue_encode hnullifiers, readValue_encode houtputs,
    readValue_encode hamount, readValue_encode hasset, readValue_encode hroot,
    readValue_encode hrecipient, readValue_encode hsanctions, readValue_encode htime,
    readValue_encode hvk, readValue_encode hvk', ok_bind]
  rfl

theorem fromBincode_transfer_fits {bs : Bytes} {out : TransferPublicOutputs}
    (h : fromBincode transferOutputsCodec bs = .ok out) : transferOutputsCodec.Fits out := by
  unfold fromBincode at h
  split at h
  next read hread =>
    cases Except.ok.inj h
    obtain ⟨rest, hread⟩ := Codec.deserialize_some.mp hread
    obtain ⟨fields, hfields, heq⟩ := Option.map_eq_some_iff.mp hread
    cases heq
    obtain ⟨_, hnullifiers, hfields⟩ := Codec.pair_decode hfields
    obtain ⟨_, houtputs, _⟩ := Codec.pair_decode hfields
    exact transferOutputs_fits (Codec.vec_decode_length hnullifiers)
      (Codec.vec_decode_length houtputs)
  next => cases h

/-- An accepted run of the circuit has outputs that bincode has room for. -/
theorem transferMain_fits {witness : TransferWitness} {out : TransferPublicOutputs}
    (h : transferMain sha256 witness = .ok out) (hlen : witness.inputs.length < 2 ^ 64) :
    transferOutputsCodec.Fits out := by
  have haccepted := transferMain_ok.mp h
  have hle := haccepted.outputs_le
  have hamount := out.transferAmount.toNat_lt
  have hnull := congrArg List.length haccepted.nullifiers
  have hout := congrArg List.length haccepted.outputCommitments
  rw [List.length_map, List.length_zip, ← haccepted.keys, Nat.min_self] at hnull
  rw [List.length_map] at hout
  exact transferOutputs_fits (by omega) (by omega)

/-- What an accepted run of the aggregator has checked. -/
theorem combinedMain_standsFor (h : combinedMain sha256 verifySp1Proof stdin = .ok combined) :
    ∃ out sanctionsOut,
      verifySp1Proof stdin.transferVkHash (sha256 stdin.transferPvBytes) = .ok () ∧
      fromBincode transferOutputsCodec stdin.transferPvBytes = .ok out ∧
      verifySp1Proof stdin.sanctionsVkHash (sha256 stdin.sanctionsPvBytes) = .ok () ∧
      fromBincode sanctionsOutputsCodec stdin.sanctionsPvBytes = .ok sanctionsOut ∧
      StandsFor stdin.transferVkHash stdin.sanctionsVkHash out sanctionsOut combined := by
  simp only [combinedMain, bind_ok, ensure_ok, pure_ok] at h
  obtain ⟨_, htransfer, out, hout, _, hsanctions, sanctionsOut, hs, _, _, _, htime, _, _, _, _, _,
    _, rfl⟩ := h
  exact ⟨out, sanctionsOut, htransfer, hout, hsanctions, hs, htime, rfl⟩

theorem StandsFor.fits {out : TransferPublicOutputs} {sanctionsOut : SanctionsPublicOutputs}
    (h : StandsFor transferVk sanctionsVk out sanctionsOut combined)
    (hout : transferOutputsCodec.Fits out) : combinedOutputsCodec.Fits combined := by
  obtain ⟨_, rfl⟩ := h
  obtain ⟨hnullifiers, houtputs, _⟩ := hout
  exact ⟨hnullifiers, houtputs, trivial, trivial, trivial, trivial, trivial, trivial,
    fun _ _ => trivial, fun _ _ => trivial⟩

theorem checkVkHash_ok {kind : String} {expected : Option VkHash} {vkHash : VkHash} {u : Unit} :
    checkVkHash kind expected vkHash = .ok u ↔ ∀ h ∈ expected, vkHash = h := by
  cases expected <;> simp [checkVkHash]

/-- With the prover's feature, what is accepted has verified under the program's key and carries the
registered hashes. -/
theorem verifyCombinedProof_sp1 (hb : b.sp1 = true) (helf : elf.contents = some contents)
    {p : Sp1Proof} (hp : b.sp1Deserialize proof = some p) :
    verifyCombinedProof b elf proof expectedTransferVk expectedSanctionsVk = .ok () ↔
      proof ≠ [] ∧ b.sp1Verify contents p = true ∧
        ∃ combined, readCombinedOutputs p.publicValues = .ok combined ∧
          (∀ h ∈ expectedTransferVk, combined.transferVkHash = h) ∧
          ∀ h ∈ expectedSanctionsVk, combined.sanctionsVkHash = h := by
  simp only [verifyCombinedProof, verifyCombinedSp1, hb, helf, hp, if_true, bind_ok, ensure_ok,
    checkVkHash_ok]
  constructor
  · intro h
    obtain ⟨_, hne, _, hverified, combined, hread, _, htransfer, hsanctions⟩ := h
    exact ⟨hne, hverified, combined, hread, htransfer, hsanctions⟩
  · intro h
    obtain ⟨hne, hverified, combined, hread, htransfer, hsanctions⟩ := h
    exact ⟨(), hne, (), hverified, combined, hread, (), htransfer, hsanctions⟩

/-- The transfer values that the aggregator has read are those of the run behind them. -/
theorem RecursionSound.transfer_read
    (sound : RecursionSound b contents verifySp1Proof transferVk sanctionsVk) {p : Sp1Proof}
    (hcf : CollisionFreeOn b.sha256 (sound.transferMessages p)) {out : TransferPublicOutputs}
    (hverified : verifySp1Proof transferVk
      (b.sha256 (sound.combinedRun p).transferPvBytes) = .ok ())
    (hread : fromBincode transferOutputsCodec (sound.combinedRun p).transferPvBytes = .ok out) :
    transferMain b.sha256 (sound.transferBehind p) = .ok out := by
  obtain ⟨committed, hrun, hdigest⟩ := sound.transfer _ hverified
  have hbytes := hcf (Or.inl rfl) (Or.inr ⟨committed, hrun, rfl⟩) hdigest
  rw [hbytes, fromBincode_encode _ (transferMain_fits hrun (sound.inputs _))] at hread
  obtain rfl := Except.ok.inj hread
  exact hrun

theorem RecursionSound.sanctions_read
    (sound : RecursionSound b contents verifySp1Proof transferVk sanctionsVk) {p : Sp1Proof}
    (hcf : CollisionFreeOn b.sha256 (sound.sanctionsMessages p)) {out : SanctionsPublicOutputs}
    (hverified : verifySp1Proof sanctionsVk
      (b.sha256 (sound.combinedRun p).sanctionsPvBytes) = .ok ())
    (hread : fromBincode sanctionsOutputsCodec (sound.combinedRun p).sanctionsPvBytes = .ok out) :
    sanctionsMain b.sha256 (sound.sanctionsBehind p) = .ok out := by
  obtain ⟨committed, hrun, hdigest⟩ := sound.sanctions _ hverified
  have hbytes := hcf (Or.inl rfl) (Or.inr ⟨committed, hrun, rfl⟩) hdigest
  rw [hbytes, fromBincode_encode _ (sanctionsOutputs_fits committed)] at hread
  obtain rfl := Except.ok.inj hread
  exact hrun

/-- A run of the aggregator reads the same values whichever verifier accepts the two digests. -/
theorem combinedMain_verifier {verify : VkHash → Bytes32 → Outcome Unit}
    (h : combinedMain sha256 verifySp1Proof stdin = .ok combined)
    (htransfer : verify stdin.transferVkHash (sha256 stdin.transferPvBytes) = .ok ())
    (hsanctions : verify stdin.sanctionsVkHash (sha256 stdin.sanctionsPvBytes) = .ok ()) :
    combinedMain sha256 verify stdin = .ok combined := by
  unfold combinedMain at h ⊢
  obtain ⟨_, _, h⟩ := bind_ok.mp h
  obtain ⟨out, hout, h⟩ := bind_ok.mp h
  obtain ⟨_, _, h⟩ := bind_ok.mp h
  simp only [htransfer, hsanctions, hout, ok_bind]
  exact h

/-- Without the prover's feature the prefix decides, and the hashes are not looked at. -/
theorem verifyCombinedProof_mock (hb : b.sp1 = false) :
    verifyCombinedProof b elf proof expectedTransferVk expectedSanctionsVk = .ok () ↔
      mockCombinedHeader <+: proof := by
  have hlen : mockCombinedHeader.length = 4 := rfl
  simp only [verifyCombinedProof, hb, bind_ok, ensure_ok, Bool.false_eq_true, if_false, not_or,
    Decidable.not_not]
  constructor
  · intro h
    obtain ⟨_, _, _, htake⟩ := h
    rw [← htake]
    exact List.take_prefix 4 proof
  · intro h
    have hroom := h.length_le
    have htake := List.prefix_iff_eq_take.mp h
    rw [hlen] at hroom htake
    exact ⟨(), List.ne_nil_of_length_pos (by omega), by omega, htake.symm⟩

/-- A mock proof is accepted for whatever transfer and timestamp it was made. -/
theorem mockCombinedProof_verifies (hb : b.sp1 = false) (transferAmount timestamp : UInt64) :
    verifyCombinedProof b elf (mockCombinedProof transferAmount timestamp) expectedTransferVk
      expectedSanctionsVk = .ok () := by
  rw [verifyCombinedProof_mock hb, mockCombinedProof, List.append_assoc]
  exact ⟨_, rfl⟩

end AggregatedProof

/-- Under both registered hashes a combined proof is accepted only when an accepted transfer run and
an accepted sanctions run lie behind it, and what it has committed is what they have. -/
theorem combined_proof_sound {b : Build} {elf : CombinedElf} {contents proof : Bytes}
    {verifySp1Proof : VkHash → Bytes32 → Outcome Unit} {transferVk sanctionsVk : VkHash}
    (hb : b.sp1 = true) (helf : elf.contents = some contents)
    (sound : RecursionSound b contents verifySp1Proof transferVk sanctionsVk) {p : Sp1Proof}
    (hp : b.sp1Deserialize proof = some p)
    (htransfer : CollisionFreeOn b.sha256 (sound.transferMessages p))
    (hsanctions : CollisionFreeOn b.sha256 (sound.sanctionsMessages p))
    (h : verifyCombinedProof b elf proof (some transferVk) (some sanctionsVk) = .ok ()) :
    ∃ out sanctionsOut combined,
      transferMain b.sha256 (sound.transferBehind p) = .ok out ∧
      sanctionsMain b.sha256 (sound.sanctionsBehind p) = .ok sanctionsOut ∧
      p.publicValues = combinedOutputsCodec.encode combined ∧
      StandsFor transferVk sanctionsVk out sanctionsOut combined := by
  obtain ⟨_, hverified, read, hread, htvk, hsvk⟩ := (verifyCombinedProof_sp1 hb helf hp).mp h
  obtain ⟨combined, hrun, hvalues⟩ := sound.combined p hverified
  obtain ⟨out, sanctionsOut, htproof, hout, hsproof, hs, hstands⟩ := combinedMain_standsFor hrun
  have hfits := hstands.fits (fromBincode_transfer_fits hout)
  have hback := readCombinedOutputs_encode hfits []
  rw [List.append_nil, ← hvalues, hread] at hback
  obtain rfl := Except.ok.inj hback
  -- The hashes that were compared are those under which the aggregator has verified.
  have htkey : (sound.combinedRun p).transferVkHash = transferVk := by
    have hfield := congrArg CombinedPublicOutputs.transferVkHash hstands.combined
    exact hfield.symm.trans (htvk transferVk rfl)
  have hskey : (sound.combinedRun p).sanctionsVkHash = sanctionsVk := by
    have hfield := congrArg CombinedPublicOutputs.sanctionsVkHash hstands.combined
    exact hfield.symm.trans (hsvk sanctionsVk rfl)
  rw [htkey] at htproof hstands
  rw [hskey] at hsproof hstands
  exact ⟨out, sanctionsOut, read, sound.transfer_read htransfer htproof hout,
    sound.sanctions_read hsanctions hsproof hs, hvalues, hstands⟩

/-- A build in which one combined proof verifies. -/
def combinedSampleBuild (values : Bytes) : Build :=
  { Build.default with
    sp1 := true
    sp1Deserialize := fun bs => some ⟨bs, values⟩
    sp1Verify := fun _ p => decide (p.publicValues = values) }

/-- One proof under each of the two keys. -/
def sampleVerifier (transferDigest sanctionsDigest : Bytes32) (vk : VkHash) (digest : Bytes32) :
    Outcome Unit :=
  ensure ((vk = sampleVkHash 1 ∧ digest = transferDigest) ∨
    (vk = sampleVkHash 2 ∧ digest = sanctionsDigest)) (.panic "proof verification failed")

theorem combinedMain_sample {verifySp1Proof : VkHash → Bytes32 → Outcome Unit}
    {out : TransferPublicOutputs} {sanctionsOut : SanctionsPublicOutputs}
    {combined : CombinedPublicOutputs}
    (h : combinedMain sha256 verifySp1Proof
      (aggregate (sampleVkHash 1) (sampleVkHash 2) out sanctionsOut) = .ok combined) :
    combinedMain sha256
      (sampleVerifier (sha256 (transferOutputsCodec.encode out))
        (sha256 (sanctionsOutputsCodec.encode sanctionsOut)))
      (aggregate (sampleVkHash 1) (sampleVkHash 2) out sanctionsOut) = .ok combined :=
  combinedMain_verifier h (ensure_true (Or.inl ⟨rfl, rfl⟩)) (ensure_true (Or.inr ⟨rfl, rfl⟩))

/-- The runs of one honest aggregation, and no others. -/
def sampleRecursion {witness : TransferWitness} {out : TransferPublicOutputs}
    {sanctions : SanctionsWitness} {sanctionsOut : SanctionsPublicOutputs}
    {combined : CombinedPublicOutputs} (h : transferMain sha256 witness = .ok out)
    (hlen : witness.inputs.length < 2 ^ 64) (hs : sanctionsMain sha256 sanctions = .ok sanctionsOut)
    (hcombined : combinedMain sha256
      (sampleVerifier (sha256 (transferOutputsCodec.encode out))
        (sha256 (sanctionsOutputsCodec.encode sanctionsOut)))
      (aggregate (sampleVkHash 1) (sampleVkHash 2) out sanctionsOut) = .ok combined) :
    RecursionSound (combinedSampleBuild (combinedOutputsCodec.encode combined)) []
      (sampleVerifier (sha256 (transferOutputsCodec.encode out))
        (sha256 (sanctionsOutputsCodec.encode sanctionsOut)))
      (sampleVkHash 1) (sampleVkHash 2) where
  combinedRun _ := aggregate (sampleVkHash 1) (sampleVkHash 2) out sanctionsOut
  transferRun _ := witness
  sanctionsRun _ := sanctions
  combined := by
    intro p hp
    exact ⟨combined, hcombined, of_decide_eq_true hp⟩
  transfer := by
    intro digest hdigest
    have hcases := ensure_ok.mp hdigest
    exact ⟨out, h, (hcases.resolve_right fun hother => absurd hother.1 (by decide)).2⟩
  inputs := by
    intro _
    exact hlen
  sanctions := by
    intro digest hdigest
    have hcases := ensure_ok.mp hdigest
    exact ⟨sanctionsOut, hs, (hcases.resolve_left fun hother => absurd hother.1 (by decide)).2⟩

section Sample

variable {witness : TransferWitness} {out : TransferPublicOutputs} {sanctions : SanctionsWitness}
  {sanctionsOut : SanctionsPublicOutputs} {combined : CombinedPublicOutputs}
  (h : transferMain sha256 witness = .ok out) (hlen : witness.inputs.length < 2 ^ 64)
  (hs : sanctionsMain sha256 sanctions = .ok sanctionsOut)
  (hcombined : combinedMain sha256
    (sampleVerifier (sha256 (transferOutputsCodec.encode out))
      (sha256 (sanctionsOutputsCodec.encode sanctionsOut)))
    (aggregate (sampleVkHash 1) (sampleVkHash 2) out sanctionsOut) = .ok combined) (p : Sp1Proof)

/-- What has been read is what has been committed, so there is one message. -/
theorem sampleRecursion_transferMessages :
    CollisionFreeOn sha256 ((sampleRecursion h hlen hs hcombined).transferMessages p) := by
  have hone : ∀ m ∈ (sampleRecursion h hlen hs hcombined).transferMessages p,
      m = transferOutputsCodec.encode out := by
    intro m hm
    obtain rfl | ⟨other, hother, rfl⟩ := hm
    · rfl
    · rw [Except.ok.inj (hother.symm.trans h)]
  intro x hx y hy _
  exact (hone x hx).trans (hone y hy).symm

theorem sampleRecursion_sanctionsMessages :
    CollisionFreeOn sha256 ((sampleRecursion h hlen hs hcombined).sanctionsMessages p) := by
  have hone : ∀ m ∈ (sampleRecursion h hlen hs hcombined).sanctionsMessages p,
      m = sanctionsOutputsCodec.encode sanctionsOut := by
    intro m hm
    obtain rfl | ⟨other, hother, rfl⟩ := hm
    · rfl
    · rw [Except.ok.inj (hother.symm.trans hs)]
  intro x hx y hy _
  exact (hone x hx).trans (hone y hy).symm

end Sample

/-- The transfer of a unit note and the clearing of another address, each accepted. -/
theorem unit_runs :
    ∃ paths root out,
      transferMain sha256 (honestWitness paths root [⟨unitNote unitOwner, 0, zeroBytes⟩]
        [unitNote unitOwner]) = .ok out ∧
      sanctionsMain sha256 { SanctionsOracle.cleanWitness with proofTimestamp := 1 } =
        .ok (SanctionsWitness.outputs sha256
          { SanctionsOracle.cleanWitness with proofTimestamp := 1 }) := by
  obtain ⟨paths, root, out, _, _, hout, _⟩ := unit_transfer
  have hclean : SanctionsAccepted sha256
      { SanctionsOracle.cleanWitness with proofTimestamp := 1 } :=
    { SanctionsOracle.cleanWitness_accepted with }
  exact ⟨paths, root, out, hout, sanctionsMain_ok.mpr ⟨hclean, rfl⟩⟩

theorem combined_proof_sound_unit :
    ∃ (b : Build) (p : Sp1Proof) (witness : TransferWitness) (sanctions : SanctionsWitness),
      ∃ out sanctionsOut combined, transferMain b.sha256 witness = .ok out ∧
        sanctionsMain b.sha256 sanctions = .ok sanctionsOut ∧
        p.publicValues = combinedOutputsCodec.encode combined ∧
        StandsFor (sampleVkHash 1) (sampleVkHash 2) out sanctionsOut combined := by
  obtain ⟨paths, root, out, hout, hs⟩ := unit_runs
  have hone : (1 : Nat) < 2 ^ 64 := by decide
  have hpositive : (0 : UInt64) < 1 := by decide
  obtain ⟨combined, hideal⟩ := (combinedMain_runs
    (idealVerifier_complete sha256 (sampleVkHash 1) (sampleVkHash 2)) hout hs hone).mpr hpositive
  have hcombined := combinedMain_sample hideal
  obtain ⟨_, _, _, hread, _, _, hstands⟩ := combinedMain_standsFor hcombined
  have hback := readCombinedOutputs_encode (hstands.fits (fromBincode_transfer_fits hread)) []
  rw [List.append_nil] at hback
  have hkeys := hstands.combined
  have haccepted : verifyCombinedProof (combinedSampleBuild (combinedOutputsCodec.encode combined))
      ⟨"", some []⟩ [0] (some (sampleVkHash 1)) (some (sampleVkHash 2)) = .ok () := by
    apply (verifyCombinedProof_sp1 rfl rfl rfl).mpr
    refine ⟨by simp, decide_eq_true rfl, combined, hback, ?_⟩
    simp [hkeys, aggregate]
  exact ⟨_, _, _, _, combined_proof_sound rfl rfl (sampleRecursion hout hone hs hcombined) rfl
    (sampleRecursion_transferMessages ..) (sampleRecursion_sanctionsMessages ..) haccepted⟩

/-- The proof of an honest aggregation is accepted exactly under its own key hashes, or where none
is registered. -/
theorem honest_combined_verifies {b : Build} {elf : CombinedElf} {contents : Bytes}
    {verifySp1Proof : VkHash → Bytes32 → Outcome Unit} {transferVk sanctionsVk : VkHash}
    (hb : b.sp1 = true) (helf : elf.contents = some contents)
    (recursion : RecursionComplete b.sha256 verifySp1Proof transferVk sanctionsVk)
    (prover : CombinedComplete b contents verifySp1Proof) {witness : TransferWitness}
    {out : TransferPublicOutputs} {sanctions : SanctionsWitness}
    {sanctionsOut : SanctionsPublicOutputs} (h : transferMain b.sha256 witness = .ok out)
    (hs : sanctionsMain b.sha256 sanctions = .ok sanctionsOut)
    (hlen : witness.inputs.length < 2 ^ 64) (htime : 0 < sanctionsOut.proofTimestamp) :
    ∃ proof, ∀ expectedTransferVk expectedSanctionsVk,
      verifyCombinedProof b elf proof expectedTransferVk expectedSanctionsVk = .ok () ↔
        (∀ vk ∈ expectedTransferVk, transferVk = vk) ∧
        ∀ vk ∈ expectedSanctionsVk, sanctionsVk = vk := by
  obtain ⟨combined, hcombined⟩ := (combinedMain_runs recursion h hs hlen).mpr htime
  obtain ⟨proof, p, hne, hp, hverified, hvalues⟩ := prover _ _ hcombined
  obtain ⟨read, readSanctions, _, hread, _, _, hstands⟩ := combinedMain_standsFor hcombined
  have hback := readCombinedOutputs_encode (hstands.fits (fromBincode_transfer_fits hread)) []
  rw [List.append_nil, ← hvalues] at hback
  have htvk : combined.transferVkHash = transferVk :=
    congrArg CombinedPublicOutputs.transferVkHash hstands.combined
  have hsvk : combined.sanctionsVkHash = sanctionsVk :=
    congrArg CombinedPublicOutputs.sanctionsVkHash hstands.combined
  refine ⟨proof, fun expectedTransferVk expectedSanctionsVk => ?_⟩
  rw [verifyCombinedProof_sp1 hb helf hp]
  constructor
  · intro h
    obtain ⟨_, _, other, hother, hkeys⟩ := h
    rw [hback] at hother
    obtain rfl := Except.ok.inj hother
    rw [htvk, hsvk] at hkeys
    exact hkeys
  · intro hkeys
    rw [← htvk, ← hsvk] at hkeys
    exact ⟨hne, hverified, combined, hback, hkeys⟩

open Classical in
/-- Ideal proving: what verifies is what an accepted run of the aggregator has committed. -/
noncomputable def idealBuild (verifySp1Proof : VkHash → Bytes32 → Outcome Unit) : Build :=
  { Build.default with
    sp1 := true
    sp1Deserialize := fun
      | [] => none
      | first :: values => some ⟨[first], values⟩
    sp1Verify := fun _ p => decide (∃ stdin combined,
      combinedMain sha256 verifySp1Proof stdin = .ok combined ∧
        p.publicValues = combinedOutputsCodec.encode combined) }

theorem idealBuild_complete (verifySp1Proof : VkHash → Bytes32 → Outcome Unit) :
    CombinedComplete (idealBuild verifySp1Proof) [] verifySp1Proof := by
  intro stdin combined h
  refine ⟨0 :: combinedOutputsCodec.encode combined, ⟨[0], combinedOutputsCodec.encode combined⟩,
    by simp, rfl, ?_, rfl⟩
  classical exact decide_eq_true ⟨stdin, combined, h, rfl⟩

theorem honest_combined_verifies_unit :
    ∃ (b : Build) (proof : Bytes), ∀ expectedTransferVk expectedSanctionsVk,
      verifyCombinedProof b ⟨"", some []⟩ proof expectedTransferVk expectedSanctionsVk = .ok () ↔
        (∀ vk ∈ expectedTransferVk, sampleVkHash 1 = vk) ∧
        ∀ vk ∈ expectedSanctionsVk, sampleVkHash 2 = vk := by
  obtain ⟨paths, root, out, hout, hs⟩ := unit_runs
  have hone : (1 : Nat) < 2 ^ 64 := by decide
  have hpositive : (0 : UInt64) < 1 := by decide
  exact ⟨idealBuild (idealVerifier sha256 (sampleVkHash 1) (sampleVkHash 2)),
    honest_combined_verifies rfl rfl (idealVerifier_complete sha256 _ _)
      (idealBuild_complete _) hout hs hone hpositive⟩

end ObscuraNetwork
