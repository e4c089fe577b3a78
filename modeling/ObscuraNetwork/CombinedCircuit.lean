import ObscuraNetwork.Bincode
import ObscuraNetwork.GuestPrivacy
import ObscuraNetwork.SanctionsCircuit

namespace ObscuraNetwork

/-- A verification key hash, `[u32; 8]`. -/
abbrev VkHash := {words : List UInt32 // words.length = 8}

structure CombinedPublicOutputs where
  nullifiers : List Bytes32
  outputCommitments : List Bytes32
  transferAmount : UInt64
  assetId : Bytes32
  merkleRoot : Bytes32
  recipientCommitment : Bytes32
  sanctionsRoot : Bytes32
  proofTimestamp : UInt64
  transferVkHash : VkHash
  sanctionsVkHash : VkHash
  deriving DecidableEq

/-- What the aggregator reads from its standard input. -/
structure CombinedStdin where
  transferPvBytes : Bytes
  transferVkHash : VkHash
  sanctionsPvBytes : Bytes
  sanctionsVkHash : VkHash
  deriving DecidableEq

def transferOutputsCodec : Codec TransferPublicOutputs :=
  Codec.struct (.pair (.vec (.array 32)) (.pair (.vec (.array 32)) (.pair .u64
      (.pair (.array 32) (.array 32)))))
    (fun (nullifiers, outputCommitments, transferAmount, assetId, merkleRoot) =>
      ⟨nullifiers, outputCommitments, transferAmount, assetId, merkleRoot⟩)
    (fun out => (out.nullifiers, out.outputCommitments, out.transferAmount, out.assetId,
      out.merkleRoot))
    fun _ => rfl

def sanctionsOutputsCodec : Codec SanctionsPublicOutputs :=
  Codec.struct (.pair (.array 32) (.pair (.array 32) (.pair .bool .u64)))
    (fun (recipientCommitment, sanctionsRoot, isClean, proofTimestamp) =>
      ⟨recipientCommitment, sanctionsRoot, isClean, proofTimestamp⟩)
    (fun out => (out.recipientCommitment, out.sanctionsRoot, out.isClean, out.proofTimestamp))
    fun _ => rfl

theorem transferOutputs_fits {out : TransferPublicOutputs} (hn : out.nullifiers.length < 2 ^ 64)
    (ho : out.outputCommitments.length < 2 ^ 64) : transferOutputsCodec.Fits out :=
  ⟨⟨hn, fun _ _ => trivial⟩, ⟨ho, fun _ _ => trivial⟩, trivial, trivial, trivial⟩

theorem sanctionsOutputs_fits (out : SanctionsPublicOutputs) : sanctionsOutputsCodec.Fits out :=
  ⟨trivial, trivial, trivial, trivial⟩

def fromBincode {α : Type} (c : Codec α) (bs : Bytes) : Outcome α :=
  match c.deserialize bs with
  | some a => .ok a
  | none => .error (.panic "from_bincode: deserialization failed")

theorem fromBincode_encode {α : Type} (c : Codec α) {a : α} (h : c.Fits a) :
    fromBincode c (c.encode a) = .ok a := by
  rw [fromBincode, c.deserialize_encode h]

/-- `main` of the aggregator. `verifySp1Proof` panics unless a proof for the digest of the public
values was supplied under the key. -/
def combinedMain (sha256 : Bytes → Bytes32) (verifySp1Proof : VkHash → Bytes32 → Outcome Unit)
    (stdin : CombinedStdin) : Outcome CombinedPublicOutputs := do
  verifySp1Proof stdin.transferVkHash (sha256 stdin.transferPvBytes)
  let transferOut ← fromBincode transferOutputsCodec stdin.transferPvBytes
  verifySp1Proof stdin.sanctionsVkHash (sha256 stdin.sanctionsPvBytes)
  let sanctionsOut ← fromBincode sanctionsOutputsCodec stdin.sanctionsPvBytes
  ensure (sanctionsOut.isClean = true)
    (.panic "combined: sanctions proof marks recipient as NOT clean")
  ensure (0 < sanctionsOut.proofTimestamp) (.panic "combined: sanctions proof has zero timestamp")
  ensure (0 < transferOut.transferAmount) (.panic "combined: transfer amount is zero")
  ensure (transferOut.nullifiers ≠ []) (.panic "combined: no nullifiers")
  ensure (transferOut.outputCommitments ≠ []) (.panic "combined: no output commitments")
  pure
    { nullifiers := transferOut.nullifiers
      outputCommitments := transferOut.outputCommitments
      transferAmount := transferOut.transferAmount
      assetId := transferOut.assetId
      merkleRoot := transferOut.merkleRoot
      recipientCommitment := sanctionsOut.recipientCommitment
      sanctionsRoot := sanctionsOut.sanctionsRoot
      proofTimestamp := sanctionsOut.proofTimestamp
      transferVkHash := stdin.transferVkHash
      sanctionsVkHash := stdin.sanctionsVkHash }

/-- The standard input that aggregates two runs. -/
def aggregate (transferVkHash sanctionsVkHash : VkHash) (out : TransferPublicOutputs)
    (sanctionsOut : SanctionsPublicOutputs) : CombinedStdin where
  transferPvBytes := transferOutputsCodec.encode out
  transferVkHash := transferVkHash
  sanctionsPvBytes := sanctionsOutputsCodec.encode sanctionsOut
  sanctionsVkHash := sanctionsVkHash

/-- Every accepted run has a proof that verifies under the key of its circuit. -/
structure RecursionComplete (sha256 : Bytes → Bytes32)
    (verifySp1Proof : VkHash → Bytes32 → Outcome Unit) (transferVkHash sanctionsVkHash : VkHash) :
    Prop where
  transfer : ∀ witness out, transferMain sha256 witness = .ok out →
    verifySp1Proof transferVkHash (sha256 (transferOutputsCodec.encode out)) = .ok ()
  sanctions : ∀ witness out, sanctionsMain sha256 witness = .ok out →
    verifySp1Proof sanctionsVkHash (sha256 (sanctionsOutputsCodec.encode out)) = .ok ()

/-- The aggregator adds one condition to those of the two circuits: the timestamp is not zero. -/
theorem combinedMain_runs {sha256 : Bytes → Bytes32}
    {verifySp1Proof : VkHash → Bytes32 → Outcome Unit} {transferVkHash sanctionsVkHash : VkHash}
    (complete : RecursionComplete sha256 verifySp1Proof transferVkHash sanctionsVkHash)
    {witness : TransferWitness} {out : TransferPublicOutputs} {sanctions : SanctionsWitness}
    {sanctionsOut : SanctionsPublicOutputs} (h : transferMain sha256 witness = .ok out)
    (hs : sanctionsMain sha256 sanctions = .ok sanctionsOut)
    (hlen : witness.inputs.length < 2 ^ 64) :
    (∃ combined, combinedMain sha256 verifySp1Proof
      (aggregate transferVkHash sanctionsVkHash out sanctionsOut) = .ok combined) ↔
      0 < sanctionsOut.proofTimestamp := by
  have haccepted := transferMain_ok.mp h
  have hout : out.outputCommitments.length = witness.outputs.length := by
    rw [haccepted.outputCommitments, List.length_map]
  have hnull : out.nullifiers.length = witness.inputs.length := by
    rw [haccepted.nullifiers, List.length_map, List.length_zip, ← haccepted.keys, Nat.min_self]
  have hle := haccepted.outputs_le
  have hamount := out.transferAmount.toNat_lt
  have hfits : transferOutputsCodec.Fits out := transferOutputs_fits (by omega) (by omega)
  have hclean : sanctionsOut.isClean = true := by rw [(sanctionsMain_ok.mp hs).2]; rfl
  have houtputs := List.length_pos_iff.mpr haccepted.outputs
  have hpositive : 0 < out.transferAmount := by
    rw [UInt64.lt_iff_toNat_lt, UInt64.toNat_zero]
    omega
  have hsomeOutput : out.outputCommitments ≠ [] := by
    apply List.length_pos_iff.mp
    omega
  have hsomeNullifier : out.nullifiers ≠ [] := by
    obtain ⟨⟨first, hfirst, _⟩⟩ := haccepted
    have := List.length_pos_of_mem (List.mem_of_mem_head? hfirst)
    apply List.length_pos_iff.mp
    omega
  simp only [combinedMain, aggregate, complete.transfer witness out h,
    complete.sanctions sanctions sanctionsOut hs, fromBincode_encode _ hfits,
    fromBincode_encode _ (sanctionsOutputs_fits sanctionsOut), bind_ok, ensure_ok, pure_ok,
    ok_bind]
  constructor
  · intro hcombined
    obtain ⟨_, _, _, _, htime, _⟩ := hcombined
    exact htime
  · intro htime
    exact ⟨_, (), hclean, (), htime, (), hpositive, (), hsomeNullifier, (), hsomeOutput, rfl⟩

end ObscuraNetwork
