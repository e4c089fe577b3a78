import ObscuraNetwork.CombinedCircuit
import ObscuraNetwork.HonestTransfer
import ObscuraNetwork.SanctionsSoundness

namespace ObscuraNetwork

open ObscuraPrivacy SanctionsOracle

/-- The address owns an output note of the transfer. -/
def OwnsOutput (witness : TransferWitness) (addr : Bytes32) : Prop :=
  ∃ note ∈ witness.outputs, note.ownerPubkey = addr.bytes

/-- The hash of the address is neither of the two sentinels. -/
def BetweenSentinels (sha256 : Bytes → Bytes32) (addr : Bytes32) : Prop :=
  minSentinel < hashAddr sha256 addr ∧ hashAddr sha256 addr < maxSentinel

/-- Two leaves at adjacent positions under the root enclose the hash of the address. -/
def EnclosedUnder (sha256 : Bytes → Bytes32) (root addr : Bytes32) : Prop :=
  ∃ left right leftProof rightProof index depth,
    left < hashAddr sha256 addr ∧ hashAddr sha256 addr < right ∧
    verifyMerkleProof sha256 (hashLeaf sha256 left) index leftProof root depth = true ∧
    verifyMerkleProof sha256 (hashLeaf sha256 right) (index + 1) rightProof root depth = true

/-- The addresses a sanctions root leaves open, a zero root standing for any root. -/
def ClearableUnder (sha256 : Bytes → Bytes32) (root addr : Bytes32) : Prop :=
  if root = zeroBytes then BetweenSentinels sha256 addr else EnclosedUnder sha256 root addr

/-- Every sanctions run the aggregator accepts beside a transfer is about an owner of an output. -/
def AggregateLinked (sha256 : Bytes → Bytes32) (verifySp1Proof : VkHash → Bytes32 → Outcome Unit)
    (transferVkHash sanctionsVkHash : VkHash) (witness : TransferWitness)
    (out : TransferPublicOutputs) : Prop :=
  ∀ sanctions sanctionsOut combined, sanctionsMain sha256 sanctions = .ok sanctionsOut →
    combinedMain sha256 verifySp1Proof
      (aggregate transferVkHash sanctionsVkHash out sanctionsOut) = .ok combined →
    OwnsOutput witness sanctions.recipient

def SanctionsPublicOutputs.publicInputs (out : SanctionsPublicOutputs) : SanctionsPublicInputs where
  recipientCommitment := out.recipientCommitment
  sanctionsRoot := out.sanctionsRoot
  proofTimestamp := out.proofTimestamp

/-- The message states the public outputs of a transfer run. -/
structure CarriesTransfer (msg : TransferMessage) (out : TransferPublicOutputs) : Prop where
  nullifiers : msg.nullifiers.map Nullifier.hash = out.nullifiers
  outputCommitments : msg.outputCommitments.map Commitment.hash = out.outputCommitments
  publicInputs : msg.publicInputs = ⟨out.transferAmount, ⟨out.assetId⟩, out.merkleRoot⟩

/-- Every sanctions run that an accepted message carries beside a transfer is about an owner of an
output. -/
def MessageLinked (b : Build) (nowSecs : UInt64) (s : ObscuraPrivacy) (witness : TransferWitness)
    (out : TransferPublicOutputs) : Prop :=
  ∀ msg sanctions sanctionsOut s', CarriesTransfer msg out →
    sanctionsMain b.sha256 sanctions = .ok sanctionsOut →
    msg.sanctionsPublicInputs = sanctionsOut.publicInputs →
    handleTransfer b nowSecs msg s = .ok s' → OwnsOutput witness sanctions.recipient

section RecipientLink

variable {sha256 : Bytes → Bytes32}

/-- An enclosed address has an accepted sanctions run under the root, with any timestamp. -/
theorem enclosed_accepted {root addr : Bytes32} (timestamp : UInt64)
    (h : EnclosedUnder sha256 root addr) :
    ∃ sanctions, sanctionsMain sha256 sanctions = .ok (sanctions.outputs sha256) ∧
      sanctions.recipient = addr ∧ sanctions.sanctionsRoot = root ∧
      sanctions.proofTimestamp = timestamp := by
  obtain ⟨left, right, leftProof, rightProof, index, depth, habove, hbelow, hleft, hright⟩ := h
  obtain ⟨hleftLength, hleftWalk⟩ := verifyMerkleProof_iff.mp hleft
  obtain ⟨hrightLength, hrightWalk⟩ := verifyMerkleProof_iff.mp hright
  refine ⟨⟨addr, root, left, right, leftProof, rightProof, index, index + 1, depth, timestamp⟩,
    sanctionsMain_ok.mpr ⟨?_, rfl⟩, rfl, rfl, rfl⟩
  exact ⟨rfl, habove, hbelow, hleftLength, hleftWalk, hrightLength, hrightWalk⟩

theorem accepted_enclosed {sanctions : SanctionsWitness} (h : SanctionsAccepted sha256 sanctions) :
    EnclosedUnder sha256 sanctions.sanctionsRoot sanctions.recipient := by
  refine ⟨sanctions.leftLeaf, sanctions.rightLeaf, sanctions.leftProof, sanctions.rightProof,
    sanctions.leftIndex, sanctions.treeDepth, h.above, h.below,
    verifyMerkleProof_iff.mpr ⟨h.leftLength, h.leftWalk⟩,
    verifyMerkleProof_iff.mpr ⟨h.rightLength, ?_⟩⟩
  rw [h.adjacent]
  exact h.rightWalk

/-- A root can be found for every address whose hash is no sentinel: that of the empty list. -/
theorem enclosed_under_some {addr : Bytes32} :
    (∃ root, EnclosedUnder sha256 root addr) ↔ BetweenSentinels sha256 addr := by
  constructor
  · intro h
    obtain ⟨root, left, right, _, _, _, _, habove, hbelow, _⟩ := h
    exact ⟨lt_of_le_of_lt (FixedBytes.replicate_zero_le left) habove,
      lt_of_lt_of_le hbelow (FixedBytes.le_replicate_max right)⟩
  · intro h
    refine ⟨hashNode sha256 (hashLeaf sha256 minSentinel) (hashLeaf sha256 maxSentinel),
      minSentinel, maxSentinel, [hashLeaf sha256 maxSentinel], [hashLeaf sha256 minSentinel], 0, 1,
      h.1, h.2, ?_, ?_⟩
    · exact verifyMerkleProof_iff.mpr ⟨rfl, rfl⟩
    · exact verifyMerkleProof_iff.mpr ⟨rfl, rfl⟩

theorem aggregate_linked_iff {verifySp1Proof : VkHash → Bytes32 → Outcome Unit}
    {transferVkHash sanctionsVkHash : VkHash}
    (complete : RecursionComplete sha256 verifySp1Proof transferVkHash sanctionsVkHash)
    {witness : TransferWitness} {out : TransferPublicOutputs}
    (h : transferMain sha256 witness = .ok out) (hlen : witness.inputs.length < 2 ^ 64) :
    AggregateLinked sha256 verifySp1Proof transferVkHash sanctionsVkHash witness out ↔
      ∀ addr, BetweenSentinels sha256 addr → OwnsOutput witness addr := by
  constructor
  · intro linked addr hbetween
    obtain ⟨root, henclosed⟩ := enclosed_under_some.mpr hbetween
    obtain ⟨sanctions, hs, rfl, _, htime⟩ := enclosed_accepted 1 henclosed
    have hpositive : 0 < (sanctions.outputs sha256).proofTimestamp := by
      show 0 < sanctions.proofTimestamp
      rw [htime]
      decide
    obtain ⟨combined, hcombined⟩ := (combinedMain_runs complete h hs hlen).mpr hpositive
    exact linked sanctions _ combined hs hcombined
  · intro hall sanctions sanctionsOut combined hs _
    have hclear := accepted_enclosed (sanctionsMain_ok.mp hs).1
    exact hall _ (enclosed_under_some.mp ⟨_, hclear⟩)

/-- An accepted message stays accepted with any other sanctions inputs of the root in force and a
fresh timestamp. -/
theorem handleTransfer_other_sanctions {b : Build} {nowSecs : UInt64} {msg : TransferMessage}
    {s s' : ObscuraPrivacy} (inputs : SanctionsPublicInputs)
    (h : handleTransfer b nowSecs msg s = .ok s')
    (hroot : s.currentSanctionsRoot = zeroBytes ∨ inputs.sanctionsRoot = s.currentSanctionsRoot)
    (hfresh : tooOld nowSecs inputs.proofTimestamp = false) :
    handleTransfer b nowSecs { msg with sanctionsPublicInputs := inputs } s = .ok s' := by
  obtain ⟨checks, hstored⟩ := handleTransfer_ok.mp h
  refine handleTransfer_ok.mpr ⟨⟨?_, hfresh, checks.sanctions, checks.unspent⟩, hstored⟩
  have hroots := checks.roots
  simp only [transferRootChecks, bind_ok, ensure_ok] at hroots ⊢
  obtain ⟨_, hknown, _, hproof, _⟩ := hroots
  exact ⟨(), hknown, (), hproof, hroot⟩

theorem message_linked_iff {b : Build} {nowSecs : UInt64} {s : ObscuraPrivacy}
    {witness : TransferWitness} {out : TransferPublicOutputs}
    (h : ∃ msg s', CarriesTransfer msg out ∧ handleTransfer b nowSecs msg s = .ok s') :
    MessageLinked b nowSecs s witness out ↔
      ∀ addr, ClearableUnder b.sha256 s.currentSanctionsRoot addr → OwnsOutput witness addr := by
  constructor
  · intro linked addr hclear
    obtain ⟨msg, s', hcarries, hhandled⟩ := h
    have hrun : ∃ root, EnclosedUnder b.sha256 root addr ∧
        (s.currentSanctionsRoot = zeroBytes ∨ root = s.currentSanctionsRoot) := by
      unfold ClearableUnder at hclear
      split at hclear
      next hzero =>
        obtain ⟨root, hroot⟩ := enclosed_under_some.mpr hclear
        exact ⟨root, hroot, Or.inl hzero⟩
      next => exact ⟨_, hclear, Or.inr rfl⟩
    obtain ⟨root, henclosed, hcurrent⟩ := hrun
    obtain ⟨sanctions, hs, rfl, rfl, htime⟩ := enclosed_accepted 0 henclosed
    have hfresh : tooOld nowSecs (sanctions.outputs b.sha256).publicInputs.proofTimestamp =
        false := by
      show tooOld nowSecs sanctions.proofTimestamp = false
      rw [htime]
      rfl
    have hother := handleTransfer_other_sanctions (sanctions.outputs b.sha256).publicInputs hhandled
      hcurrent hfresh
    have hsame : CarriesTransfer
        { msg with sanctionsPublicInputs := (sanctions.outputs b.sha256).publicInputs } out :=
      { hcarries with }
    exact linked _ sanctions _ s' hsame hs rfl hother
  · intro hall msg sanctions sanctionsOut s' _ hs hinputs hhandled
    obtain ⟨haccepted, rfl⟩ := sanctionsMain_ok.mp hs
    have henclosed := accepted_enclosed haccepted
    have hroots := (handleTransfer_ok.mp hhandled).1.roots
    simp only [transferRootChecks, bind_ok, ensure_ok] at hroots
    obtain ⟨_, _, _, _, hcurrent⟩ := hroots
    apply hall
    unfold ClearableUnder
    split
    next => exact enclosed_under_some.mp ⟨_, henclosed⟩
    next hzero =>
      have hroot := hcurrent.resolve_left hzero
      rw [hinputs] at hroot
      exact hroot ▸ henclosed

end RecipientLink

/-- The sanctions run beside an accepted transfer is always about an owner of an output exactly when
every address that can be cleared at all owns one. -/
theorem recipient_link_iff {b : Build} {witness : TransferWitness} {out : TransferPublicOutputs}
    (h : transferMain b.sha256 witness = .ok out) (hlen : witness.inputs.length < 2 ^ 64)
    {verifySp1Proof : VkHash → Bytes32 → Outcome Unit} {transferVkHash sanctionsVkHash : VkHash}
    (complete : RecursionComplete b.sha256 verifySp1Proof transferVkHash sanctionsVkHash) :
    (AggregateLinked b.sha256 verifySp1Proof transferVkHash sanctionsVkHash witness out ↔
      ∀ addr, BetweenSentinels b.sha256 addr → OwnsOutput witness addr) ∧
    ∀ nowSecs s,
      (∃ msg s', CarriesTransfer msg out ∧ handleTransfer b nowSecs msg s = .ok s') →
      (MessageLinked b nowSecs s witness out ↔
        ∀ addr, ClearableUnder b.sha256 s.currentSanctionsRoot addr → OwnsOutput witness addr) :=
  ⟨aggregate_linked_iff complete h hlen, fun _ _ hcarried => message_linked_iff hcarried⟩

open Classical in
/-- Ideal recursion: what verifies under a key are the digests of the outputs of accepted runs. -/
noncomputable def idealVerifier (sha256 : Bytes → Bytes32) (transferVkHash sanctionsVkHash : VkHash)
    (vkHash : VkHash) (digest : Bytes32) : Outcome Unit :=
  ensure ((vkHash = transferVkHash ∧ ∃ witness out, transferMain sha256 witness = .ok out ∧
        digest = sha256 (transferOutputsCodec.encode out)) ∨
      (vkHash = sanctionsVkHash ∧ ∃ witness out, sanctionsMain sha256 witness = .ok out ∧
        digest = sha256 (sanctionsOutputsCodec.encode out)))
    (.panic "proof verification failed")

theorem idealVerifier_complete (sha256 : Bytes → Bytes32)
    (transferVkHash sanctionsVkHash : VkHash) :
    RecursionComplete sha256 (idealVerifier sha256 transferVkHash sanctionsVkHash) transferVkHash
      sanctionsVkHash where
  transfer := by
    intro witness out h
    classical exact ensure_true (Or.inl ⟨rfl, witness, out, h, rfl⟩)
  sanctions := by
    intro witness out h
    classical exact ensure_true (Or.inr ⟨rfl, witness, out, h, rfl⟩)

def sampleVkHash (word : UInt32) : VkHash := ⟨List.replicate 8 word, rfl⟩

/-- A message with mock proofs that carries a transfer run. -/
def carryingMessage (out : TransferPublicOutputs) : TransferMessage where
  proof := mockHeader
  publicInputs := ⟨out.transferAmount, ⟨out.assetId⟩, out.merkleRoot⟩
  nullifiers := out.nullifiers.map Nullifier.mk
  outputCommitments := out.outputCommitments.map Commitment.mk
  sanctionsProof := mockHeader
  sanctionsPublicInputs := ⟨zeroBytes, zeroBytes, 0⟩
  encryptedOutputs := []

theorem carryingMessage_carries (out : TransferPublicOutputs) :
    CarriesTransfer (carryingMessage out) out where
  nullifiers := by simp [carryingMessage, Function.comp_def]
  outputCommitments := by simp [carryingMessage, Function.comp_def]
  publicInputs := rfl

/-- A unit note is shielded and spent: the transfer run and the state that accepts its message. -/
theorem unit_transfer :
    ∃ paths root out s s',
      transferMain sha256 (honestWitness paths root [⟨unitNote unitOwner, 0, zeroBytes⟩]
        [unitNote unitOwner]) = .ok out ∧
      handleTransfer .default 0 (carryingMessage out) s = .ok s' := by
  obtain ⟨s, paths, hs, _, _, hknown, hspec⟩ := inserted_paths .default
    [⟨sha256 (noteMessage 1 zeroBytes unitOwner zeroBytes)⟩] (by decide)
  obtain ⟨out, hout, hhonest⟩ := honest_accepted (by decide) hspec (unit_honest sha256 unitOwner)
  have hfaithful := storeOutputs_faithful (genesis_tree_faithful .default) hs
  have hledger := storeOutputs_ledger hs
  have hroot : s.isKnownRoot (carryingMessage out).publicInputs.merkleRoot = true := by
    show s.isKnownRoot out.merkleRoot = true
    rw [hhonest.merkleRoot]
    exact hknown (by simp)
  have hunset : s.currentSanctionsRoot = zeroBytes := by
    rw [currentSanctionsRoot, hledger.sanctionsRoot]
    rfl
  have hchecks : TransferChecks .default 0 (carryingMessage out) s := by
    refine mock_transferChecks rfl rfl (Or.inr hroot) (Or.inl hunset) rfl ?_
    intro nullifier _
    rw [isSpent, hledger.nullifiers]
    rfl
  have hroom : (s.markAllSpent (carryingMessage out).nullifiers).commitments.length +
      (carryingMessage out).outputCommitments.length ≤ 2 ^ treeDepth := by
    have hone := hhonest.outputCommitments.length_eq
    have htree := congrArg CommitmentTree.commitments
      (markAllSpent_tree (carryingMessage out).nullifiers s)
    simp only [tree] at htree
    rw [htree, hfaithful.2]
    simp only [carryingMessage, List.length_map, ← hone]
    decide
  obtain ⟨t, ht⟩ := (storeOutputs_isOk [] 0 _ (markAllSpent_faithful hfaithful.1 _)).mpr hroom
  have hcounted : ∃ s', updateCompliance .default out.transferAmount t = .ok s' := by
    have hunchecked : Build.default.overflowChecks = false := rfl
    simp only [updateCompliance, addU64_unchecked hunchecked, ok_bind]
    exact ⟨_, rfl⟩
  obtain ⟨s', hs'⟩ := hcounted
  exact ⟨paths, _, out, s, s', hout, handleTransfer_ok.mpr ⟨hchecks, t, ht, hs'⟩⟩

theorem recipient_link_iff_unit :
    ∃ witness out s,
      (AggregateLinked sha256 (idealVerifier sha256 (sampleVkHash 1) (sampleVkHash 2))
          (sampleVkHash 1) (sampleVkHash 2) witness out ↔
        ∀ addr, BetweenSentinels sha256 addr → OwnsOutput witness addr) ∧
      (MessageLinked .default 0 s witness out ↔
        ∀ addr, ClearableUnder sha256 s.currentSanctionsRoot addr → OwnsOutput witness addr) := by
  obtain ⟨paths, root, out, s, s', hout, hs'⟩ := unit_transfer
  have hone : (1 : Nat) < 2 ^ 64 := by decide
  have hlink := recipient_link_iff (b := .default) hout hone
    (idealVerifier_complete sha256 (sampleVkHash 1) (sampleVkHash 2))
  exact ⟨_, out, s, hlink.1, hlink.2 0 s ⟨_, s', carryingMessage_carries out, hs'⟩⟩

/-- The only owner of an output is on the list; the sanctions run is about another address. -/
theorem listed_owner_aggregated :
    ∃ paths root out combined,
      transferMain sha256 (honestWitness paths root [⟨unitNote unitOwner, 0, zeroBytes⟩]
        [unitNote unitOwner]) = .ok out ∧
      sanctionsMain sha256 { cleanWitness with proofTimestamp := 1 } =
        .ok (SanctionsWitness.outputs sha256 { cleanWitness with proofTimestamp := 1 }) ∧
      combinedMain sha256 (idealVerifier sha256 (sampleVkHash 1) (sampleVkHash 2))
        (aggregate (sampleVkHash 1) (sampleVkHash 2) out
          (SanctionsWitness.outputs sha256 { cleanWitness with proofTimestamp := 1 })) =
        .ok combined ∧
      ¬OwnsOutput (honestWitness paths root [⟨unitNote unitOwner, 0, zeroBytes⟩]
        [unitNote unitOwner]) cleanWitness.recipient := by
  obtain ⟨paths, root, out, _, _, hout, _⟩ := unit_transfer
  have hclean : SanctionsAccepted sha256 { cleanWitness with proofTimestamp := 1 } :=
    { cleanWitness_accepted with }
  have hs := sanctionsMain_ok.mpr ⟨hclean, rfl⟩
  have hcomplete := idealVerifier_complete sha256 (sampleVkHash 1) (sampleVkHash 2)
  have hone : (1 : Nat) < 2 ^ 64 := by decide
  have hpositive : (0 : UInt64) < 1 := by decide
  obtain ⟨combined, hcombined⟩ := (combinedMain_runs hcomplete hout hs hone).mpr hpositive
  refine ⟨paths, root, out, combined, hout, hs, hcombined, ?_⟩
  intro howns
  obtain ⟨note, hnote, howner⟩ := howns
  obtain rfl := List.mem_singleton.mp hnote
  exact absurd howner (by decide)

end ObscuraNetwork
