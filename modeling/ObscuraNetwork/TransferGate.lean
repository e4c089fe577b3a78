import ObscuraNetwork.InsertedLeaves
import ObscuraNetwork.KnownRoots
import ObscuraNetwork.PlantedLeaf

namespace ObscuraNetwork

open ObscuraPrivacy

/-- The statement of a transfer is about a recent commitment tree, the stored sanctions root and
the last 24 hours. -/
structure TransferGate (b : Build) (nowSecs : UInt64) (msg : TransferMessage)
    (s : ObscuraPrivacy) : Prop where
  merkleRoot : RecentRoot b s.tree.leaves msg.publicInputs.merkleRoot
  sanctionsRoot : s.sanctionsRoot = some msg.sanctionsPublicInputs.sanctionsRoot
  notStale : nowSecs.toNat ≤ msg.sanctionsPublicInputs.proofTimestamp.toNat + 86400
  notFuture : msg.sanctionsPublicInputs.proofTimestamp ≤ nowSecs

/-- The gates with the openings the handler leaves on purpose: the zero root of mock proofs, no
sanctions root set yet, no timestamp given. -/
structure OpenTransferGate (b : Build) (nowSecs : UInt64) (msg : TransferMessage)
    (s : ObscuraPrivacy) : Prop where
  merkleRoot : msg.publicInputs.merkleRoot = zeroBytes ∨
    RecentRoot b s.tree.leaves msg.publicInputs.merkleRoot
  sanctionsRoot : s.currentSanctionsRoot = zeroBytes ∨
    s.sanctionsRoot = some msg.sanctionsPublicInputs.sanctionsRoot
  notStale : msg.sanctionsPublicInputs.proofTimestamp = 0 ∨
    nowSecs.toNat ≤ msg.sanctionsPublicInputs.proofTimestamp.toNat + 86400

theorem tooOld_eq_false {now timestamp : UInt64} :
    tooOld now timestamp = false ↔ timestamp = 0 ∨ now.toNat ≤ timestamp.toNat + 86400 := by
  have hage : sanctionsProofMaxAgeSecs.toNat = 86400 := rfl
  have hzero : timestamp = 0 ↔ timestamp.toNat = 0 := by
    rw [← UInt64.toNat_inj, UInt64.toNat_zero]
  simp only [tooOld, Bool.and_eq_false_iff, decide_eq_false_iff_not, UInt64.lt_iff_toNat_lt,
    UInt64.toNat_zero, toNat_saturatingSub, hage, hzero]
  omega

theorem currentSanctionsRoot_eq {s : ObscuraPrivacy} {root : Bytes32} :
    (s.currentSanctionsRoot = zeroBytes ∨ root = s.currentSanctionsRoot) ↔
      s.currentSanctionsRoot = zeroBytes ∨ s.sanctionsRoot = some root := by
  cases h : s.sanctionsRoot with
  | none => simp [currentSanctionsRoot, h]
  | some stored => simp [currentSanctionsRoot, h, eq_comm]

/-- The three gates of `handle_transfer` are the open ones, in a state whose tree is the list's. -/
theorem transferChecks_gate {b : Build} {nowSecs : UInt64} {msg : TransferMessage}
    {s : ObscuraPrivacy} (hs : s.tree.Faithful b) (hroots : s.tree.KeepsRoots b)
    (h : TransferChecks b nowSecs msg s) : OpenTransferGate b nowSecs msg s := by
  have hchecks := h.roots
  simp only [transferRootChecks, bind_ok, ensure_ok, isKnownRoot_iff hs hroots] at hchecks
  obtain ⟨_, hmerkle, _, _, hsanctions⟩ := hchecks
  exact ⟨hmerkle, currentSanctionsRoot_eq.mp hsanctions, tooOld_eq_false.mp h.fresh⟩

/-- In every reachable state an accepted transfer has passed the open gates. -/
theorem accepted_transfer_gate (b : Build) (config : BridgeConfig) (txs : List Tx)
    (ctx : TxContext) (msg : TransferMessage) (s' : Runtime)
    (h : Runtime.call b ⟨ctx, .obscuraPrivacy (.transfer msg)⟩ (Runtime.run b config txs) =
      .ok s') :
    OpenTransferGate b ctx.nowSecs msg (Runtime.run b config txs).obscuraPrivacy := by
  obtain ⟨hs, hroots⟩ := run_keepsRoots b config txs
  cases Runtime.step_of_call_ok h with
  | transfer ctx msg privacy hp =>
    obtain ⟨hchecks, _⟩ := handleTransfer_ok.mp hp
    exact transferChecks_gate hs hroots hchecks

/-- A mock transfer of nothing, under no root and at no time. -/
def idleTransfer : TransferMessage where
  proof := mockHeader
  publicInputs := ⟨0, ⟨zeroBytes⟩, zeroBytes⟩
  nullifiers := []
  outputCommitments := []
  sanctionsProof := mockHeader
  sanctionsPublicInputs := ⟨zeroBytes, zeroBytes, 0⟩
  encryptedOutputs := []

section Sample

def gateLeaf : Bytes32 := sha256 (noteMessage 5 zeroBytes (List.replicate 32 1) zeroBytes)

/-- Anyone sends a sanctions root, and a note is shielded twice. -/
def gateRun : List Tx :=
  [⟨⟨[], 0⟩, .obscuraPrivacy (.updateSanctionsRoot ⟨FixedBytes.replicate 32 5⟩)⟩,
    sampleShield [], sampleShield []]

/-- A transfer under the root between the two deposits, with a screening of half a day ago. -/
def gatedTransfer : TransferMessage :=
  { idleTransfer with
    publicInputs := ⟨5, ⟨zeroBytes⟩, fullRoot sha256 [gateLeaf]⟩
    nullifiers := [⟨FixedBytes.replicate 32 9⟩]
    outputCommitments := [⟨FixedBytes.replicate 32 8⟩]
    sanctionsPublicInputs := ⟨zeroBytes, FixedBytes.replicate 32 5, 956800⟩ }

theorem gateRun_leaves :
    (Runtime.run .default .default gateRun).obscuraPrivacy.tree.leaves = [gateLeaf, gateLeaf] := rfl

theorem gateRun_recentRoot :
    RecentRoot .default (Runtime.run .default .default gateRun).obscuraPrivacy.tree.leaves
      gatedTransfer.publicInputs.merkleRoot := by
  rw [gateRun_leaves]
  exact ⟨1, by decide, by decide, by decide, rfl⟩

theorem gatedTransfer_accepted :
    ∃ s', Runtime.call .default ⟨⟨[], 1000000⟩, .obscuraPrivacy (.transfer gatedTransfer)⟩
      (Runtime.run .default .default gateRun) = .ok s' := by
  obtain ⟨hs, hroots⟩ := run_keepsRoots .default .default gateRun
  have hknown := (isKnownRoot_iff hs hroots _).mpr gateRun_recentRoot
  have hchecks : TransferChecks .default 1000000 gatedTransfer
      (Runtime.run .default .default gateRun).obscuraPrivacy := by
    refine mock_transferChecks rfl rfl (Or.inr hknown) (Or.inr rfl) (by decide) ?_
    intro nullifier hnullifier
    rw [List.mem_singleton.mp hnullifier]
    rfl
  obtain ⟨privacy, hp⟩ : ∃ privacy, handleTransfer .default 1000000 gatedTransfer
      (Runtime.run .default .default gateRun).obscuraPrivacy = .ok privacy :=
    ⟨_, handleTransfer_ok.mpr ⟨hchecks, _, rfl, rfl⟩⟩
  exact ⟨_, bind_ok.mpr ⟨privacy, hp, rfl⟩⟩

def gateDigests : List Nat :=
  Sha256.eager (Sha256.digest (noteMessage 5 zeroBytes (List.replicate 32 1) zeroBytes))
    fun leaf => spineDigests treeDepth leaf 0

theorem gateDigests_nonzero : zeroBytes ∉ gateDigests.map Sha256.toBytes32 := by decide +kernel

theorem gatedTransfer_root : gatedTransfer.publicInputs.merkleRoot ≠ zeroBytes := by
  have hdigests := gateDigests_nonzero
  rw [gateDigests, Sha256.eager_eq] at hdigests
  exact fullRoot_single_ne_zero (sha256_eq _).symm hdigests

/-- None of the openings is used: the transfer passes the whole gate. -/
theorem accepted_transfer_gate_run :
    let s := (Runtime.run .default .default gateRun).obscuraPrivacy
    (∃ s', Runtime.call .default ⟨⟨[], 1000000⟩, .obscuraPrivacy (.transfer gatedTransfer)⟩
      (Runtime.run .default .default gateRun) = .ok s') ∧
    OpenTransferGate .default 1000000 gatedTransfer s ∧
      TransferGate .default 1000000 gatedTransfer s := by
  intro s
  obtain ⟨s', hs'⟩ := gatedTransfer_accepted
  have hgate := accepted_transfer_gate .default .default gateRun ⟨[], 1000000⟩ gatedTransfer s' hs'
  have hset : s.currentSanctionsRoot ≠ zeroBytes := by decide
  have htime : gatedTransfer.sanctionsPublicInputs.proofTimestamp ≠ 0 := by decide
  exact ⟨⟨s', hs'⟩, hgate, hgate.merkleRoot.resolve_left gatedTransfer_root,
    hgate.sanctionsRoot.resolve_left hset, hgate.notStale.resolve_left htime, by decide⟩

end Sample

/-- At genesis no root, no sanctions root and no time bound the transfer. -/
theorem idle_transfer_passes :
    ∃ s', Runtime.call .default ⟨⟨[], 1000000⟩, .obscuraPrivacy (.transfer idleTransfer)⟩
        (Runtime.run .default .default []) = .ok s' ∧
      let s := (Runtime.run .default .default []).obscuraPrivacy
      ¬TransferGate .default 1000000 idleTransfer s ∧
      ¬RecentRoot .default s.tree.leaves idleTransfer.publicInputs.merkleRoot ∧
      s.sanctionsRoot ≠ some idleTransfer.sanctionsPublicInputs.sanctionsRoot ∧
      ¬(1000000 : UInt64).toNat ≤
        idleTransfer.sanctionsPublicInputs.proofTimestamp.toNat + 86400 := by
  have hempty : ¬RecentRoot .default (Runtime.run .default .default []).obscuraPrivacy.tree.leaves
      idleTransfer.publicInputs.merkleRoot := by
    intro h
    obtain ⟨n, hpos, hle, _⟩ := h
    have : (Runtime.run .default .default []).obscuraPrivacy.tree.leaves.length = 0 := rfl
    omega
  refine ⟨_, rfl, fun h => hempty h.merkleRoot, hempty, ?_, by decide⟩
  intro h
  cases h

end ObscuraNetwork
