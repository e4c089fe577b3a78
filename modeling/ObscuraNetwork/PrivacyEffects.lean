import ObscuraNetwork.PrivacyModule

namespace ObscuraNetwork

/-- The part of the storage that `insert_commitment` and the flat list make up. -/
structure CommitmentTree where
  commitments : List Commitment
  merkleRoot : Option Bytes32
  merkleNextIndex : Option UInt64
  merkleFilledSubtrees : StateMap Nat Bytes32
  merkleRoots : StateMap UInt64 Bytes32
  merkleRootsCount : Option UInt64

namespace ObscuraPrivacy

def tree (s : ObscuraPrivacy) : CommitmentTree where
  commitments := s.commitments
  merkleRoot := s.merkleRoot
  merkleNextIndex := s.merkleNextIndex
  merkleFilledSubtrees := s.merkleFilledSubtrees
  merkleRoots := s.merkleRoots
  merkleRootsCount := s.merkleRootsCount

/-- The same storage outside the tree and the encrypted notes. -/
structure SameLedger (s s' : ObscuraPrivacy) : Prop where
  nullifiers : s'.nullifiers = s.nullifiers
  shieldedSupply : s'.shieldedSupply = s.shieldedSupply
  complianceTxCount : s'.complianceTxCount = s.complianceTxCount
  complianceTotalVolume : s'.complianceTotalVolume = s.complianceTotalVolume
  sanctionsRoot : s'.sanctionsRoot = s.sanctionsRoot
  sanctionsOracle : s'.sanctionsOracle = s.sanctionsOracle

theorem SameLedger.refl (s : ObscuraPrivacy) : SameLedger s s := ⟨rfl, rfl, rfl, rfl, rfl, rfl⟩

theorem SameLedger.trans {s t u : ObscuraPrivacy} (h : SameLedger s t) (h' : SameLedger t u) :
    SameLedger s u :=
  ⟨h'.nullifiers.trans h.nullifiers, h'.shieldedSupply.trans h.shieldedSupply,
    h'.complianceTxCount.trans h.complianceTxCount,
    h'.complianceTotalVolume.trans h.complianceTotalVolume, h'.sanctionsRoot.trans h.sanctionsRoot,
    h'.sanctionsOracle.trans h.sanctionsOracle⟩

theorem SameLedger.supply {s s' : ObscuraPrivacy} (h : SameLedger s s') : s'.supply = s.supply := by
  funext asset
  simp only [ObscuraPrivacy.supply, h.shieldedSupply]

theorem pushCommitment_ledger (commitment : Commitment) (s : ObscuraPrivacy) :
    SameLedger s (s.pushCommitment commitment) := ⟨rfl, rfl, rfl, rfl, rfl, rfl⟩

@[simp] theorem storeEncryptedNote_tree (commitment : Commitment) (blob : Bytes)
    (s : ObscuraPrivacy) : (s.storeEncryptedNote commitment blob).tree = s.tree := by
  unfold storeEncryptedNote
  split <;> rfl

theorem storeEncryptedNote_ledger (commitment : Commitment) (blob : Bytes) (s : ObscuraPrivacy) :
    SameLedger s (s.storeEncryptedNote commitment blob) := by
  unfold storeEncryptedNote
  split
  · exact SameLedger.refl s
  · exact ⟨rfl, rfl, rfl, rfl, rfl, rfl⟩

@[simp] theorem setSupply_tree (asset : AssetId) (amount : UInt64) (s : ObscuraPrivacy) :
    (s.setSupply asset amount).tree = s.tree := rfl

@[simp] theorem setSupply_supply_self (asset : AssetId) (amount : UInt64) (s : ObscuraPrivacy) :
    (s.setSupply asset amount).supply asset = amount := by
  simp [supply, setSupply]

theorem setSupply_supply_of_ne {asset asset' : AssetId} (amount : UInt64) (s : ObscuraPrivacy)
    (h : asset' ≠ asset) : (s.setSupply asset amount).supply asset' = s.supply asset' := by
  simp only [supply, setSupply, StateMap.set_of_ne _ _ h]

theorem insertCommitment_ok {b : Build} {commitment : Commitment} {s s' : ObscuraPrivacy}
    (h : s.insertCommitment b commitment = .ok s') :
    (s.merkleNextIndex.getD 0).toNat < 2 ^ treeDepth ∧
    s' = { s with
      merkleFilledSubtrees := storeUpdates s.merkleFilledSubtrees
        (computeInsert b.sha256 commitment.hash (s.merkleNextIndex.getD 0) (s.filledSubtree b)).2
      merkleRoot := some
        (computeInsert b.sha256 commitment.hash (s.merkleNextIndex.getD 0) (s.filledSubtree b)).1
      merkleRoots := s.merkleRoots.set (s.merkleRootsCount.getD 0 % rootsHistorySize)
        (computeInsert b.sha256 commitment.hash (s.merkleNextIndex.getD 0) (s.filledSubtree b)).1
      merkleRootsCount := some (s.merkleRootsCount.getD 0 + 1)
      merkleNextIndex := some (s.merkleNextIndex.getD 0 + 1) } := by
  simp only [insertCommitment, bind_ok, ensure_ok, pure_ok] at h
  obtain ⟨_, room, count, hcount, next, hnext, rfl⟩ := h
  rw [addU64_ok hcount, addU64_ok hnext]
  exact ⟨room, rfl⟩

theorem insertCommitment_ledger {b : Build} {commitment : Commitment} {s s' : ObscuraPrivacy}
    (h : s.insertCommitment b commitment = .ok s') : SameLedger s s' := by
  obtain ⟨_, rfl⟩ := insertCommitment_ok h
  exact ⟨rfl, rfl, rfl, rfl, rfl, rfl⟩

theorem insertCommitment_commitments {b : Build} {commitment : Commitment} {s s' : ObscuraPrivacy}
    (h : insertCommitment b commitment (s.pushCommitment commitment) = .ok s') :
    s'.commitments = s.commitments ++ [commitment] := by
  obtain ⟨_, rfl⟩ := insertCommitment_ok h
  rfl

theorem handleShield_ok {b : Build} {msg : ShieldMessage} {s s' : ObscuraPrivacy} :
    handleShield b msg s = .ok s' ↔ ∃ commitment t total,
      Commitment.fromNote b.sha256 msg.note = .ok commitment ∧
      insertCommitment b commitment (s.pushCommitment commitment) = .ok t ∧
      addU64 b ((t.storeEncryptedNote commitment msg.encryptedNote).supply msg.note.assetId)
        msg.note.amount = .ok total ∧
      s' = (t.storeEncryptedNote commitment msg.encryptedNote).setSupply msg.note.assetId
        total := by
  simp only [handleShield, bind_ok, pure_ok]
  constructor
  · intro h
    obtain ⟨commitment, hc, t, ht, total, htotal, rfl⟩ := h
    exact ⟨commitment, t, total, hc, ht, htotal, rfl⟩
  · intro h
    obtain ⟨commitment, t, total, hc, ht, htotal, rfl⟩ := h
    exact ⟨commitment, hc, t, ht, total, htotal, rfl⟩

/-- The checks of `handle_transfer` before it writes. -/
structure TransferChecks (b : Build) (nowSecs : UInt64) (msg : TransferMessage)
    (s : ObscuraPrivacy) : Prop where
  roots : transferRootChecks b msg s = .ok ()
  fresh : tooOld nowSecs msg.sanctionsPublicInputs.proofTimestamp = false
  sanctions : verifySanctionsProof b msg.sanctionsProof msg.sanctionsPublicInputs = .ok ()
  unspent : ∀ nullifier ∈ msg.nullifiers, s.isSpent nullifier = false

/-- In the default build a transfer with mock proofs has to pass the other checks only. -/
theorem mock_transferChecks {nowSecs : UInt64} {msg : TransferMessage} {s : ObscuraPrivacy}
    (hproof : msg.proof = mockHeader) (hsanctionsProof : msg.sanctionsProof = mockHeader)
    (hroot : msg.publicInputs.merkleRoot = zeroBytes ∨
      s.isKnownRoot msg.publicInputs.merkleRoot = true)
    (hsanctions : s.currentSanctionsRoot = zeroBytes ∨
      msg.sanctionsPublicInputs.sanctionsRoot = s.currentSanctionsRoot)
    (hfresh : tooOld nowSecs msg.sanctionsPublicInputs.proofTimestamp = false)
    (hunspent : ∀ nullifier ∈ msg.nullifiers, s.isSpent nullifier = false) :
    TransferChecks .default nowSecs msg s := by
  refine ⟨?_, hfresh, ?_, hunspent⟩
  · simp only [transferRootChecks, bind_ok, ensure_ok, hproof]
    exact ⟨(), hroot, (), verifyProof_mockHeader _ _, hsanctions⟩
  · rw [hsanctionsProof]
    exact verifyProof_mockHeader _ _

theorem transferRootChecks_noPanic (b : Build) (msg : TransferMessage) (s : ObscuraPrivacy) :
    NoPanic (transferRootChecks b msg s) :=
  (noPanic_ensure _ _).bind fun _ _ => (verifyProof_noPanic _ _ _ _).bind fun _ _ =>
    noPanic_ensure _ _

theorem handleTransfer_ok {b : Build} {nowSecs : UInt64} {msg : TransferMessage}
    {s s' : ObscuraPrivacy} :
    handleTransfer b nowSecs msg s = .ok s' ↔ TransferChecks b nowSecs msg s ∧
      ∃ t, storeOutputs b msg.encryptedOutputs 0 msg.outputCommitments
          (s.markAllSpent msg.nullifiers) = .ok t ∧
        updateCompliance b msg.publicInputs.transferAmount t = .ok s' := by
  simp only [handleTransfer, finishTransfer, checkFreshness, checkUnspent, bind_ok, ensure_ok,
    ensureAll_ok]
  constructor
  · intro h
    obtain ⟨⟨⟩, hr, ⟨⟩, hf, ⟨⟩, hs, _, hu, t, ht, hc⟩ := h
    exact ⟨⟨hr, hf, hs, hu⟩, t, ht, hc⟩
  · intro h
    obtain ⟨⟨hr, hf, hs, hu⟩, t, ht, hc⟩ := h
    exact ⟨(), hr, (), hf, (), hs, (), hu, t, ht, hc⟩

theorem updateCompliance_ok {b : Build} {amount : UInt64} {s s' : ObscuraPrivacy}
    (h : updateCompliance b amount s = .ok s') :
    s' = { s with
      complianceTxCount := some (s.complianceTxCount.getD 0 + 1)
      complianceTotalVolume := some (s.complianceTotalVolume.getD 0 + amount) } := by
  simp only [updateCompliance, bind_ok, pure_ok] at h
  obtain ⟨count, hcount, volume, hvolume, rfl⟩ := h
  rw [addU64_ok hcount, addU64_ok hvolume]

theorem handleUnshield_ok {b : Build} {msg : UnshieldMessage} {s s' : ObscuraPrivacy} :
    handleUnshield b msg s = .ok s' ↔
      verifyUnshieldProof b msg.proof msg.publicInputs = .ok () ∧ s.isSpent msg.nullifier = false ∧
      s' = (s.markSpent msg.nullifier).setSupply msg.publicInputs.assetId
        (saturatingSub (s.supply msg.publicInputs.assetId) msg.publicInputs.amount) := by
  simp only [handleUnshield, bind_ok, ensure_ok, pure_ok]
  constructor
  · intro h
    obtain ⟨⟨⟩, hv, _, hs, rfl⟩ := h
    exact ⟨hv, hs, rfl⟩
  · intro h
    obtain ⟨hv, hs, rfl⟩ := h
    exact ⟨(), hv, (), hs, rfl⟩

theorem handleUpdateSanctionsRoot_ok {sender : Bytes} {msg : UpdateSanctionsRootMessage}
    {s s' : ObscuraPrivacy} (h : handleUpdateSanctionsRoot sender msg s = .ok s') :
    s' = { s with sanctionsRoot := some msg.newRoot } := by
  simp only [handleUpdateSanctionsRoot, bind_ok, pure_ok] at h
  obtain ⟨_, _, rfl⟩ := h
  rfl

theorem markAllSpent_eq (nullifiers : List Nullifier) (s : ObscuraPrivacy) :
    s.markAllSpent nullifiers = { s with
      nullifiers := nullifiers.foldl (fun m nullifier => m.set nullifier true) s.nullifiers } := by
  induction nullifiers generalizing s with
  | nil => rfl
  | cons nullifier rest ih => exact ih (s.markSpent nullifier)

theorem markAllSpent_tree (nullifiers : List Nullifier) (s : ObscuraPrivacy) :
    (s.markAllSpent nullifiers).tree = s.tree := by
  rw [markAllSpent_eq]
  rfl

/-- The output loop in one step: the stored tree after one commitment and the rest of the loop. -/
theorem storeOutputs_cons_ok {b : Build} {encryptedOutputs : List Bytes} {i : Nat}
    {commitment : Commitment} {rest : List Commitment} {s s' : ObscuraPrivacy} :
    storeOutputs b encryptedOutputs i (commitment :: rest) s = .ok s' ↔
      ∃ t u, insertCommitment b commitment (s.pushCommitment commitment) = .ok t ∧
        u.tree = t.tree ∧ SameLedger t u ∧
        u = (match encryptedOutputs[i]? with
          | some blob => t.storeEncryptedNote commitment blob
          | none => t) ∧
        storeOutputs b encryptedOutputs (i + 1) rest u = .ok s' := by
  simp only [storeOutputs, bind_ok]
  constructor
  · intro h
    obtain ⟨t, ht, h⟩ := h
    refine ⟨t, _, ht, ?_, ?_, rfl, h⟩
    · split <;> simp
    · split
      · exact storeEncryptedNote_ledger _ _ _
      · exact SameLedger.refl t
  · intro h
    obtain ⟨t, u, ht, _, _, rfl, h⟩ := h
    exact ⟨t, ht, h⟩

theorem storeOutputs_ledger {b : Build} {encryptedOutputs : List Bytes} {i : Nat}
    {outputs : List Commitment} {s s' : ObscuraPrivacy}
    (h : storeOutputs b encryptedOutputs i outputs s = .ok s') : SameLedger s s' := by
  induction outputs generalizing i s with
  | nil =>
    simp only [storeOutputs, pure_ok] at h
    exact h ▸ SameLedger.refl s
  | cons commitment rest ih =>
    obtain ⟨t, u, ht, _, hu, _, hrest⟩ := storeOutputs_cons_ok.mp h
    exact (((pushCommitment_ledger commitment s).trans (insertCommitment_ledger ht)).trans hu).trans
      (ih hrest)

theorem storeOutputs_commitments {b : Build} {encryptedOutputs : List Bytes} {i : Nat}
    {outputs : List Commitment} {s s' : ObscuraPrivacy}
    (h : storeOutputs b encryptedOutputs i outputs s = .ok s') :
    s'.commitments = s.commitments ++ outputs := by
  induction outputs generalizing i s with
  | nil =>
    simp only [storeOutputs, pure_ok] at h
    rw [h, List.append_nil]
  | cons commitment rest ih =>
    obtain ⟨t, u, ht, htree, _, _, hrest⟩ := storeOutputs_cons_ok.mp h
    have hu : u.commitments = t.commitments := congrArg CommitmentTree.commitments htree
    rw [ih hrest, hu, insertCommitment_commitments ht, List.append_assoc, List.singleton_append]

end ObscuraPrivacy

end ObscuraNetwork
