import ObscuraNetwork.PoolAccounting

namespace ObscuraNetwork

open ObscuraPrivacy ObscuraBridge

theorem handleShield_spec {b : Build} {s : ObscuraPrivacy} (hs : s.tree.Faithful b)
    (msg : ShieldMessage) :
    (¬ShieldChecks msg s ∧ Refused (handleShield b msg s)) ∨
    ShieldChecks msg s ∧ ∃ t, SameCounters s t ∧ handleShield b msg s =
      addU64 b (s.supply msg.note.assetId) msg.note.amount >>= fun sum =>
        pure (t.setSupply msg.note.assetId sum) := by
  by_cases hchecks : ShieldChecks msg s
  · right
    refine ⟨hchecks, ?_⟩
    obtain ⟨commitment, hc⟩ : ∃ commitment,
        Commitment.fromNote b.sha256 msg.note = .ok commitment :=
      ⟨_, Commitment.fromNote_ok.mpr ⟨hchecks.amount, hchecks.ownerPubkey, rfl⟩⟩
    obtain ⟨t, ht⟩ := (insertCommitment_isOk hs commitment).mpr hchecks.room
    have hcounters := (((pushCommitment_ledger _ _).trans (insertCommitment_ledger ht)).trans
      (storeEncryptedNote_ledger commitment msg.encryptedNote t)).counters
    refine ⟨_, hcounters, ?_⟩
    simp only [handleShield, hc, ht, ok_bind, hcounters.supply]
  · left
    have hreach : ∀ commitment t, Commitment.fromNote b.sha256 msg.note = .ok commitment →
        insertCommitment b commitment (s.pushCommitment commitment) = .ok t →
        ShieldChecks msg s := by
      intro commitment t hc ht
      obtain ⟨hamount, hkey, _⟩ := Commitment.fromNote_ok.mp hc
      exact ⟨hamount, hkey, (insertCommitment_isOk hs commitment).mp ⟨t, ht⟩⟩
    refine ⟨hchecks, NoPanic.refused ?_ fun s' h => ?_⟩
    · exact (Commitment.fromNote_noPanic _ _).bind fun commitment hc =>
        (insertCommitment_noPanic hs commitment).bind fun t ht =>
          absurd (hreach commitment t hc ht) hchecks
    · obtain ⟨commitment, t, _, hc, ht, _, _⟩ := handleShield_ok.mp h
      exact hchecks (hreach commitment t hc ht)

theorem handleTransfer_spec {b : Build} {s : ObscuraPrivacy} (hs : s.tree.Faithful b)
    (nowSecs : UInt64) (msg : TransferMessage) :
    (¬(TransferChecks b nowSecs msg s ∧
        s.commitments.length + msg.outputCommitments.length ≤ 2 ^ treeDepth) ∧
      Refused (handleTransfer b nowSecs msg s)) ∨
    (TransferChecks b nowSecs msg s ∧
        s.commitments.length + msg.outputCommitments.length ≤ 2 ^ treeDepth) ∧
      ∃ t, SameCounters s t ∧ handleTransfer b nowSecs msg s =
        updateCompliance b msg.publicInputs.transferAmount t := by
  have hmarked := markAllSpent_faithful hs msg.nullifiers
  have hlen : (s.markAllSpent msg.nullifiers).commitments = s.commitments := by
    rw [markAllSpent_eq]
  have hroom := storeOutputs_isOk msg.encryptedOutputs 0 msg.outputCommitments hmarked
  rw [hlen] at hroom
  by_cases hchecks : TransferChecks b nowSecs msg s ∧
      s.commitments.length + msg.outputCommitments.length ≤ 2 ^ treeDepth
  · right
    refine ⟨hchecks, ?_⟩
    obtain ⟨⟨hroots, hfresh, hsanctions, hunspent⟩, hfits⟩ := hchecks
    obtain ⟨t, ht⟩ := hroom.mpr hfits
    refine ⟨t, (markAllSpent_counters _ _).trans (storeOutputs_ledger ht).counters, ?_⟩
    have hcheck : checkUnspent s msg.nullifiers = .ok () := ensureAll_ok.mpr hunspent
    simp only [handleTransfer, finishTransfer, checkFreshness, hroots, ensure_true hfresh,
      hsanctions, hcheck, ht, ok_bind]
  · left
    refine ⟨hchecks, NoPanic.refused ?_ fun s' h => ?_⟩
    · exact (transferRootChecks_noPanic _ _ _).bind fun _ hroots =>
        (noPanic_ensure _ _).bind fun _ hfresh =>
          (verifyProof_noPanic _ _ _ _).bind fun _ hsanctions =>
            (noPanic_ensureAll _ _ _).bind fun _ hunspent =>
              (storeOutputs_noPanic _ _ _ hmarked).bind fun t ht =>
                absurd ⟨⟨hroots, ensure_ok.mp hfresh, hsanctions, ensureAll_ok.mp hunspent⟩,
                  hroom.mp ⟨t, ht⟩⟩ hchecks
    · obtain ⟨checks, t, ht, _⟩ := handleTransfer_ok.mp h
      exact hchecks ⟨checks, hroom.mp ⟨t, ht⟩⟩

theorem handleUnshield_spec (b : Build) (s : ObscuraPrivacy) (msg : UnshieldMessage) :
    (¬(verifyUnshieldProof b msg.proof msg.publicInputs = .ok () ∧
        s.isSpent msg.nullifier = false) ∧ Refused (handleUnshield b msg s)) ∨
    (verifyUnshieldProof b msg.proof msg.publicInputs = .ok () ∧ s.isSpent msg.nullifier = false) ∧
      handleUnshield b msg s = .ok ((s.markSpent msg.nullifier).setSupply msg.publicInputs.assetId
        (saturatingSub (s.supply msg.publicInputs.assetId) msg.publicInputs.amount)) := by
  by_cases hchecks : verifyUnshieldProof b msg.proof msg.publicInputs = .ok () ∧
      s.isSpent msg.nullifier = false
  · exact Or.inr ⟨hchecks, handleUnshield_ok.mpr ⟨hchecks.1, hchecks.2, rfl⟩⟩
  · refine Or.inl ⟨hchecks, NoPanic.refused ?_ fun s' h => ?_⟩
    · exact (verifyProof_noPanic _ _ _ _).bind fun _ _ => (noPanic_ensure _ _).bind fun _ _ =>
        noPanic_ok _
    · obtain ⟨hproof, hunspent, _⟩ := handleUnshield_ok.mp h
      exact hchecks ⟨hproof, hunspent⟩

theorem handleClaimDeposit_spec {b : Build} {s : Runtime} (hs : s.obscuraPrivacy.tree.Faithful b)
    (claim : ClaimDeposit) :
    (¬(claimChecks b claim s.obscuraBridge = .ok () ∧
        s.obscuraPrivacy.commitments.length < 2 ^ treeDepth) ∧
      Refused (handleClaimDeposit b claim s)) ∨
    (claimChecks b claim s.obscuraBridge = .ok () ∧
        s.obscuraPrivacy.commitments.length < 2 ^ treeDepth) ∧
      ∃ (t : ObscuraPrivacy) (bridge : ObscuraBridge), SameCounters s.obscuraPrivacy t ∧
        handleClaimDeposit b claim s =
        addU64 b (s.obscuraPrivacy.supply bridgedUsdcAsset) claim.publicInputs.amount >>=
          fun shielded =>
        addU64 b s.obscuraBridge.totalBridged claim.publicInputs.amount >>= fun sum =>
        addU64 b s.obscuraBridge.claimCount 1 >>= fun claims =>
        pure ⟨t.setSupply bridgedUsdcAsset shielded,
          { bridge with totalBridgedUsdc := some sum, totalClaims := some claims }⟩ := by
  by_cases hchecks : claimChecks b claim s.obscuraBridge = .ok () ∧
      s.obscuraPrivacy.commitments.length < 2 ^ treeDepth
  · right
    refine ⟨hchecks, ?_⟩
    obtain ⟨t, ht⟩ := (insertCommitment_isOk hs ⟨claim.publicInputs.obscuraRecipient⟩).mpr hchecks.2
    have hcounters := ((pushCommitment_ledger _ _).trans (insertCommitment_ledger ht)).counters
    refine ⟨t, { s.obscuraBridge with
      processedDeposits := s.obscuraBridge.processedDeposits.set
        (makeDepositKeyStr claim.publicInputs.bridgeContract claim.publicInputs.depositId) true
      claimedAmounts := s.obscuraBridge.claimedAmounts.set claim.publicInputs.depositId
        claim.publicInputs.amount }, hcounters, ?_⟩
    simp only [handleClaimDeposit, hchecks.1, ht, ok_bind, hcounters.supply,
      totalBridged, claimCount]
  · left
    have hreach : ∀ t, insertCommitment b ⟨claim.publicInputs.obscuraRecipient⟩
        (s.obscuraPrivacy.pushCommitment ⟨claim.publicInputs.obscuraRecipient⟩) = .ok t →
        s.obscuraPrivacy.commitments.length < 2 ^ treeDepth :=
      fun t ht => (insertCommitment_isOk hs _).mp ⟨t, ht⟩
    refine ⟨hchecks, NoPanic.refused ?_ fun s' h => ?_⟩
    · exact (claimChecks_noPanic _ _ _).bind fun _ hc =>
        (insertCommitment_noPanic hs _).bind fun t ht => absurd ⟨hc, hreach t ht⟩ hchecks
    · obtain ⟨hc, t, _, _, _, ht, _⟩ := handleClaimDeposit_ok.mp h
      exact hchecks ⟨hc, hreach t ht⟩

end ObscuraNetwork
