import ObscuraNetwork.Runtime

namespace ObscuraNetwork

namespace ObscuraBridge

variable {b : Build} {s : ObscuraBridge}

/-- What `handle_claim_deposit` has checked of a claim it accepts. -/
structure ClaimAccepted (b : Build) (claim : ClaimDeposit) (s : ObscuraBridge) : Prop where
  amount : claim.publicInputs.amount ≠ 0
  recipient : claim.publicInputs.obscuraRecipient ≠ FixedBytes.replicate 32 0
  contract : s.contract b = .ok claim.publicInputs.bridgeContract
  unclaimed : s.isProcessed
    (makeDepositKeyStr claim.publicInputs.bridgeContract claim.publicInputs.depositId) = false
  finalized : s.checkFinalized claim.publicInputs.ethBlockHash = .ok ()
  proof : verifyBridgeProof b claim.proof claim.publicInputs = .ok ()

theorem mapBail_ok {α : Type} {f : String → String} {x : Outcome α} {a : α} :
    mapBail f x = .ok a ↔ x = .ok a := by
  unfold mapBail
  split
  · simp
  · exact Iff.rfl

theorem claimChecks_ok {claim : ClaimDeposit} :
    claimChecks b claim s = .ok () ↔ ClaimAccepted b claim s := by
  simp only [claimChecks, bind_ok, ensure_ok, mapBail_ok]
  constructor
  · intro h
    obtain ⟨_, hamount, _, hrecipient, expected, hexpected, _, rfl, _, hnew, _, hfinal, hproof⟩ := h
    exact ⟨hamount, hrecipient, hexpected, hnew, hfinal, hproof⟩
  · intro h
    exact ⟨(), h.amount, (), h.recipient, _, h.contract, (), rfl, (), h.unclaimed, (), h.finalized,
      h.proof⟩

/-- The checks of `handle_withdraw_bridge` before it writes, with the amount it has read. -/
structure WithdrawChecks (b : Build) (msg : WithdrawBridge) (s : ObscuraBridge) (amount : UInt64) :
    Prop where
  claimed : ∃ contract, s.contract b = .ok contract ∧
    s.isProcessed (makeDepositKeyStr contract msg.depositId) = true
  fresh : s.isProcessed (withdrawalKey msg.depositId) = false
  claimedAmount : s.claimedAmounts msg.depositId = some amount
  nonzero : amount ≠ 0

theorem handleWithdrawBridge_checked {msg : WithdrawBridge} {amount : UInt64}
    (h : WithdrawChecks b msg s amount) :
    handleWithdrawBridge b msg s = (do
      let nextId ← addU64 b (s.nextWithdrawalId.getD 0) 1
      let withdrawn ← addU64 b (s.totalWithdrawnUsdc.getD 0) amount
      pure { s with
        nextWithdrawalId := some nextId
        processedDeposits := s.processedDeposits.set (withdrawalKey msg.depositId) true
        withdrawals := s.withdrawals.set (s.nextWithdrawalId.getD 0)
          ⟨s.nextWithdrawalId.getD 0, msg.depositId, msg.ethRecipient, amount, false⟩
        totalWithdrawnUsdc := some withdrawn }) := by
  obtain ⟨⟨contract, hcontract, hclaimed⟩, hfresh, hamount, hnonzero⟩ := h
  simp only [handleWithdrawBridge, hcontract, hclaimed, hfresh, hamount, Option.getD_some,
    ensure_true hnonzero, ensure_true, ok_bind]

theorem handleWithdrawBridge_ok {msg : WithdrawBridge} {s' : ObscuraBridge} :
    handleWithdrawBridge b msg s = .ok s' ↔ ∃ amount nextId withdrawn,
      WithdrawChecks b msg s amount ∧
      addU64 b (s.nextWithdrawalId.getD 0) 1 = .ok nextId ∧
      addU64 b (s.totalWithdrawnUsdc.getD 0) amount = .ok withdrawn ∧
      s' = { s with
        nextWithdrawalId := some nextId
        processedDeposits := s.processedDeposits.set (withdrawalKey msg.depositId) true
        withdrawals := s.withdrawals.set (s.nextWithdrawalId.getD 0)
          ⟨s.nextWithdrawalId.getD 0, msg.depositId, msg.ethRecipient, amount, false⟩
        totalWithdrawnUsdc := some withdrawn } := by
  constructor
  · intro h
    simp only [handleWithdrawBridge, bind_ok, ensure_ok, pure_ok] at h
    obtain ⟨contract, hcontract, _, hclaimed, _, hfresh, _, hnonzero, nextId, hnext, withdrawn,
      hsum, rfl⟩ := h
    cases hamount : s.claimedAmounts msg.depositId with
    | none => simp [hamount] at hnonzero
    | some amount =>
      simp only [hamount, Option.getD_some] at hnonzero hsum ⊢
      exact ⟨amount, nextId, withdrawn, ⟨⟨contract, hcontract, hclaimed⟩, hfresh, hamount,
        hnonzero⟩, hnext, hsum, rfl⟩
  · intro h
    obtain ⟨amount, nextId, withdrawn, hchecks, hnext, hsum, rfl⟩ := h
    rw [handleWithdrawBridge_checked hchecks, hnext, ok_bind, hsum]
    rfl

/-- What `handle_update_helios_head` has checked of an update it accepts. -/
structure UpdateAccepted (b : Build) (update : UpdateHeliosHead) (s : ObscuraBridge) : Prop where
  prevTrustedRoot : update.publicInputs.prevTrustedRoot =
    s.trustedBeaconRoot.getD (FixedBytes.replicate 32 0)
  newSlot : s.trustedSlot.getD 0 < update.publicInputs.newSlot
  slotGap : s.checkSlotGap update.publicInputs.newSlot = .ok ()
  proof : verifyHeliosProof b update.proof update.publicInputs = .ok ()

theorem handleUpdateHeliosHead_ok {update : UpdateHeliosHead} {s' : ObscuraBridge} :
    handleUpdateHeliosHead b update s = .ok s' ↔ UpdateAccepted b update s ∧ ∃ count,
      addU64 b (s.heliosUpdateCount.getD 0) 1 = .ok count ∧
      s' = { s with
        trustedBeaconRoot := some update.publicInputs.newBeaconRoot
        trustedSlot := some update.publicInputs.newSlot
        finalizedEthBlocks := s.finalizedEthBlocks.set
          (blockKey update.publicInputs.executionBlockHash) update.publicInputs.newSlot
        heliosUpdateCount := some count } := by
  simp only [handleUpdateHeliosHead, bind_ok, ensure_ok, pure_ok, mapBail_ok]
  constructor
  · intro h
    obtain ⟨_, hroot, _, hslot, _, hgap, _, hproof, count, hcount, rfl⟩ := h
    exact ⟨⟨hroot, hslot, hgap, hproof⟩, count, hcount, rfl⟩
  · intro h
    obtain ⟨hchecks, count, hcount, rfl⟩ := h
    exact ⟨(), hchecks.prevTrustedRoot, (), hchecks.newSlot, (), hchecks.slotGap, (), hchecks.proof,
      count, hcount, rfl⟩

end ObscuraBridge

end ObscuraNetwork
