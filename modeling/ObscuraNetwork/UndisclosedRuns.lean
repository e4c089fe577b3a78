import ObscuraNetwork.EncryptedNotes

namespace ObscuraNetwork

namespace ObscuraPrivacy

/-- The state as if no encrypted note had ever been stored. -/
def withoutNotes (s : ObscuraPrivacy) : ObscuraPrivacy := { s with encryptedNotes := fun _ => none }

end ObscuraPrivacy

/-- The message without the encrypted notes that come with it. -/
def CallMessage.withoutBlobs : CallMessage → CallMessage
  | .shield msg => .shield { msg with encryptedNote := [] }
  | .transfer msg => .transfer { msg with encryptedOutputs := [] }
  | msg => msg

def Tx.withoutBlobs (tx : Tx) : Tx :=
  match tx.call with
  | .obscuraPrivacy msg => ⟨tx.context, .obscuraPrivacy msg.withoutBlobs⟩
  | .obscuraBridge msg => ⟨tx.context, .obscuraBridge msg⟩

def Runtime.withoutNotes (s : Runtime) : Runtime :=
  { s with obscuraPrivacy := s.obscuraPrivacy.withoutNotes }

namespace ObscuraPrivacy

variable {b : Build} {s : ObscuraPrivacy}

theorem insertCommitment_withoutNotes (commitment : Commitment) (s : ObscuraPrivacy) :
    withoutNotes <$> insertCommitment b commitment s =
      insertCommitment b commitment s.withoutNotes := by
  simp only [insertCommitment, map_bind, map_pure]
  rfl

theorem storeEncryptedNote_withoutNotes (commitment : Commitment) (blob : Bytes)
    (s : ObscuraPrivacy) :
    (s.storeEncryptedNote commitment blob).withoutNotes = s.withoutNotes := by
  unfold storeEncryptedNote
  split
  · rfl
  · rfl

theorem storeOutputs_withoutNotes (blobs : List Bytes) (i : Nat) (outputs : List Commitment)
    (s : ObscuraPrivacy) :
    withoutNotes <$> storeOutputs b blobs i outputs s =
      storeOutputs b [] i outputs s.withoutNotes := by
  induction outputs generalizing i s with
  | nil => rfl
  | cons commitment rest ih =>
    have hpush : s.withoutNotes.pushCommitment commitment =
        (s.pushCommitment commitment).withoutNotes := rfl
    simp only [storeOutputs, map_bind, List.getElem?_nil, ih]
    rw [hpush, ← insertCommitment_withoutNotes, bind_map_left]
    refine congrArg _ (funext fun t => ?_)
    cases blobs[i]? with
    | none => rfl
    | some blob => rw [storeEncryptedNote_withoutNotes]

theorem handleShield_withoutNotes (msg : ShieldMessage) (s : ObscuraPrivacy) :
    withoutNotes <$> handleShield b msg s =
      handleShield b { msg with encryptedNote := [] } s.withoutNotes := by
  simp only [handleShield, map_bind, map_pure]
  refine congrArg _ (funext fun commitment => ?_)
  have hpush : s.withoutNotes.pushCommitment commitment =
      (s.pushCommitment commitment).withoutNotes := rfl
  rw [hpush, ← insertCommitment_withoutNotes, bind_map_left]
  refine congrArg _ (funext fun t => ?_)
  have hstored := storeEncryptedNote_withoutNotes commitment msg.encryptedNote t
  have hsupply : (t.storeEncryptedNote commitment msg.encryptedNote).supply msg.note.assetId =
      t.supply msg.note.assetId := by
    show (withoutNotes _).supply _ = t.withoutNotes.supply _
    rw [hstored]
  rw [hsupply]
  refine congrArg _ (funext fun total => ?_)
  show pure ((withoutNotes _).setSupply _ _) = pure (t.withoutNotes.setSupply _ _)
  rw [hstored]

theorem updateCompliance_withoutNotes (amount : UInt64) (s : ObscuraPrivacy) :
    withoutNotes <$> updateCompliance b amount s = updateCompliance b amount s.withoutNotes := by
  simp only [updateCompliance, map_bind, map_pure]
  rfl

theorem markAllSpent_withoutNotes (nullifiers : List Nullifier) (s : ObscuraPrivacy) :
    (s.markAllSpent nullifiers).withoutNotes = s.withoutNotes.markAllSpent nullifiers := by
  rw [markAllSpent_eq, markAllSpent_eq]
  rfl

theorem handleTransfer_withoutNotes (nowSecs : UInt64) (msg : TransferMessage)
    (s : ObscuraPrivacy) :
    withoutNotes <$> handleTransfer b nowSecs msg s =
      handleTransfer b nowSecs { msg with encryptedOutputs := [] } s.withoutNotes := by
  have hchecks : transferRootChecks b { msg with encryptedOutputs := [] } s.withoutNotes =
      transferRootChecks b msg s := rfl
  have hunspent : checkUnspent s.withoutNotes msg.nullifiers = checkUnspent s msg.nullifiers := rfl
  simp only [handleTransfer, finishTransfer, map_bind, hchecks, hunspent,
    ← markAllSpent_withoutNotes, ← storeOutputs_withoutNotes msg.encryptedOutputs, bind_map_left,
    updateCompliance_withoutNotes]

theorem handleUnshield_withoutNotes (msg : UnshieldMessage) (s : ObscuraPrivacy) :
    withoutNotes <$> handleUnshield b msg s = handleUnshield b msg s.withoutNotes := by
  simp only [handleUnshield, map_bind, map_pure]
  rfl

theorem handleUpdateSanctionsRoot_withoutNotes (sender : Bytes) (msg : UpdateSanctionsRootMessage)
    (s : ObscuraPrivacy) :
    withoutNotes <$> handleUpdateSanctionsRoot sender msg s =
      handleUpdateSanctionsRoot sender msg s.withoutNotes := by
  simp only [handleUpdateSanctionsRoot, map_bind, map_pure]
  rfl

theorem call_withoutNotes (ctx : TxContext) (msg : CallMessage) (s : ObscuraPrivacy) :
    withoutNotes <$> ObscuraPrivacy.call b ctx msg s =
      ObscuraPrivacy.call b ctx msg.withoutBlobs s.withoutNotes := by
  cases msg with
  | shield msg => exact handleShield_withoutNotes msg s
  | transfer msg => exact handleTransfer_withoutNotes ctx.nowSecs msg s
  | unshield msg => exact handleUnshield_withoutNotes msg s
  | updateSanctionsRoot msg => exact handleUpdateSanctionsRoot_withoutNotes ctx.sender msg s

end ObscuraPrivacy

namespace ObscuraBridge

variable {b : Build}

theorem handleClaimDeposit_withoutNotes (claim : ClaimDeposit) (s : Runtime) :
    Runtime.withoutNotes <$> handleClaimDeposit b claim s =
      handleClaimDeposit b claim s.withoutNotes := by
  have hpush : ∀ commitment, s.withoutNotes.obscuraPrivacy.pushCommitment commitment =
      (s.obscuraPrivacy.pushCommitment commitment).withoutNotes := fun _ => rfl
  simp only [handleClaimDeposit, map_bind, map_pure, hpush,
    ← ObscuraPrivacy.insertCommitment_withoutNotes, bind_map_left]
  rfl

theorem call_withoutNotes (msg : BridgeCallMessage) (s : Runtime) :
    Runtime.withoutNotes <$> ObscuraBridge.call b msg s =
      ObscuraBridge.call b msg s.withoutNotes := by
  cases msg with
  | claimDeposit claim => exact handleClaimDeposit_withoutNotes claim s
  | withdrawBridge msg =>
    simp only [ObscuraBridge.call, map_bind, map_pure]
    rfl
  | updateHeliosHead update =>
    simp only [ObscuraBridge.call, map_bind, map_pure]
    rfl

end ObscuraBridge

theorem call_withoutBlobs (b : Build) (tx : Tx) (s : Runtime) :
    Runtime.withoutNotes <$> Runtime.call b tx s =
      Runtime.call b tx.withoutBlobs s.withoutNotes := by
  obtain ⟨ctx, call⟩ := tx
  cases call with
  | obscuraBridge msg => exact ObscuraBridge.call_withoutNotes msg s
  | obscuraPrivacy msg =>
    have hcall := ObscuraPrivacy.call_withoutNotes (b := b) ctx msg s.obscuraPrivacy
    show Runtime.withoutNotes <$> (s.obscuraPrivacy.call b ctx msg >>= fun privacy =>
        pure { s with obscuraPrivacy := privacy }) =
      s.obscuraPrivacy.withoutNotes.call b ctx msg.withoutBlobs >>= fun privacy =>
        pure { s.withoutNotes with obscuraPrivacy := privacy }
    rw [← hcall, bind_map_left, map_bind]
    rfl

/-- Every run can be had without a single encrypted note: dropping the blobs from its messages
changes neither which of them are accepted nor anything else in the state. -/
theorem undisclosed_run (b : Build) (config : BridgeConfig) (txs : List Tx) :
    Runtime.run b config (txs.map Tx.withoutBlobs) = (Runtime.run b config txs).withoutNotes ∧
      Runtime.acceptedTxs b config (txs.map Tx.withoutBlobs) =
        (Runtime.acceptedTxs b config txs).map Tx.withoutBlobs := by
  obtain ⟨hstate, haccepted⟩ := settleAll_map (call_withoutBlobs b) (Runtime.genesis b config) txs
  exact ⟨hstate.symm, haccepted⟩

end ObscuraNetwork
