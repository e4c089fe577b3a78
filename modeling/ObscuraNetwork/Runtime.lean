import ObscuraNetwork.BridgeModule
import ObscuraNetwork.PrivacyEffects
import ObscuraNetwork.RollbackMachine

namespace ObscuraNetwork

inductive RuntimeCall where
  | obscuraPrivacy (msg : CallMessage)
  | obscuraBridge (msg : BridgeCallMessage)
  deriving DecidableEq

structure Tx where
  context : TxContext
  call : RuntimeCall
  deriving DecidableEq

namespace Runtime

def genesis (b : Build) (config : BridgeConfig) : Runtime where
  obscuraPrivacy := ObscuraPrivacy.genesis b
  obscuraBridge := ObscuraBridge.genesis config

def call (b : Build) (tx : Tx) (s : Runtime) : Outcome Runtime :=
  match tx.call with
  | .obscuraPrivacy msg => do
    let privacy ← s.obscuraPrivacy.call b tx.context msg
    pure { s with obscuraPrivacy := privacy }
  | .obscuraBridge msg => ObscuraBridge.call b msg s

/-- The state after a sequence of transactions from genesis; a call that fails is reverted. -/
def run (b : Build) (config : BridgeConfig) (txs : List Tx) : Runtime :=
  settleAll (call b) (genesis b config) txs

def acceptedTxs (b : Build) (config : BridgeConfig) (txs : List Tx) : List Tx :=
  accepted (call b) (genesis b config) txs

/-- What an accepted transaction can be and do. -/
inductive Step (b : Build) (s : Runtime) : Tx → Runtime → Prop
  | shield (ctx : TxContext) (msg : ShieldMessage) (privacy : ObscuraPrivacy)
      (h : s.obscuraPrivacy.handleShield b msg = .ok privacy) :
      Step b s ⟨ctx, .obscuraPrivacy (.shield msg)⟩ { s with obscuraPrivacy := privacy }
  | transfer (ctx : TxContext) (msg : TransferMessage) (privacy : ObscuraPrivacy)
      (h : s.obscuraPrivacy.handleTransfer b ctx.nowSecs msg = .ok privacy) :
      Step b s ⟨ctx, .obscuraPrivacy (.transfer msg)⟩ { s with obscuraPrivacy := privacy }
  | unshield (ctx : TxContext) (msg : UnshieldMessage) (privacy : ObscuraPrivacy)
      (h : s.obscuraPrivacy.handleUnshield b msg = .ok privacy) :
      Step b s ⟨ctx, .obscuraPrivacy (.unshield msg)⟩ { s with obscuraPrivacy := privacy }
  | updateSanctionsRoot (ctx : TxContext) (msg : UpdateSanctionsRootMessage)
      (privacy : ObscuraPrivacy)
      (h : s.obscuraPrivacy.handleUpdateSanctionsRoot ctx.sender msg = .ok privacy) :
      Step b s ⟨ctx, .obscuraPrivacy (.updateSanctionsRoot msg)⟩
        { s with obscuraPrivacy := privacy }
  | claimDeposit (ctx : TxContext) (claim : ClaimDeposit) (s' : Runtime)
      (h : ObscuraBridge.handleClaimDeposit b claim s = .ok s') :
      Step b s ⟨ctx, .obscuraBridge (.claimDeposit claim)⟩ s'
  | withdrawBridge (ctx : TxContext) (msg : WithdrawBridge) (bridge : ObscuraBridge)
      (h : s.obscuraBridge.handleWithdrawBridge b msg = .ok bridge) :
      Step b s ⟨ctx, .obscuraBridge (.withdrawBridge msg)⟩ { s with obscuraBridge := bridge }
  | updateHeliosHead (ctx : TxContext) (update : UpdateHeliosHead) (bridge : ObscuraBridge)
      (h : s.obscuraBridge.handleUpdateHeliosHead b update = .ok bridge) :
      Step b s ⟨ctx, .obscuraBridge (.updateHeliosHead update)⟩ { s with obscuraBridge := bridge }

theorem step_of_call_ok {b : Build} {tx : Tx} {s s' : Runtime} (h : call b tx s = .ok s') :
    Step b s tx s' := by
  obtain ⟨ctx, c⟩ := tx
  cases c with
  | obscuraPrivacy msg =>
    simp only [call, bind_ok, pure_ok] at h
    obtain ⟨privacy, hp, rfl⟩ := h
    cases msg with
    | shield msg => exact .shield ctx msg privacy hp
    | transfer msg => exact .transfer ctx msg privacy hp
    | unshield msg => exact .unshield ctx msg privacy hp
    | updateSanctionsRoot msg => exact .updateSanctionsRoot ctx msg privacy hp
  | obscuraBridge msg =>
    cases msg with
    | claimDeposit claim => exact .claimDeposit ctx claim s' h
    | withdrawBridge msg =>
      simp only [call, ObscuraBridge.call, bind_ok, pure_ok] at h
      obtain ⟨bridge, hb, rfl⟩ := h
      exact .withdrawBridge ctx msg bridge hb
    | updateHeliosHead update =>
      simp only [call, ObscuraBridge.call, bind_ok, pure_ok] at h
      obtain ⟨bridge, hb, rfl⟩ := h
      exact .updateHeliosHead ctx update bridge hb

/-- What genesis satisfies and every accepted transaction preserves holds after every run, of the
state and the transactions accepted so far. -/
theorem run_induction {b : Build} {config : BridgeConfig} {P : Runtime → List Tx → Prop}
    (start : P (genesis b config) [])
    (preserved : ∀ s done tx s', P s done → Step b s tx s' → P s' (done ++ [tx])) (txs : List Tx) :
    P (run b config txs) (acceptedTxs b config txs) :=
  run_invariant start (fun s done tx s' hs h => preserved s done tx s' hs (step_of_call_ok h)) txs

theorem run_concat (b : Build) (config : BridgeConfig) (txs : List Tx) (tx : Tx) :
    run b config (txs ++ [tx]) = settle (call b) (run b config txs) tx :=
  settleAll_concat _ _ _

end Runtime

namespace ObscuraBridge

theorem handleClaimDeposit_ok {b : Build} {claim : ClaimDeposit} {s s' : Runtime} :
    handleClaimDeposit b claim s = .ok s' ↔ claimChecks b claim s.obscuraBridge = .ok () ∧
      ∃ privacy shielded total claims,
        (s.obscuraPrivacy.pushCommitment ⟨claim.publicInputs.obscuraRecipient⟩).insertCommitment b
          ⟨claim.publicInputs.obscuraRecipient⟩ = .ok privacy ∧
        addU64 b (privacy.supply bridgedUsdcAsset) claim.publicInputs.amount = .ok shielded ∧
        addU64 b (s.obscuraBridge.totalBridgedUsdc.getD 0) claim.publicInputs.amount = .ok total ∧
        addU64 b (s.obscuraBridge.totalClaims.getD 0) 1 = .ok claims ∧
        s' = ⟨privacy.setSupply bridgedUsdcAsset shielded,
          { s.obscuraBridge with
            processedDeposits := s.obscuraBridge.processedDeposits.set
              (makeDepositKeyStr claim.publicInputs.bridgeContract claim.publicInputs.depositId)
              true
            claimedAmounts := s.obscuraBridge.claimedAmounts.set claim.publicInputs.depositId
              claim.publicInputs.amount
            totalBridgedUsdc := some total
            totalClaims := some claims }⟩ := by
  simp only [handleClaimDeposit, bind_ok, pure_ok]
  constructor
  · intro h
    obtain ⟨⟨⟩, hc, privacy, hp, shielded, hs, total, ht, claims, hn, rfl⟩ := h
    exact ⟨hc, privacy, shielded, total, claims, hp, hs, ht, hn, rfl⟩
  · intro h
    obtain ⟨hc, privacy, shielded, total, claims, hp, hs, ht, hn, rfl⟩ := h
    exact ⟨(), hc, privacy, hp, shielded, hs, total, ht, claims, hn, rfl⟩

end ObscuraBridge

end ObscuraNetwork
