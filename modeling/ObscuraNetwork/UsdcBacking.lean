import ObscuraNetwork.BridgeLedger
import ObscuraNetwork.ExactPool

namespace ObscuraNetwork

open ObscuraPrivacy ObscuraBridge

def ObscuraBridge.withdrawnUsdc (s : ObscuraBridge) : UInt64 := s.totalWithdrawnUsdc.getD 0

/-- The bridged USDC of the pool is covered by what is still locked on Ethereum. -/
def Backed (s : Runtime) : Prop :=
  ((s.obscuraPrivacy.supply bridgedUsdcAsset).toNat : Int) ≤
    s.obscuraBridge.totalBridged.toNat - s.obscuraBridge.withdrawnUsdc.toNat

/-- The condition on a transaction and the state before it under which the cover lasts. A Shield of
the asset and a WithdrawBridge need as much cover left as they take, a claim a bridged total that
does not wrap unless the supply wraps with it. -/
def KeepsCover (b : Build) (s : Runtime) (tx : Tx) : Prop :=
  match tx.call with
  | .obscuraPrivacy (.shield msg) =>
    ShieldChecks msg s.obscuraPrivacy → msg.note.assetId = bridgedUsdcAsset →
      (s.obscuraPrivacy.supply bridgedUsdcAsset).toNat + msg.note.amount.toNat < 2 ^ 64 →
      (s.obscuraPrivacy.supply bridgedUsdcAsset).toNat + msg.note.amount.toNat +
        s.obscuraBridge.withdrawnUsdc.toNat ≤ s.obscuraBridge.totalBridged.toNat
  | .obscuraBridge (.withdrawBridge msg) =>
    ∀ amount, WithdrawChecks b msg s.obscuraBridge amount →
      s.obscuraBridge.withdrawnUsdc.toNat + amount.toNat < 2 ^ 64 →
      (s.obscuraPrivacy.supply bridgedUsdcAsset).toNat + s.obscuraBridge.withdrawnUsdc.toNat +
        amount.toNat ≤ s.obscuraBridge.totalBridged.toNat
  | .obscuraBridge (.claimDeposit claim) =>
    ClaimAccepted b claim s.obscuraBridge → s.obscuraPrivacy.commitments.length < 2 ^ treeDepth →
      b.overflowChecks = false →
      s.obscuraBridge.totalBridged.toNat + claim.publicInputs.amount.toNat < 2 ^ 64 ∨
      2 ^ 64 ≤ (s.obscuraPrivacy.supply bridgedUsdcAsset).toNat + claim.publicInputs.amount.toNat
  | _ => True

theorem backed_genesis (b : Build) (config : BridgeConfig) :
    Backed (Runtime.genesis b config) := Int.le_refl 0

section Addition

variable {b : Build} {x y z : UInt64}

theorem addU64_error {e : Failure} (h : addU64 b x y = .error e) :
    b.overflowChecks = true ∧ 2 ^ 64 ≤ x.toNat + y.toNat := by
  unfold addU64 at h
  split at h
  next hover => exact hover
  next => simp at h

theorem addU64_checked (h : addU64 b x y = .ok z) (hb : b.overflowChecks = true) :
    x.toNat + y.toNat < 2 ^ 64 := by
  by_contra hlt
  have hpanic : addU64 b x y = .error (.panic "attempt to add with overflow") :=
    if_pos ⟨hb, by omega⟩
  rw [h] at hpanic
  cases hpanic

/-- The sum as an exact integer, or short of it by `2^64`. -/
theorem addU64_value (h : addU64 b x y = .ok z) :
    x.toNat + y.toNat < 2 ^ 64 ∧ z.toNat = x.toNat + y.toNat ∨
    2 ^ 64 ≤ x.toNat + y.toNat ∧ z.toNat + 2 ^ 64 = x.toNat + y.toNat := by
  have hsum := UInt64.toNat_add x y
  have hx := x.toNat_lt
  have hy := y.toNat_lt
  rw [addU64_ok h]
  omega

end Addition

section Steps

variable {b : Build} {s s' : Runtime} {ctx : TxContext}

theorem supply_after_set (s : ObscuraPrivacy) (asset : AssetId) (sum : UInt64) :
    (s.setSupply asset sum).supply bridgedUsdcAsset =
      if asset = bridgedUsdcAsset then sum else s.supply bridgedUsdcAsset := by
  split
  next h => rw [h, setSupply_supply_self]
  next h => exact setSupply_supply_of_ne _ _ (Ne.symm h)

theorem shield_backed_iff (hc : Counted b s) (hs : Backed s) (msg : ShieldMessage) :
    Backed (settle (Runtime.call b) s ⟨ctx, .obscuraPrivacy (.shield msg)⟩) ↔
      KeepsCover b s ⟨ctx, .obscuraPrivacy (.shield msg)⟩ := by
  rcases handleShield_spec hc.faithful msg with ⟨hno, message, hrefused⟩ | ⟨hyes, t, ht, heq⟩
  · have hcall :
        Runtime.call b ⟨ctx, .obscuraPrivacy (.shield msg)⟩ s = .error (.bail message) := by
      simp only [Runtime.call, ObscuraPrivacy.call, hrefused, error_bind]
    rw [settle_error hcall]
    exact iff_of_true hs fun h => absurd h hno
  · cases hadd : addU64 b (s.obscuraPrivacy.supply msg.note.assetId) msg.note.amount with
    | error e =>
      have hcall : Runtime.call b ⟨ctx, .obscuraPrivacy (.shield msg)⟩ s = .error e := by
        simp only [Runtime.call, ObscuraPrivacy.call, heq, hadd, error_bind]
      rw [settle_error hcall]
      refine iff_of_true hs fun _ hasset hlt => ?_
      have hover := (addU64_error hadd).2
      rw [hasset] at hover
      omega
    | ok sum =>
      have hcall : Runtime.call b ⟨ctx, .obscuraPrivacy (.shield msg)⟩ s =
          .ok { s with obscuraPrivacy := t.setSupply msg.note.assetId sum } := by
        simp only [Runtime.call, ObscuraPrivacy.call, heq, hadd, ok_bind]
        rfl
      rw [settle_ok hcall]
      have hvalue := addU64_value hadd
      unfold Backed at hs ⊢
      dsimp only
      rw [supply_after_set, ht.supply]
      by_cases hasset : msg.note.assetId = bridgedUsdcAsset
      · rw [hasset] at hvalue
        rw [if_pos hasset]
        constructor
        · intro hafter _ _ hlt
          omega
        · intro hkeeps
          have hkeeps := hkeeps hyes hasset
          have := msg.note.amount.toNat_lt
          omega
      · rw [if_neg hasset]
        exact iff_of_true hs fun _ h => absurd h hasset

theorem unshield_backed (hs : Backed s) (msg : UnshieldMessage) {privacy : ObscuraPrivacy}
    (h : handleUnshield b msg s.obscuraPrivacy = .ok privacy) :
    Backed { s with obscuraPrivacy := privacy } := by
  obtain ⟨_, _, rfl⟩ := handleUnshield_ok.mp h
  unfold Backed at hs ⊢
  dsimp only
  rw [supply_after_set]
  split
  next hasset =>
    rw [toNat_saturatingSub, hasset]
    omega
  next => exact hs

theorem transfer_backed (hs : Backed s) (msg : TransferMessage) {nowSecs : UInt64}
    {privacy : ObscuraPrivacy} (h : handleTransfer b nowSecs msg s.obscuraPrivacy = .ok privacy) :
    Backed { s with obscuraPrivacy := privacy } := by
  obtain ⟨_, t, ht, hcompliance⟩ := handleTransfer_ok.mp h
  have hsupply : t.supply = s.obscuraPrivacy.supply :=
    ((markAllSpent_counters _ _).trans (storeOutputs_ledger ht).counters).supply
  have hsame : privacy.supply = t.supply := by
    rw [updateCompliance_ok hcompliance]
    rfl
  unfold Backed at hs ⊢
  dsimp only
  rw [hsame, hsupply]
  exact hs

theorem withdraw_backed_iff {config : BridgeConfig} {claimed : List (UInt64 × UInt64)}
    {withdrawn : List UInt64} (hc : Counted b s)
    (hl : LedgerInvariant b config s.obscuraBridge claimed withdrawn) (hs : Backed s)
    (msg : WithdrawBridge) :
    Backed (settle (Runtime.call b) s ⟨ctx, .obscuraBridge (.withdrawBridge msg)⟩) ↔
      KeepsCover b s ⟨ctx, .obscuraBridge (.withdrawBridge msg)⟩ := by
  have hid := hl.nextId_fits hc
  cases hcall : s.obscuraBridge.handleWithdrawBridge b msg with
  | error e =>
    have hcall' : Runtime.call b ⟨ctx, .obscuraBridge (.withdrawBridge msg)⟩ s = .error e := by
      simp only [Runtime.call, ObscuraBridge.call, hcall, error_bind]
    rw [settle_error hcall']
    refine iff_of_true hs fun amount hchecks hlt => ?_
    have hfits : addU64 b (s.obscuraBridge.totalWithdrawnUsdc.getD 0) amount = .ok _ :=
      addU64_of_lt hlt
    rw [handleWithdrawBridge_checked hchecks, addU64_of_lt hid, ok_bind, hfits] at hcall
    cases hcall
  | ok bridge =>
    have hcall' : Runtime.call b ⟨ctx, .obscuraBridge (.withdrawBridge msg)⟩ s =
        .ok { s with obscuraBridge := bridge } := by
      simp only [Runtime.call, ObscuraBridge.call, hcall, ok_bind]
      rfl
    rw [settle_ok hcall']
    obtain ⟨amount, nextId, sum, hchecks, _, hadd, rfl⟩ := handleWithdrawBridge_ok.mp hcall
    have hvalue := addU64_value hadd
    have hamount := amount.toNat_lt
    have hkeeps : KeepsCover b s ⟨ctx, .obscuraBridge (.withdrawBridge msg)⟩ ↔
        (s.obscuraBridge.withdrawnUsdc.toNat + amount.toNat < 2 ^ 64 →
          (s.obscuraPrivacy.supply bridgedUsdcAsset).toNat + s.obscuraBridge.withdrawnUsdc.toNat +
            amount.toNat ≤ s.obscuraBridge.totalBridged.toNat) := by
      constructor
      · exact fun h => h amount hchecks
      · intro h amount' hchecks'
        have hsame := hchecks.claimedAmount.symm.trans hchecks'.claimedAmount
        cases hsame
        exact h
    rw [hkeeps]
    unfold Backed at hs ⊢
    simp only [totalBridged, withdrawnUsdc, Option.getD_some] at hs ⊢
    omega

/-- Without overflow checks a claim that passes its checks and finds room in the tree is accepted.
-/
theorem claim_isOk (ctx : TxContext) (hb : b.overflowChecks = false) (hc : Counted b s)
    {claim : ClaimDeposit}
    (hchecks : ClaimAccepted b claim s.obscuraBridge)
    (hroom : s.obscuraPrivacy.commitments.length < 2 ^ treeDepth) :
    ∃ s', Runtime.call b ⟨ctx, .obscuraBridge (.claimDeposit claim)⟩ s = .ok s' := by
  rcases handleClaimDeposit_spec hc.faithful claim with ⟨hno, _⟩ | ⟨_, t, bridge, _, heq⟩
  · exact absurd ⟨claimChecks_ok.mpr hchecks, hroom⟩ hno
  · simp only [addU64_unchecked hb, ok_bind] at heq
    exact ⟨_, heq⟩

theorem claim_backed_iff (hc : Counted b s) (hs : Backed s) (claim : ClaimDeposit) :
    Backed (settle (Runtime.call b) s ⟨ctx, .obscuraBridge (.claimDeposit claim)⟩) ↔
      KeepsCover b s ⟨ctx, .obscuraBridge (.claimDeposit claim)⟩ := by
  cases hcall : Runtime.call b ⟨ctx, .obscuraBridge (.claimDeposit claim)⟩ s with
  | error e =>
    rw [settle_error hcall]
    refine iff_of_true hs fun hchecks hroom hb => ?_
    obtain ⟨s', hs'⟩ := claim_isOk ctx hb hc hchecks hroom
    rw [hcall] at hs'
    cases hs'
  | ok s' =>
    rw [settle_ok hcall]
    obtain ⟨hchecks, privacy, shielded, sum, claims, ht, hsupply, hsum, _, rfl⟩ :=
      handleClaimDeposit_ok.mp hcall
    have hroom := (insertCommitment_isOk hc.faithful _).mp ⟨privacy, ht⟩
    have hprivacy : privacy.supply = s.obscuraPrivacy.supply :=
      ((pushCommitment_ledger _ _).trans (insertCommitment_ledger ht)).supply
    have hkeeps : KeepsCover b s ⟨ctx, .obscuraBridge (.claimDeposit claim)⟩ ↔
        (b.overflowChecks = false →
          s.obscuraBridge.totalBridged.toNat + claim.publicInputs.amount.toNat < 2 ^ 64 ∨
          2 ^ 64 ≤ (s.obscuraPrivacy.supply bridgedUsdcAsset).toNat +
            claim.publicInputs.amount.toNat) :=
      ⟨fun h => h (claimChecks_ok.mp hchecks) hroom, fun h _ _ => h⟩
    rw [hkeeps]
    rw [hprivacy] at hsupply
    have hsupplyValue := addU64_value hsupply
    have hsumValue := addU64_value hsum
    have hchecked : b.overflowChecks = true → s.obscuraBridge.totalBridged.toNat +
        claim.publicInputs.amount.toNat < 2 ^ 64 := fun hb => addU64_checked hsum hb
    have hbridged := s.obscuraBridge.totalBridged.toNat_lt
    unfold Backed at hs ⊢
    simp only [totalBridged, withdrawnUsdc, Option.getD_some, setSupply_supply_self] at *
    cases hb : b.overflowChecks with
    | true =>
      have := hchecked hb
      simp only [Bool.true_eq_false, false_implies, iff_true]
      omega
    | false =>
      simp only [forall_const]
      omega

end Steps

theorem call_backed_iff {b : Build} {config : BridgeConfig} {s : Runtime}
    {claimed : List (UInt64 × UInt64)} {withdrawn : List UInt64} (hc : Counted b s)
    (hl : LedgerInvariant b config s.obscuraBridge claimed withdrawn) (hs : Backed s) (tx : Tx) :
    Backed (settle (Runtime.call b) s tx) ↔ KeepsCover b s tx := by
  obtain ⟨ctx, call⟩ := tx
  -- the other calls are no condition: they leave the three numbers alone, or lower the supply
  have hother : KeepsCover b s ⟨ctx, call⟩ →
      (∀ s', Runtime.call b ⟨ctx, call⟩ s = .ok s' → Backed s') →
      (Backed (settle (Runtime.call b) s ⟨ctx, call⟩) ↔ KeepsCover b s ⟨ctx, call⟩) := by
    intro hkeeps hok
    refine iff_of_true ?_ hkeeps
    cases hcall : Runtime.call b ⟨ctx, call⟩ s with
    | error e => exact (settle_error hcall).symm ▸ hs
    | ok s' => exact (settle_ok hcall).symm ▸ hok s' hcall
  cases call with
  | obscuraPrivacy msg =>
    cases msg with
    | shield msg => exact shield_backed_iff hc hs msg
    | transfer msg =>
      refine hother trivial fun s' hcall => ?_
      cases Runtime.step_of_call_ok hcall with
      | transfer _ _ privacy h => exact transfer_backed hs msg h
    | unshield msg =>
      refine hother trivial fun s' hcall => ?_
      cases Runtime.step_of_call_ok hcall with
      | unshield _ _ privacy h => exact unshield_backed hs msg h
    | updateSanctionsRoot msg =>
      refine hother trivial fun s' hcall => ?_
      cases Runtime.step_of_call_ok hcall with
      | updateSanctionsRoot _ _ privacy h =>
        rw [handleUpdateSanctionsRoot_ok h]
        exact hs
  | obscuraBridge msg =>
    cases msg with
    | claimDeposit claim => exact claim_backed_iff hc hs claim
    | withdrawBridge msg => exact withdraw_backed_iff hc hl hs msg
    | updateHeliosHead update =>
      refine hother trivial fun s' hcall => ?_
      cases Runtime.step_of_call_ok hcall with
      | updateHeliosHead _ _ bridge h =>
        obtain ⟨_, _, _, rfl⟩ := handleUpdateHeliosHead_ok.mp h
        exact hs

/-- The pool's bridged USDC is covered after every prefix of a run if and only if every transaction
keeps the cover in the state before it. -/
theorem usdc_backing_iff (b : Build) (config : BridgeConfig) (txs : List Tx) :
    (∀ pre, pre <+: txs → Backed (Runtime.run b config pre)) ↔
      ∀ pre tx, pre ++ [tx] <+: txs → KeepsCover b (Runtime.run b config pre) tx := by
  have hstep : ∀ pre tx, Backed (Runtime.run b config pre) →
      (Backed (Runtime.run b config (pre ++ [tx])) ↔
        KeepsCover b (Runtime.run b config pre) tx) := by
    intro pre tx hs
    rw [Runtime.run_concat]
    exact call_backed_iff (run_counted b config pre) (run_ledger b config pre).1 hs tx
  constructor
  · intro h pre tx hpre
    exact (hstep pre tx (h pre ((List.prefix_append pre [tx]).trans hpre))).mp (h _ hpre)
  · intro h pre
    induction pre using List.reverseRecOn with
    | nil => exact fun _ => backed_genesis b config
    | append_singleton pre tx ih =>
      intro hpre
      have hs := ih ((List.prefix_append pre [tx]).trans hpre)
      exact (hstep pre tx hs).mpr (h pre tx hpre)

def usdcShield : Tx :=
  ⟨⟨[], 0⟩, .obscuraPrivacy (.shield
    ⟨⟨100, bridgedUsdcAsset, List.replicate 32 1, FixedBytes.replicate 32 2⟩, []⟩)⟩

def usdcDeposit : ClaimDeposit :=
  ⟨mockProofPrefix, ⟨FixedBytes.replicate 32 0, FixedBytes.replicate 32 0, 7,
    FixedBytes.replicate 32 1, 100, FixedBytes.replicate 20 0⟩⟩

def usdcClaim : Tx := ⟨⟨[], 0⟩, .obscuraBridge (.claimDeposit usdcDeposit)⟩

def usdcWithdraw : Tx := ⟨⟨[], 0⟩, .obscuraBridge (.withdrawBridge ⟨7, FixedBytes.replicate 20 3⟩)⟩

theorem usdcDeposit_accepted : ClaimAccepted .default usdcDeposit
    (Runtime.genesis .default .default).obscuraBridge where
  amount := by decide
  recipient := by decide
  contract := by rfl
  unclaimed := by decide
  finalized := by rfl
  proof := by rfl

theorem counted_genesis (b : Build) (config : BridgeConfig) :
    Counted b (Runtime.genesis b config) := run_counted b config []

theorem usdcShield_unbacked : ¬Backed (Runtime.run .default .default [usdcShield]) := by
  have hrun : Runtime.run .default .default [usdcShield] =
      settle (Runtime.call .default) (Runtime.genesis .default .default) usdcShield := rfl
  have hchecks : ShieldChecks
      ⟨⟨100, bridgedUsdcAsset, List.replicate 32 1, FixedBytes.replicate 32 2⟩, []⟩
      (Runtime.genesis .default .default).obscuraPrivacy := ⟨by decide, by decide, by decide⟩
  rw [hrun]
  intro h
  have hkeeps := (shield_backed_iff (counted_genesis _ _) (backed_genesis _ _) _).mp h hchecks rfl
  revert hkeeps
  decide

/-- Claiming and withdrawing a deposit leaves the claimed note in the pool. -/
theorem usdcWithdraw_unbacked :
    ¬Backed (Runtime.run .default .default [usdcClaim, usdcWithdraw]) := by
  have hroom : (Runtime.genesis .default .default).obscuraPrivacy.commitments.length <
      2 ^ treeDepth := by decide
  obtain ⟨s, hs⟩ : ∃ s, Runtime.call .default usdcClaim (Runtime.run .default .default []) =
      .ok s := claim_isOk _ rfl (counted_genesis .default .default) usdcDeposit_accepted hroom
  have hrun : Runtime.run .default .default [usdcClaim] = s := (acceptedTxs_concat_ok hs).1
  have hrun' : Runtime.run .default .default [usdcClaim, usdcWithdraw] =
      settle (Runtime.call .default) s usdcWithdraw := by
    rw [← hrun]
    exact Runtime.run_concat .default .default [usdcClaim] usdcWithdraw
  obtain ⟨_, privacy, shielded, sum, claims, ht, hshielded, hsum, _, hform⟩ :=
    handleClaimDeposit_ok.mp hs
  have hc := run_counted .default .default [usdcClaim]
  have hl := (run_ledger .default .default [usdcClaim]).1
  have hdone : Runtime.acceptedTxs .default .default [usdcClaim] = [usdcClaim] :=
    (acceptedTxs_concat_ok hs).2
  rw [hrun] at hc hl
  rw [hdone] at hl
  have hsupply : s.obscuraPrivacy.supply bridgedUsdcAsset = 100 := by
    have hprivacy : privacy.supply = _ :=
      ((pushCommitment_ledger _ _).trans (insertCommitment_ledger ht)).supply
    rw [hform, setSupply_supply_self, addU64_ok hshielded, hprivacy]
    rfl
  have hbridged : s.obscuraBridge.totalBridged = 100 := by
    rw [hform, totalBridged, Option.getD_some, addU64_ok hsum]
    rfl
  have hwithdrawn : s.obscuraBridge.withdrawnUsdc = 0 := by
    rw [hform]
    rfl
  have hbacked : Backed s := by
    unfold Backed
    rw [hsupply, hbridged, hwithdrawn]
    decide
  have hwithdraw : WithdrawChecks .default ⟨7, FixedBytes.replicate 20 3⟩ s.obscuraBridge 100 := by
    have hcontract : s.obscuraBridge.contract .default = .ok (FixedBytes.replicate 20 0) := by
      rw [contract, hl.config]
      exact usdcDeposit_accepted.contract
    refine ⟨⟨_, hcontract, (hl.claimedKeys _ hcontract 7).mpr ?_⟩, ?_, (hl.amounts 7 100).mpr ?_,
      by decide⟩
    · decide
    · exact Bool.eq_false_iff.mpr fun h => absurd ((hl.withdrawnKeys 7).mp h) (by decide)
    · decide
  rw [hrun']
  intro h
  have hkeeps := (withdraw_backed_iff hc hl hbacked _).mp h 100 hwithdraw
  rw [hsupply, hbridged, hwithdrawn] at hkeeps
  revert hkeeps
  decide

/-- Shielding the asset mints it, and withdrawing a deposit burns nothing. -/
theorem usdc_unbacked :
    ¬Backed (Runtime.run .default .default [usdcShield]) ∧
    ¬Backed (Runtime.run .default .default [usdcClaim, usdcWithdraw]) :=
  ⟨usdcShield_unbacked, usdcWithdraw_unbacked⟩

end ObscuraNetwork
