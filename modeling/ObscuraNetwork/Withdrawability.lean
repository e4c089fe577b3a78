import ObscuraNetwork.ConfigChange

namespace ObscuraNetwork

open ObscuraBridge

/-- A claim can be withdrawn once, for its own amount, while the config names its contract. -/
structure WithdrawnOnce (b : Build) (l : ContractLog) (claim : ContractDeposit) : Prop where
  atMostOnce : (l.withdrawals.map ContractDeposit.key).count claim.key ≤ 1
  amount : ∀ w ∈ l.withdrawals, w.key = claim.key → w.amount = claim.amount
  pending : l.runtime.obscuraBridge.contract b = .ok claim.contract →
    (∀ w ∈ l.withdrawals, w.key ≠ claim.key) → ∀ ethRecipient, ∃ bridge record,
      l.runtime.obscuraBridge.handleWithdrawBridge b ⟨claim.depositId, ethRecipient⟩ =
        .ok bridge ∧
      bridge.withdrawals (l.runtime.obscuraBridge.nextWithdrawalId.getD 0) = some record ∧
      record.depositId = claim.depositId ∧ record.ethRecipient = ethRecipient ∧
      record.amount = claim.amount
  closed : l.runtime.obscuraBridge.contract b = .ok claim.contract →
    (∃ w ∈ l.withdrawals, w.key = claim.key) → ∀ ethRecipient bridge,
      l.runtime.obscuraBridge.handleWithdrawBridge b ⟨claim.depositId, ethRecipient⟩ ≠ .ok bridge

def Withdrawable (b : Build) (l : ContractLog) : Prop := ∀ claim ∈ l.claims, WithdrawnOnce b l claim

/-- No deposit id is claimed under two contracts. -/
def OneContract (claims : List ContractDeposit) : Prop :=
  ∀ claim ∈ claims, ∀ claim' ∈ claims, claim.depositId = claim'.depositId →
    claim.contract = claim'.contract

section Sufficiency

variable {b : Build} {l : ContractLog}

theorem OneContract.unique (h : OneContract l.claims) (hl : l.Sound b)
    {claim claim' : ContractDeposit} (hc : claim ∈ l.claims) (hc' : claim' ∈ l.claims)
    (hid : claim.depositId = claim'.depositId) : claim = claim' := by
  apply List.inj_on_of_nodup_map hl.log.claimedOnce hc hc'
  exact Prod.ext (h claim hc claim' hc' hid) hid

theorem OneContract.amount_eq (h : OneContract l.claims) (hl : l.Sound b)
    {claim : ContractDeposit} (hc : claim ∈ l.claims) {amount : UInt64}
    (hentry : (claim.depositId, amount) ∈ l.claims.map ContractDeposit.entry) :
    amount = claim.amount := by
  obtain ⟨claim', hc', hentry⟩ := List.mem_map.mp hentry
  obtain ⟨hid, rfl⟩ := Prod.mk.inj hentry
  rw [h.unique hl hc hc' hid.symm]

/-- The marker of a withdrawn id closes it under every contract. -/
theorem withdrawn_closed (hl : l.Sound b) {w : ContractDeposit} (hw : w ∈ l.withdrawals)
    (ethRecipient : Bytes20) (bridge : ObscuraBridge) :
    l.runtime.obscuraBridge.handleWithdrawBridge b ⟨w.depositId, ethRecipient⟩ ≠ .ok bridge := by
  intro hok
  obtain ⟨amount, _, _, hchecks, _⟩ := handleWithdrawBridge_ok.mp hok
  have hmarked := (hl.log.withdrawnKeys w.depositId).mpr (List.mem_map_of_mem hw)
  have hfresh := hchecks.fresh
  rw [hmarked] at hfresh
  cases hfresh

theorem pending_withdraw (hl : l.Sound b) {claim : ContractDeposit} (hc : claim ∈ l.claims)
    (hcontract : l.runtime.obscuraBridge.contract b = .ok claim.contract)
    (hfresh : claim.depositId ∉ l.withdrawals.map ContractDeposit.depositId)
    {amount : UInt64}
    (hamount : l.runtime.obscuraBridge.claimedAmounts claim.depositId = some amount)
    (hnonzero : amount ≠ 0) (ethRecipient : Bytes20) : ∃ bridge record,
      l.runtime.obscuraBridge.handleWithdrawBridge b ⟨claim.depositId, ethRecipient⟩ =
        .ok bridge ∧
      bridge.withdrawals (l.runtime.obscuraBridge.nextWithdrawalId.getD 0) = some record ∧
      record.depositId = claim.depositId ∧ record.ethRecipient = ethRecipient ∧
      record.amount = amount := by
  have hclaimed := (hl.log.claimedKeys claim.contract claim.depositId).mpr
    (List.mem_map.mpr ⟨claim, hc, rfl⟩)
  have hopen : l.runtime.obscuraBridge.isProcessed (withdrawalKey claim.depositId) = false :=
    Bool.eq_false_iff.mpr fun h => hfresh ((hl.log.withdrawnKeys _).mp h)
  have hchecks : WithdrawChecks b ⟨claim.depositId, ethRecipient⟩ l.runtime.obscuraBridge amount :=
    ⟨⟨_, hcontract, hclaimed⟩, hopen, hamount, hnonzero⟩
  have hnext := addU64_of_lt (b := b) (hl.log.nextId_fits hl.counted)
  have hsum : ∃ sum, addU64 b l.runtime.obscuraBridge.withdrawnUsdc amount = .ok sum := by
    cases hb : b.overflowChecks with
    | true => exact ⟨_, addU64_of_lt (hl.log.pending_fits hb hamount hfresh)⟩
    | false => exact ⟨_, addU64_unchecked hb _ _⟩
  obtain ⟨sum, hsum⟩ := hsum
  exact ⟨_, _, handleWithdrawBridge_ok.mpr ⟨amount, _, sum, hchecks, hnext, hsum, rfl⟩,
    StateMap.set_self _ _ _, rfl, rfl, rfl⟩

theorem withdrawable_of_oneContract (hl : l.Sound b) (h : OneContract l.claims) :
    Withdrawable b l := by
  intro claim hc
  have hsame : ∀ w ∈ l.withdrawals, w.depositId = claim.depositId → w.key = claim.key := by
    intro w hw hid
    obtain ⟨claim', hc', hkey⟩ := List.mem_map.mp (hl.log.withdrawnClaim w hw)
    have hid' : claim'.depositId = claim.depositId := (congrArg Prod.snd hkey).trans hid
    rw [← hkey, h.unique hl hc' hc hid']
  refine ⟨?_, ?_, ?_, ?_⟩
  · have honce : (l.withdrawals.map ContractDeposit.key).Nodup := by
      apply List.Nodup.of_map Prod.snd
      rw [List.map_map]
      exact hl.log.withdrawnOnce
    exact List.nodup_iff_count_le_one.mp honce claim.key
  · intro w hw hkey
    have hid : w.depositId = claim.depositId := congrArg Prod.snd hkey
    apply h.amount_eq hl hc
    rw [← hid]
    exact hl.log.withdrawnAmount w hw
  · intro hcontract hfresh ethRecipient
    obtain ⟨amount, hamount⟩ := hl.log.hasAmount claim hc
    have hval := h.amount_eq hl hc (hl.log.amounts _ _ hamount)
    have hnew : claim.depositId ∉ l.withdrawals.map ContractDeposit.depositId := by
      intro hmem
      obtain ⟨w, hw, hid⟩ := List.mem_map.mp hmem
      exact hfresh w hw (hsame w hw hid)
    rw [← hval]
    exact pending_withdraw hl hc hcontract hnew hamount (hval ▸ hl.log.nonzero claim hc)
      ethRecipient
  · intro _ hdone ethRecipient bridge
    obtain ⟨w, hw, hkey⟩ := hdone
    have hid : w.depositId = claim.depositId := congrArg Prod.snd hkey
    rw [← hid]
    exact withdrawn_closed hl hw ethRecipient bridge

end Sufficiency

section Necessity

variable {b : Build} {l : ContractLog}

/-- The log after a change of the config: nothing else moves. -/
def ContractLog.withConfig (l : ContractLog) (config : BridgeConfig) : ContractLog where
  runtime := { l.runtime with
    obscuraBridge := { l.runtime.obscuraBridge with config := some config } }
  claims := l.claims
  withdrawals := l.withdrawals

theorem withConfig_contract {config : BridgeConfig} {contract : Bytes20}
    (h : parseContractAddress b config.bridgeContractAddress = .ok contract) :
    (l.withConfig config).runtime.obscuraBridge.contract b = .ok contract := h

theorem withConfig_sound (hl : l.Sound b) (config : BridgeConfig) : (l.withConfig config).Sound b :=
  ⟨⟨hl.counted.faithful, hl.counted.claims⟩, { hl.log with }⟩

/-- The admin can move the config to any other. -/
theorem switch_config (b : Build) (l : ContractLog) (config : BridgeConfig) :
    ∃ op : BridgeOp, op.claimed = [] ∧
      settle (ContractLog.step b) l op = l.withConfig config := by
  refine ⟨.updateConfig (l.runtime.obscuraBridge.config.getD BridgeConfig.default).admin config,
    rfl, ?_⟩
  have hbridge : l.runtime.obscuraBridge.updateConfig
      (l.runtime.obscuraBridge.config.getD BridgeConfig.default).admin config =
      .ok { l.runtime.obscuraBridge with config := some config } :=
    updateConfig_ok.mpr ⟨Or.inr rfl, rfl⟩
  apply settle_ok
  simp [ContractLog.step, BridgeOp.apply, hbridge, BridgeOp.claimed, BridgeOp.withdrawn,
    ContractLog.withConfig]

theorem withdraw_logged (ctx : TxContext) {msg : WithdrawBridge} {bridge : ObscuraBridge}
    {contract : Bytes20} (hcontract : l.runtime.obscuraBridge.contract b = .ok contract)
    (h : l.runtime.obscuraBridge.handleWithdrawBridge b msg = .ok bridge) :
    ∃ l' amount,
      ContractLog.step b (.call ⟨ctx, .obscuraBridge (.withdrawBridge msg)⟩) l = .ok l' ∧
      l'.claims = l.claims ∧ ⟨contract, msg.depositId, amount⟩ ∈ l'.withdrawals := by
  have happly : BridgeOp.apply b (.call ⟨ctx, .obscuraBridge (.withdrawBridge msg)⟩) l.runtime =
      .ok { l.runtime with obscuraBridge := bridge } := bind_ok.mpr ⟨_, h, rfl⟩
  obtain ⟨amount, _, _, _, _, _, rfl⟩ := handleWithdrawBridge_ok.mp h
  refine ⟨_, amount, ContractLog.step_ok.mpr ⟨_, happly, rfl⟩, ?_, ?_⟩
  · simp [BridgeOp.claimed]
  · simp [BridgeOp.withdrawn, hcontract]

/-- Withdrawn under one contract, an id is stuck under every other that it was claimed under. -/
theorem stuck_elsewhere (hl : l.Sound b) {claim w : ContractDeposit} (hc : claim ∈ l.claims)
    (hw : w ∈ l.withdrawals) (hid : w.depositId = claim.depositId)
    (hne : w.contract ≠ claim.contract) :
    ∃ op : BridgeOp, op.claimed = [] ∧ ¬Withdrawable b (settle (ContractLog.step b) l op) := by
  obtain ⟨config, hconfig⟩ := hl.log.named claim hc
  obtain ⟨op, hop, hstep⟩ := switch_config b l config
  refine ⟨op, hop, ?_⟩
  rw [hstep]
  intro h
  have hfresh : ∀ w' ∈ (l.withConfig config).withdrawals, w'.key ≠ claim.key := by
    intro w' hw' hkey
    have hsame : w' = w := by
      apply List.inj_on_of_nodup_map hl.log.withdrawnOnce hw' hw
      exact (congrArg Prod.snd hkey).trans hid.symm
    rw [hsame] at hkey
    exact hne (congrArg Prod.fst hkey)
  obtain ⟨bridge, record, hok, _⟩ := (h claim hc).pending (withConfig_contract hconfig) hfresh
    (FixedBytes.replicate 20 0)
  rw [← hid] at hok
  exact withdrawn_closed (withConfig_sound hl config) hw _ _ hok

theorem claims_settleAll {ops : List BridgeOp} (h : ∀ op ∈ ops, op.claimed = []) :
    (settleAll (ContractLog.step b) l ops).claims = l.claims := by
  induction ops generalizing l with
  | nil => rfl
  | cons op rest ih =>
    have hstep : (settle (ContractLog.step b) l op).claims = l.claims := by
      cases hs : ContractLog.step b op l with
      | error e => rw [settle_error hs]
      | ok l' =>
        rw [settle_ok hs]
        obtain ⟨s, _, rfl⟩ := ContractLog.step_ok.mp hs
        simp [h op (by simp)]
    have hrest := ih (l := settle (ContractLog.step b) l op)
      (fun op' hop' => h op' (List.mem_cons_of_mem _ hop'))
    exact hrest.trans hstep

/-- From a log in which an id was claimed under two contracts, switches of the config and a
withdrawal lead to a log that is not withdrawable. -/
theorem stuck_of_two_contracts (hl : l.Sound b) {claim claim' : ContractDeposit}
    (hc : claim ∈ l.claims) (hc' : claim' ∈ l.claims) (hid : claim.depositId = claim'.depositId)
    (hne : claim.contract ≠ claim'.contract) :
    ∃ more : List BridgeOp, (∀ op ∈ more, op.claimed = []) ∧
      ¬Withdrawable b (settleAll (ContractLog.step b) l more) := by
  by_cases hdone : claim.depositId ∈ l.withdrawals.map ContractDeposit.depositId
  · obtain ⟨w, hw, hwid⟩ := List.mem_map.mp hdone
    by_cases hsame : w.contract = claim.contract
    · obtain ⟨op, hop, hstuck⟩ := stuck_elsewhere hl hc' hw (hwid.trans hid) (hsame ▸ hne)
      exact ⟨[op], by simpa using hop, hstuck⟩
    · obtain ⟨op, hop, hstuck⟩ := stuck_elsewhere hl hc hw hwid hsame
      exact ⟨[op], by simpa using hop, hstuck⟩
  · -- not withdrawn yet: withdraw it under the first contract, then look under the second
    obtain ⟨config, hconfig⟩ := hl.log.named claim hc
    obtain ⟨switch, hswitch, hswitched⟩ := switch_config b l config
    by_cases hopen : Withdrawable b (l.withConfig config)
    · have hfresh : ∀ w ∈ (l.withConfig config).withdrawals, w.key ≠ claim.key := by
        intro w hw hkey
        exact hdone (List.mem_map.mpr ⟨w, hw, congrArg Prod.snd hkey⟩)
      have hnamed := withConfig_contract (l := l) hconfig
      obtain ⟨bridge, record, hok, _⟩ :=
        (hopen claim hc).pending hnamed hfresh (FixedBytes.replicate 20 0)
      obtain ⟨l', amount, hstep, hclaims, hlogged⟩ := withdraw_logged ⟨[], 0⟩ hnamed hok
      have hc'' : claim' ∈ l'.claims := hclaims ▸ hc'
      obtain ⟨op, hop, hstuck⟩ :=
        stuck_elsewhere (step_sound (withConfig_sound hl config) hstep) hc'' hlogged hid hne
      refine ⟨[switch, .call ⟨⟨[], 0⟩, .obscuraBridge (.withdrawBridge
        ⟨claim.depositId, FixedBytes.replicate 20 0⟩)⟩, op], ?_, ?_⟩
      · intro op' hop'
        simp only [List.mem_cons, List.not_mem_nil, or_false] at hop'
        rcases hop' with rfl | rfl | rfl
        · exact hswitch
        · rfl
        · exact hop
      · simp only [settleAll, List.foldl_cons, List.foldl_nil, hswitched, settle_ok hstep]
        exact hstuck
    · refine ⟨[switch], by simpa using hswitch, ?_⟩
      simpa only [settleAll, List.foldl_cons, List.foldl_nil, hswitched] using hopen

end Necessity

/-- Every claim stays withdrawable under its contract, whatever is withdrawn and configured later,
exactly when no deposit id is claimed under two contracts. -/
theorem withdrawable_iff (b : Build) (config : BridgeConfig) (ops : List BridgeOp) :
    (∀ more : List BridgeOp, (∀ op ∈ more, op.claimed = []) →
      Withdrawable b (ContractLog.run b config (ops ++ more))) ↔
    OneContract (ContractLog.run b config ops).claims := by
  have hl := run_sound b config ops
  constructor
  · intro h claim hc claim' hc' hid
    by_contra hne
    obtain ⟨more, hmore, hstuck⟩ := stuck_of_two_contracts hl hc hc' hid hne
    apply hstuck
    have hafter := h more hmore
    rwa [ContractLog.run, settleAll_append] at hafter
  · intro h more hmore
    apply withdrawable_of_oneContract (run_sound b config (ops ++ more))
    rw [ContractLog.run, settleAll_append, claims_settleAll hmore]
    exact h

def secondConfig : BridgeConfig :=
  { BridgeConfig.default with
    bridgeContractAddress := "0x0101010101010101010101010101010101010101" }

/-- A mock claim of deposit 7 under the contract with all bytes `tag`. -/
def claimSeven (tag : UInt8) (amount : UInt64) : BridgeOp :=
  .call ⟨⟨[], 0⟩, .obscuraBridge (.claimDeposit ⟨mockProofPrefix, ⟨FixedBytes.replicate 32 0,
    FixedBytes.replicate 32 0, 7, FixedBytes.replicate 32 1, amount,
    FixedBytes.replicate 20 tag⟩⟩)⟩

def withdrawSeven : BridgeOp :=
  .call ⟨⟨[], 0⟩, .obscuraBridge (.withdrawBridge ⟨7, FixedBytes.replicate 20 3⟩)⟩

/-- Deposit 7 of the old contract is claimed and withdrawn, then deposit 7 of the new one claimed.
-/
def redeployment : List BridgeOp :=
  [claimSeven 0 100, withdrawSeven, .updateConfig [] secondConfig, claimSeven 1 5]

theorem redeployment_stuck :
    ¬Withdrawable .default (ContractLog.run .default .default redeployment) := by
  have hclaimed : (ContractLog.run .default .default redeployment).claims =
      [⟨FixedBytes.replicate 20 0, 7, 100⟩, ⟨FixedBytes.replicate 20 1, 7, 5⟩] := by
    decide +kernel
  have hwithdrawn : (ContractLog.run .default .default redeployment).withdrawals =
      [⟨FixedBytes.replicate 20 0, 7, 100⟩] := by
    decide +kernel
  have hcontract : (ContractLog.run .default .default redeployment).runtime.obscuraBridge.contract
      .default = .ok (FixedBytes.replicate 20 1) := by
    decide +kernel
  have hsound := run_sound .default .default redeployment
  generalize ContractLog.run .default .default redeployment = l at *
  intro h
  have hc : (⟨FixedBytes.replicate 20 1, 7, 5⟩ : ContractDeposit) ∈ l.claims := by
    simp [hclaimed]
  have hw : (⟨FixedBytes.replicate 20 0, 7, 100⟩ : ContractDeposit) ∈ l.withdrawals := by
    simp [hwithdrawn]
  have hfresh : ∀ w ∈ l.withdrawals,
      w.key ≠ (⟨FixedBytes.replicate 20 1, 7, 5⟩ : ContractDeposit).key := by
    rw [hwithdrawn]
    decide
  obtain ⟨bridge, _, hok, _⟩ := (h _ hc).pending hcontract hfresh (FixedBytes.replicate 20 3)
  exact withdrawn_closed hsound hw _ _ hok

end ObscuraNetwork
