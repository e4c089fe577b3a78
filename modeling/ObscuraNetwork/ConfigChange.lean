import ObscuraNetwork.UsdcBacking
import Mathlib.Algebra.Order.BigOperators.Group.List

namespace ObscuraNetwork

namespace ObscuraBridge

/-- `update_config`, which no call message reaches yet. -/
def updateConfig (sender : Bytes) (newConfig : BridgeConfig) (s : ObscuraBridge) :
    Outcome ObscuraBridge := do
  let current := s.config.getD BridgeConfig.default
  ensure (¬(current.admin ≠ [] ∧ sender ≠ current.admin))
    (.bail "Bridge: only admin can update config")
  pure { s with config := some newConfig }

theorem updateConfig_ok {sender : Bytes} {newConfig : BridgeConfig} {s s' : ObscuraBridge} :
    updateConfig sender newConfig s = .ok s' ↔
      ((s.config.getD BridgeConfig.default).admin = [] ∨
        sender = (s.config.getD BridgeConfig.default).admin) ∧
      s' = { s with config := some newConfig } := by
  simp only [updateConfig, bind_ok, ensure_ok, pure_ok, not_and_or, not_not]
  constructor
  · intro h
    obtain ⟨_, hadmin, rfl⟩ := h
    exact ⟨hadmin, rfl⟩
  · intro h
    obtain ⟨hadmin, rfl⟩ := h
    exact ⟨(), hadmin, rfl⟩

end ObscuraBridge

open ObscuraBridge ObscuraPrivacy

/-- A transaction or a change of the bridge's configuration. -/
inductive BridgeOp where
  | call (tx : Tx)
  | updateConfig (sender : Bytes) (newConfig : BridgeConfig)

def BridgeOp.apply (b : Build) : BridgeOp → Runtime → Outcome Runtime
  | .call tx, s => Runtime.call b tx s
  | .updateConfig sender newConfig, s => do
    let bridge ← s.obscuraBridge.updateConfig sender newConfig
    pure { s with obscuraBridge := bridge }

/-- A deposit as it was claimed or withdrawn under a bridge contract. -/
structure ContractDeposit where
  contract : Bytes20
  depositId : UInt64
  amount : UInt64
  deriving DecidableEq

def ContractDeposit.key (d : ContractDeposit) : Bytes20 × UInt64 := (d.contract, d.depositId)

def ContractDeposit.entry (d : ContractDeposit) : UInt64 × UInt64 := (d.depositId, d.amount)

def BridgeOp.claimed : BridgeOp → List ContractDeposit
  | .call ⟨_, .obscuraBridge (.claimDeposit claim)⟩ =>
    [⟨claim.publicInputs.bridgeContract, claim.publicInputs.depositId, claim.publicInputs.amount⟩]
  | _ => []

/-- What a withdrawal has recorded, with the contract that the config names. -/
def BridgeOp.withdrawn (b : Build) (before after : ObscuraBridge) :
    BridgeOp → List ContractDeposit
  | .call ⟨_, .obscuraBridge (.withdrawBridge _)⟩ =>
    match before.contract b, after.withdrawals (before.nextWithdrawalId.getD 0) with
    | .ok contract, some record => [⟨contract, record.depositId, record.amount⟩]
    | _, _ => []
  | _ => []

/-- The storage with the claims and the withdrawals accepted so far. -/
structure ContractLog where
  runtime : Runtime
  claims : List ContractDeposit
  withdrawals : List ContractDeposit

namespace ContractLog

def step (b : Build) (op : BridgeOp) (l : ContractLog) : Outcome ContractLog := do
  let s ← op.apply b l.runtime
  pure ⟨s, l.claims ++ op.claimed,
    l.withdrawals ++ op.withdrawn b l.runtime.obscuraBridge s.obscuraBridge⟩

def run (b : Build) (config : BridgeConfig) (ops : List BridgeOp) : ContractLog :=
  settleAll (step b) ⟨Runtime.genesis b config, [], []⟩ ops

theorem step_ok {b : Build} {op : BridgeOp} {l l' : ContractLog} :
    step b op l = .ok l' ↔ ∃ s, op.apply b l.runtime = .ok s ∧
      l' = ⟨s, l.claims ++ op.claimed,
        l.withdrawals ++ op.withdrawn b l.runtime.obscuraBridge s.obscuraBridge⟩ := by
  simp only [step, bind_ok, pure_ok]
  constructor
  · intro h
    obtain ⟨s, hs, rfl⟩ := h
    exact ⟨s, hs, rfl⟩
  · intro h
    obtain ⟨s, hs, rfl⟩ := h
    exact ⟨s, hs, rfl⟩

end ContractLog

/-- The bridge's maps, keyed by contract and id or by id alone, and its counters against the claims
and the withdrawals accepted so far. -/
structure LogInvariant (b : Build) (s : ObscuraBridge) (claimed withdrawn : List ContractDeposit) :
    Prop where
  named : ∀ claim ∈ claimed, ∃ config : BridgeConfig,
    parseContractAddress b config.bridgeContractAddress = .ok claim.contract
  claimedKeys : ∀ contract id, s.isProcessed (makeDepositKeyStr contract id) = true ↔
    (contract, id) ∈ claimed.map ContractDeposit.key
  withdrawnKeys : ∀ id, s.isProcessed (withdrawalKey id) = true ↔
    id ∈ withdrawn.map ContractDeposit.depositId
  claimedOnce : (claimed.map ContractDeposit.key).Nodup
  withdrawnOnce : (withdrawn.map ContractDeposit.depositId).Nodup
  amounts : ∀ id amount, s.claimedAmounts id = some amount →
    (id, amount) ∈ claimed.map ContractDeposit.entry
  hasAmount : ∀ claim ∈ claimed, ∃ amount, s.claimedAmounts claim.depositId = some amount
  nonzero : ∀ claim ∈ claimed, claim.amount ≠ 0
  withdrawnClaim : ∀ w ∈ withdrawn, w.key ∈ claimed.map ContractDeposit.key
  withdrawnAmount : ∀ w ∈ withdrawn, w.entry ∈ claimed.map ContractDeposit.entry
  nextId : (s.nextWithdrawalId.getD 0).toNat = withdrawn.length
  claimCount : s.claimCount.toNat = claimed.length
  bridged : b.overflowChecks = true →
    s.totalBridged.toNat = (claimed.map fun d => d.amount.toNat).sum
  paid : b.overflowChecks = true →
    s.withdrawnUsdc.toNat = (withdrawn.map fun d => d.amount.toNat).sum

theorem log_genesis (b : Build) (config : BridgeConfig) :
    LogInvariant b (ObscuraBridge.genesis config) [] [] where
  named := by simp
  claimedKeys _ _ := by simp [isProcessed, ObscuraBridge.genesis]
  withdrawnKeys _ := by simp [isProcessed, ObscuraBridge.genesis]
  claimedOnce := List.nodup_nil
  withdrawnOnce := List.nodup_nil
  amounts _ _ h := by simp [ObscuraBridge.genesis] at h
  hasAmount := by simp
  nonzero := by simp
  withdrawnClaim := by simp
  withdrawnAmount := by simp
  nextId := rfl
  claimCount := rfl
  bridged _ := rfl
  paid _ := rfl

namespace LogInvariant

variable {b : Build} {s : ObscuraBridge} {claimed withdrawn : List ContractDeposit}

/-- A pending deposit fits beside the withdrawn ones: distinct ids were claimed apart. -/
theorem pending_fits (hs : LogInvariant b s claimed withdrawn) (hb : b.overflowChecks = true)
    {id amount : UInt64} (hamount : s.claimedAmounts id = some amount)
    (hfresh : id ∉ withdrawn.map ContractDeposit.depositId) :
    s.withdrawnUsdc.toNat + amount.toNat < 2 ^ 64 := by
  have hids : ((id, amount) :: withdrawn.map ContractDeposit.entry).map Prod.fst =
      id :: withdrawn.map ContractDeposit.depositId := by
    simp [Function.comp_def, ContractDeposit.entry]
  have honce : ((id, amount) :: withdrawn.map ContractDeposit.entry).Nodup := by
    apply List.Nodup.of_map Prod.fst
    rw [hids]
    exact List.nodup_cons.mpr ⟨hfresh, hs.withdrawnOnce⟩
  have hsubset : (id, amount) :: withdrawn.map ContractDeposit.entry ⊆
      claimed.map ContractDeposit.entry := by
    intro entry hentry
    rcases List.mem_cons.mp hentry with rfl | h
    · exact hs.amounts _ _ hamount
    · obtain ⟨w, hw, rfl⟩ := List.mem_map.mp h
      exact hs.withdrawnAmount w hw
  obtain ⟨part, hperm, hpart⟩ := List.subperm_of_subset honce hsubset
  have hsum : (part.map fun entry => entry.2.toNat).sum ≤
      ((claimed.map ContractDeposit.entry).map fun entry => entry.2.toNat).sum :=
    (hpart.map _).sum_le_sum (fun _ _ => Nat.zero_le _)
  have hpartSum : (part.map fun entry => entry.2.toNat).sum =
      amount.toNat + (withdrawn.map fun d => d.amount.toNat).sum := by
    rw [(hperm.map _).sum_eq]
    simp [Function.comp_def, ContractDeposit.entry]
  have hbridged := hs.bridged hb
  have hpaid := hs.paid hb
  have hlt := s.totalBridged.toNat_lt
  simp only [List.map_map, Function.comp_def, ContractDeposit.entry] at hsum
  omega

theorem withdrawn_le (hs : LogInvariant b s claimed withdrawn) :
    withdrawn.length ≤ claimed.length := by
  have hsubset : withdrawn.map ContractDeposit.depositId ⊆
      claimed.map ContractDeposit.depositId := by
    intro id hid
    obtain ⟨w, hw, rfl⟩ := List.mem_map.mp hid
    obtain ⟨claim, hclaim, hkey⟩ := List.mem_map.mp (hs.withdrawnClaim w hw)
    exact List.mem_map.mpr ⟨claim, hclaim, congrArg Prod.snd hkey⟩
  have hle := (List.subperm_of_subset hs.withdrawnOnce hsubset).length_le
  simpa using hle

/-- With overflow checks a total stays the sum of the amounts behind it. -/
theorem running_total {total sum : UInt64} {done : List ContractDeposit} {d : ContractDeposit}
    (hb : b.overflowChecks = true) (hadded : addU64 b total d.amount = .ok sum)
    (htotal : total.toNat = (done.map fun d => d.amount.toNat).sum) :
    sum.toNat = ((done ++ [d]).map fun d => d.amount.toNat).sum := by
  have hfits := addU64_checked hadded hb
  rw [List.map_append, List.sum_append, ← htotal, addU64_ok hadded, toNat_add_of_lt hfits]
  simp

theorem after_claim (hs : LogInvariant b s claimed withdrawn) {claim : ClaimDeposit}
    (hc : ClaimAccepted b claim s) {total claims : UInt64}
    (htotal : addU64 b s.totalBridged claim.publicInputs.amount = .ok total)
    (hclaims : claims.toNat = s.claimCount.toNat + 1) :
    LogInvariant b { s with
        processedDeposits := s.processedDeposits.set
          (makeDepositKeyStr claim.publicInputs.bridgeContract claim.publicInputs.depositId) true
        claimedAmounts := s.claimedAmounts.set claim.publicInputs.depositId
          claim.publicInputs.amount
        totalBridgedUsdc := some total
        totalClaims := some claims }
      (claimed ++ [⟨claim.publicInputs.bridgeContract, claim.publicInputs.depositId,
        claim.publicInputs.amount⟩]) withdrawn := by
  have hfresh : (claim.publicInputs.bridgeContract, claim.publicInputs.depositId) ∉
      claimed.map ContractDeposit.key := by
    intro hmem
    have := (hs.claimedKeys _ _).mpr hmem
    rw [hc.unclaimed] at this
    cases this
  refine ⟨?_, ?_, ?_, ?_, hs.withdrawnOnce, ?_, ?_, ?_, ?_, ?_, hs.nextId, ?_, ?_, hs.paid⟩
  · intro d hd
    rcases List.mem_append.mp hd with h | h
    · exact hs.named d h
    · rw [List.mem_singleton.mp h]
      exact ⟨_, hc.contract⟩
  · intro contract id
    refine Iff.trans (claimed_after_claim rfl) ?_
    rw [hs.claimedKeys, List.map_append, List.mem_append, List.map_singleton, List.mem_singleton]
    rfl
  · intro id
    exact Iff.trans (withdrawn_after_claim rfl) (hs.withdrawnKeys id)
  · rw [List.map_append]
    apply hs.claimedOnce.append (List.nodup_singleton _)
    simpa [ContractDeposit.key] using hfresh
  · intro id amount hamount
    rw [List.map_append, List.mem_append]
    by_cases hid : id = claim.publicInputs.depositId
    · subst hid
      right
      have hamount : some claim.publicInputs.amount = some amount :=
        (StateMap.set_self _ _ _).symm.trans hamount
      cases hamount
      exact List.mem_singleton.mpr rfl
    · left
      have hamount : s.claimedAmounts id = some amount :=
        (StateMap.set_of_ne _ _ hid).symm.trans hamount
      exact hs.amounts id amount hamount
  · intro d hd
    by_cases hid : d.depositId = claim.publicInputs.depositId
    · rw [hid]
      exact ⟨_, StateMap.set_self _ _ _⟩
    · rcases List.mem_append.mp hd with h | h
      · obtain ⟨amount, hamount⟩ := hs.hasAmount d h
        exact ⟨amount, (StateMap.set_of_ne _ _ hid).trans hamount⟩
      · rw [List.mem_singleton.mp h] at hid
        exact absurd rfl hid
  · intro d hd
    rcases List.mem_append.mp hd with h | h
    · exact hs.nonzero d h
    · rw [List.mem_singleton.mp h]
      exact hc.amount
  · intro w hw
    rw [List.map_append]
    exact List.mem_append_left _ (hs.withdrawnClaim w hw)
  · intro w hw
    rw [List.map_append]
    exact List.mem_append_left _ (hs.withdrawnAmount w hw)
  · rw [List.length_append, ← hs.claimCount]
    exact hclaims
  · exact fun hb => running_total hb htotal (hs.bridged hb)

theorem after_withdraw (hs : LogInvariant b s claimed withdrawn) {msg : WithdrawBridge}
    {amount sum nextId : UInt64} {contract : Bytes20} (hcontract : s.contract b = .ok contract)
    (hw : WithdrawChecks b msg s amount) (hnext : nextId.toNat = withdrawn.length + 1)
    (hsum : addU64 b s.withdrawnUsdc amount = .ok sum) :
    LogInvariant b { s with
        nextWithdrawalId := some nextId
        processedDeposits := s.processedDeposits.set (withdrawalKey msg.depositId) true
        withdrawals := s.withdrawals.set (s.nextWithdrawalId.getD 0)
          ⟨s.nextWithdrawalId.getD 0, msg.depositId, msg.ethRecipient, amount, false⟩
        totalWithdrawnUsdc := some sum }
      claimed (withdrawn ++ [⟨contract, msg.depositId, amount⟩]) := by
  have hfresh : msg.depositId ∉ withdrawn.map ContractDeposit.depositId := by
    intro hmem
    have := (hs.withdrawnKeys _).mpr hmem
    rw [hw.fresh] at this
    cases this
  obtain ⟨contract', hcontract', hclaimed⟩ := hw.claimed
  cases hcontract.symm.trans hcontract'
  refine ⟨hs.named, ?_, ?_, hs.claimedOnce, ?_, hs.amounts, hs.hasAmount, hs.nonzero, ?_, ?_, ?_,
    hs.claimCount, hs.bridged, ?_⟩
  · intro contract id
    exact Iff.trans (claimed_after_withdraw rfl) (hs.claimedKeys contract id)
  · intro id
    refine Iff.trans (withdrawn_after_withdraw rfl) ?_
    rw [hs.withdrawnKeys, List.map_append, List.mem_append, List.map_singleton, List.mem_singleton]
  · rw [List.map_append]
    exact hs.withdrawnOnce.append (List.nodup_singleton _) (by simpa using hfresh)
  · intro w hmem
    rcases List.mem_append.mp hmem with h | h
    · exact hs.withdrawnClaim w h
    · rw [List.mem_singleton.mp h]
      exact (hs.claimedKeys contract msg.depositId).mp hclaimed
  · intro w hmem
    rcases List.mem_append.mp hmem with h | h
    · exact hs.withdrawnAmount w h
    · rw [List.mem_singleton.mp h]
      exact hs.amounts _ _ hw.claimedAmount
  · rw [List.length_append]
    exact hnext
  · exact fun hb => running_total hb hsum (hs.paid hb)

end LogInvariant

theorem LogInvariant.nextId_fits {b : Build} {s : Runtime}
    {claimed withdrawn : List ContractDeposit}
    (hc : Counted b s) (hs : LogInvariant b s.obscuraBridge claimed withdrawn) :
    (s.obscuraBridge.nextWithdrawalId.getD 0).toNat + (1 : UInt64).toNat < 2 ^ 64 := by
  have hfits := hc.claims_fit
  rw [hs.claimCount] at hfits
  rw [hs.nextId]
  exact (Nat.add_le_add_right hs.withdrawn_le _).trans_lt hfits

theorem call_log {b : Build} {s s' : Runtime} {tx : Tx} {claimed withdrawn : List ContractDeposit}
    (hc : Counted b s) (hs : LogInvariant b s.obscuraBridge claimed withdrawn)
    (h : Runtime.Step b s tx s') :
    LogInvariant b s'.obscuraBridge (claimed ++ (BridgeOp.call tx).claimed)
      (withdrawn ++ (BridgeOp.call tx).withdrawn b s.obscuraBridge s'.obscuraBridge) := by
  cases h with
  | shield ctx msg privacy h => simpa [BridgeOp.claimed, BridgeOp.withdrawn] using hs
  | transfer ctx msg privacy h => simpa [BridgeOp.claimed, BridgeOp.withdrawn] using hs
  | unshield ctx msg privacy h => simpa [BridgeOp.claimed, BridgeOp.withdrawn] using hs
  | updateSanctionsRoot ctx msg privacy h => simpa [BridgeOp.claimed, BridgeOp.withdrawn] using hs
  | claimDeposit ctx claim s' h =>
    obtain ⟨hchecks, t, shielded, sum, claims, _, _, hsum, hclaims, rfl⟩ :=
      handleClaimDeposit_ok.mp h
    have hcount := addU64_one hclaims hc.claims_fit
    have hafter := hs.after_claim (claimChecks_ok.mp hchecks) hsum hcount
    exact (List.append_nil withdrawn).symm ▸ hafter
  | withdrawBridge ctx msg bridge h =>
    obtain ⟨amount, nextId, sum, hchecks, hnext, hsum, rfl⟩ := handleWithdrawBridge_ok.mp h
    obtain ⟨contract, hcontract, _⟩ := hchecks.claimed
    have hval : nextId.toNat = withdrawn.length + 1 := by
      rw [addU64_one hnext (hs.nextId_fits hc), hs.nextId]
    have hafter := hs.after_withdraw hcontract hchecks hval hsum
    simpa [BridgeOp.claimed, BridgeOp.withdrawn, hcontract] using hafter
  | updateHeliosHead ctx update bridge h =>
    obtain ⟨_, count, _, rfl⟩ := handleUpdateHeliosHead_ok.mp h
    simp only [BridgeOp.claimed, BridgeOp.withdrawn, List.append_nil]
    exact { hs with }

/-- The log of a run: its state counts no more claims than leaves, its lists are the storage's. -/
structure ContractLog.Sound (b : Build) (l : ContractLog) : Prop where
  counted : Counted b l.runtime
  log : LogInvariant b l.runtime.obscuraBridge l.claims l.withdrawals

theorem step_sound {b : Build} {op : BridgeOp} {l l' : ContractLog} (hl : l.Sound b)
    (h : ContractLog.step b op l = .ok l') : l'.Sound b := by
  obtain ⟨s', hs', rfl⟩ := ContractLog.step_ok.mp h
  obtain ⟨hcounted, hlog⟩ := hl
  cases op with
  | updateConfig sender newConfig =>
    simp only [BridgeOp.apply, bind_ok, pure_ok] at hs'
    obtain ⟨bridge, hbridge, rfl⟩ := hs'
    obtain ⟨_, rfl⟩ := updateConfig_ok.mp hbridge
    refine ⟨⟨hcounted.faithful, hcounted.claims⟩, ?_⟩
    simp only [BridgeOp.claimed, BridgeOp.withdrawn, List.append_nil]
    exact { hlog with }
  | call tx =>
    have hstep := Runtime.step_of_call_ok hs'
    exact ⟨step_counted hcounted hstep, call_log hcounted hlog hstep⟩

theorem run_sound (b : Build) (config : BridgeConfig) (ops : List BridgeOp) :
    (ContractLog.run b config ops).Sound b := by
  have hgenesis : ContractLog.Sound b ⟨Runtime.genesis b config, [], []⟩ :=
    ⟨counted_genesis b config, log_genesis b config⟩
  exact run_invariant (P := fun l _ => l.Sound b) hgenesis
    (fun l _ op l' hl h => step_sound hl h) ops

end ObscuraNetwork
