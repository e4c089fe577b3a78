import ObscuraNetwork.AccountingRuns
import ObscuraNetwork.BridgeEffects
import ObscuraNetwork.BridgeKeys
import Mathlib.Data.List.Perm.Subperm

namespace ObscuraNetwork

open ObscuraBridge ObscuraPrivacy

/-- The deposit a transaction claims, with its amount. -/
def Tx.claimed (tx : Tx) : List (UInt64 × UInt64) :=
  match tx.call with
  | .obscuraBridge (.claimDeposit claim) =>
    [(claim.publicInputs.depositId, claim.publicInputs.amount)]
  | _ => []

def Tx.withdrawn (tx : Tx) : List UInt64 :=
  match tx.call with
  | .obscuraBridge (.withdrawBridge msg) => [msg.depositId]
  | _ => []

def claimedDeposits (txs : List Tx) : List (UInt64 × UInt64) := txs.flatMap Tx.claimed

def claimedIds (txs : List Tx) : List UInt64 := (claimedDeposits txs).map Prod.fst

def withdrawnIds (txs : List Tx) : List UInt64 := txs.flatMap Tx.withdrawn

theorem claimedDeposits_concat (txs : List Tx) (tx : Tx) :
    claimedDeposits (txs ++ [tx]) = claimedDeposits txs ++ tx.claimed := by
  simp [claimedDeposits]

theorem withdrawnIds_concat (txs : List Tx) (tx : Tx) :
    withdrawnIds (txs ++ [tx]) = withdrawnIds txs ++ tx.withdrawn := by
  simp [withdrawnIds]

/-- The bridge's maps and counters against the deposits claimed and the deposits withdrawn, each in
the order of acceptance. -/
structure LedgerInvariant (b : Build) (config : BridgeConfig) (s : ObscuraBridge)
    (claimed : List (UInt64 × UInt64)) (withdrawn : List UInt64) : Prop where
  config : s.config = some config
  claimedKeys : ∀ contract, s.contract b = .ok contract → ∀ id,
    s.isProcessed (makeDepositKeyStr contract id) = true ↔ id ∈ claimed.map Prod.fst
  withdrawnKeys : ∀ id, s.isProcessed (withdrawalKey id) = true ↔ id ∈ withdrawn
  amounts : ∀ id amount, s.claimedAmounts id = some amount ↔ (id, amount) ∈ claimed
  nonzero : ∀ entry ∈ claimed, entry.2 ≠ 0
  claimedOnce : (claimed.map Prod.fst).Nodup
  withdrawnOnce : withdrawn.Nodup
  order : withdrawn ⊆ claimed.map Prod.fst
  records : ∀ w, (s.withdrawals w).map WithdrawalRecord.depositId = withdrawn[w.toNat]?
  recordAmounts : ∀ w r, s.withdrawals w = some r → s.claimedAmounts r.depositId = some r.amount
  nextId : (s.nextWithdrawalId.getD 0).toNat = withdrawn.length
  claims : s.claimCount.toNat = claimed.length

section Steps

variable {b : Build} {config : BridgeConfig} {s s' : ObscuraBridge}
  {claimed : List (UInt64 × UInt64)} {withdrawn : List UInt64}

theorem ledger_genesis (b : Build) (config : BridgeConfig) :
    LedgerInvariant b config (ObscuraBridge.genesis config) [] [] where
  config := rfl
  claimedKeys _ _ _ := by simp [isProcessed, ObscuraBridge.genesis]
  withdrawnKeys _ := by simp [isProcessed, ObscuraBridge.genesis]
  amounts _ _ := by simp [ObscuraBridge.genesis]
  nonzero := by simp
  claimedOnce := List.nodup_nil
  withdrawnOnce := List.nodup_nil
  order := List.Subset.refl []
  records _ := rfl
  recordAmounts w r h := by simp [ObscuraBridge.genesis] at h
  nextId := rfl
  claims := rfl

theorem isProcessed_set {key key' : String}
    (h : s'.processedDeposits = s.processedDeposits.set key true) :
    s'.isProcessed key' = true ↔ s.isProcessed key' = true ∨ key' = key := by
  unfold isProcessed
  rw [h]
  by_cases hkey : key' = key
  · subst hkey
    simp
  · rw [StateMap.set_of_ne _ true hkey]
    simp [hkey]

section ClaimMarker

variable {contract contract' : Bytes20} {id id' : UInt64}
  (h : s'.processedDeposits = s.processedDeposits.set (makeDepositKeyStr contract id) true)

include h

theorem claimed_after_claim : s'.isProcessed (makeDepositKeyStr contract' id') = true ↔
    s.isProcessed (makeDepositKeyStr contract' id') = true ∨ (contract', id') = (contract, id) := by
  rw [isProcessed_set h]
  refine or_congr_right ⟨fun hkey => ?_, fun hpair => ?_⟩
  · obtain ⟨hcontract, hid⟩ := makeDepositKeyStr_inj hkey
    rw [hcontract, hid]
  · cases hpair
    rfl

theorem withdrawn_after_claim : s'.isProcessed (withdrawalKey id') = true ↔
    s.isProcessed (withdrawalKey id') = true := by
  rw [isProcessed_set h]
  exact or_iff_left fun hkey => makeDepositKeyStr_ne_withdrawalKey _ _ _ hkey.symm

end ClaimMarker

section WithdrawalMarker

variable {contract : Bytes20} {id id' : UInt64}
  (h : s'.processedDeposits = s.processedDeposits.set (withdrawalKey id) true)

include h

theorem claimed_after_withdraw : s'.isProcessed (makeDepositKeyStr contract id') = true ↔
    s.isProcessed (makeDepositKeyStr contract id') = true := by
  rw [isProcessed_set h]
  exact or_iff_left (makeDepositKeyStr_ne_withdrawalKey _ _ _)

theorem withdrawn_after_withdraw : s'.isProcessed (withdrawalKey id') = true ↔
    s.isProcessed (withdrawalKey id') = true ∨ id' = id := by
  rw [isProcessed_set h]
  exact or_congr_right ⟨fun hkey => withdrawalKey_injective hkey, fun hid => hid ▸ rfl⟩

end WithdrawalMarker

theorem LedgerInvariant.withdrawn_le (hs : LedgerInvariant b config s claimed withdrawn) :
    withdrawn.length ≤ s.claimCount.toNat := by
  have hle := (List.subperm_of_subset hs.withdrawnOnce hs.order).length_le
  rw [List.length_map] at hle
  rw [hs.claims]
  exact hle

theorem LedgerInvariant.after_claim (hs : LedgerInvariant b config s claimed withdrawn)
    {claim : ClaimDeposit} (hc : ClaimAccepted b claim s) (total : UInt64) {claims : UInt64}
    (hclaims : claims.toNat = s.claimCount.toNat + 1) :
    LedgerInvariant b config { s with
        processedDeposits := s.processedDeposits.set
          (makeDepositKeyStr claim.publicInputs.bridgeContract claim.publicInputs.depositId) true
        claimedAmounts := s.claimedAmounts.set claim.publicInputs.depositId
          claim.publicInputs.amount
        totalBridgedUsdc := some total
        totalClaims := some claims }
      (claimed ++ [(claim.publicInputs.depositId, claim.publicInputs.amount)]) withdrawn := by
  have hfresh : claim.publicInputs.depositId ∉ claimed.map Prod.fst := by
    intro hmem
    have := (hs.claimedKeys _ hc.contract _).mpr hmem
    rw [hc.unclaimed] at this
    exact Bool.noConfusion this
  refine ⟨hs.config, ?_, ?_, ?_, ?_, ?_, hs.withdrawnOnce, ?_, hs.records, ?_, hs.nextId, ?_⟩
  · intro contract hcontract id
    have hsame : contract = claim.publicInputs.bridgeContract := by
      have hcontract : s.contract b = .ok contract := hcontract
      rw [hc.contract] at hcontract
      exact (Except.ok.inj hcontract).symm
    subst hsame
    refine Iff.trans (claimed_after_claim rfl) ?_
    rw [hs.claimedKeys _ hc.contract, List.map_append, List.mem_append, List.map_singleton,
      List.mem_singleton, Prod.mk.injEq, and_iff_right rfl]
  · intro id
    exact Iff.trans (withdrawn_after_claim rfl) (hs.withdrawnKeys id)
  · intro id amount
    by_cases hid : id = claim.publicInputs.depositId
    · subst hid
      have hnone : (claim.publicInputs.depositId, amount) ∉ claimed := fun hmem =>
        hfresh (List.mem_map.mpr ⟨_, hmem, rfl⟩)
      simp [hnone, eq_comm]
    · simp [StateMap.set_of_ne _ _ hid, hs.amounts, hid]
  · intro entry hentry
    rcases List.mem_append.mp hentry with h | h
    · exact hs.nonzero entry h
    · rw [List.mem_singleton.mp h]
      exact hc.amount
  · rw [List.map_append]
    exact hs.claimedOnce.append (List.nodup_singleton _) (by simpa using hfresh)
  · rw [List.map_append]
    exact List.subset_append_of_subset_left _ hs.order
  · intro w r hr
    have hamount := hs.recordAmounts w r hr
    have hne : r.depositId ≠ claim.publicInputs.depositId := by
      intro heq
      have hmem := (hs.amounts _ _).mp hamount
      exact hfresh (heq ▸ List.mem_map.mpr ⟨_, hmem, rfl⟩)
    rw [← hamount]
    exact StateMap.set_of_ne _ _ hne
  · rw [List.length_append, ← hs.claims]
    exact hclaims

theorem LedgerInvariant.after_withdraw (hs : LedgerInvariant b config s claimed withdrawn)
    {msg : WithdrawBridge} {amount nextId : UInt64} (sum : UInt64)
    (hw : WithdrawChecks b msg s amount)
    (hnext : nextId.toNat = (s.nextWithdrawalId.getD 0).toNat + 1) :
    LedgerInvariant b config { s with
        nextWithdrawalId := some nextId
        processedDeposits := s.processedDeposits.set (withdrawalKey msg.depositId) true
        withdrawals := s.withdrawals.set (s.nextWithdrawalId.getD 0)
          ⟨s.nextWithdrawalId.getD 0, msg.depositId, msg.ethRecipient, amount, false⟩
        totalWithdrawnUsdc := some sum }
      claimed (withdrawn ++ [msg.depositId]) := by
  have hfresh : msg.depositId ∉ withdrawn := by
    intro hmem
    have := (hs.withdrawnKeys _).mpr hmem
    rw [hw.fresh] at this
    exact Bool.noConfusion this
  refine ⟨hs.config, ?_, ?_, hs.amounts, hs.nonzero, hs.claimedOnce, ?_, ?_, ?_, ?_, ?_, hs.claims⟩
  · intro contract' hcontract' id
    exact Iff.trans (claimed_after_withdraw rfl) (hs.claimedKeys contract' hcontract' id)
  · intro id
    refine Iff.trans (withdrawn_after_withdraw rfl) ?_
    rw [hs.withdrawnKeys, List.mem_append, List.mem_singleton]
  · exact hs.withdrawnOnce.append (List.nodup_singleton _) (by simpa using hfresh)
  · intro id hid
    rcases List.mem_append.mp hid with h | h
    · exact hs.order h
    · obtain ⟨contract, hcontract, hclaimed⟩ := hw.claimed
      rw [List.mem_singleton.mp h]
      exact (hs.claimedKeys contract hcontract _).mp hclaimed
  · intro w
    by_cases hnew : w = s.nextWithdrawalId.getD 0
    · subst hnew
      rw [hs.nextId, List.getElem?_append_right (Nat.le_refl _)]
      simp
    · have hne : w.toNat ≠ withdrawn.length := by
        rw [← hs.nextId]
        exact fun h => hnew (UInt64.toNat_inj.mp h)
      have hbefore := hs.records w
      show ((s.withdrawals.set _ _) w).map _ = _
      rw [StateMap.set_of_ne _ _ hnew, hbefore]
      rcases Nat.lt_or_gt_of_ne hne with h | h
      · rw [List.getElem?_append_left h]
      · rw [List.getElem?_eq_none (by omega), List.getElem?_eq_none]
        simp only [List.length_append, List.length_singleton]
        omega
  · intro w r hr
    by_cases hnew : w = s.nextWithdrawalId.getD 0
    · subst hnew
      have hr : some _ = some r := (StateMap.set_self _ _ _).symm.trans hr
      cases hr
      exact hw.claimedAmount
    · have hr : s.withdrawals w = some r := (StateMap.set_of_ne _ _ hnew).symm.trans hr
      exact hs.recordAmounts w r hr
  · rw [List.length_append, ← hs.nextId]
    exact hnext

end Steps

theorem LedgerInvariant.nextId_fits {b : Build} {config : BridgeConfig} {s : Runtime}
    {claimed : List (UInt64 × UInt64)} {withdrawn : List UInt64}
    (hs : LedgerInvariant b config s.obscuraBridge claimed withdrawn) (hc : Counted b s) :
    (s.obscuraBridge.nextWithdrawalId.getD 0).toNat + (1 : UInt64).toNat < 2 ^ 64 := by
  rw [hs.nextId]
  exact (Nat.add_le_add_right hs.withdrawn_le _).trans_lt hc.claims_fit

theorem step_ledger {b : Build} {config : BridgeConfig} {s s' : Runtime} {tx : Tx}
    {claimed : List (UInt64 × UInt64)} {withdrawn : List UInt64} (hc : Counted b s)
    (hs : LedgerInvariant b config s.obscuraBridge claimed withdrawn)
    (h : Runtime.Step b s tx s') :
    LedgerInvariant b config s'.obscuraBridge (claimed ++ tx.claimed)
      (withdrawn ++ tx.withdrawn) := by
  cases h with
  | shield ctx msg privacy h => simpa [Tx.claimed, Tx.withdrawn] using hs
  | transfer ctx msg privacy h => simpa [Tx.claimed, Tx.withdrawn] using hs
  | unshield ctx msg privacy h => simpa [Tx.claimed, Tx.withdrawn] using hs
  | updateSanctionsRoot ctx msg privacy h => simpa [Tx.claimed, Tx.withdrawn] using hs
  | claimDeposit ctx claim s' h =>
    obtain ⟨hchecks, t, shielded, sum, claims, _, _, _, hclaims, rfl⟩ := handleClaimDeposit_ok.mp h
    have hcount := addU64_one hclaims hc.claims_fit
    have hafter := hs.after_claim (claimChecks_ok.mp hchecks) sum hcount
    exact (List.append_nil withdrawn).symm ▸ hafter
  | withdrawBridge ctx msg bridge h =>
    obtain ⟨amount, nextId, sum, hchecks, hnext, _, rfl⟩ := handleWithdrawBridge_ok.mp h
    have hcount := addU64_one hnext (hs.nextId_fits hc)
    have hafter := hs.after_withdraw sum hchecks hcount
    exact (List.append_nil claimed).symm ▸ hafter
  | updateHeliosHead ctx update bridge h =>
    obtain ⟨_, count, _, rfl⟩ := handleUpdateHeliosHead_ok.mp h
    simp only [Tx.claimed, Tx.withdrawn, List.append_nil]
    exact { hs with }

theorem run_ledger (b : Build) (config : BridgeConfig) (txs : List Tx) :
    LedgerInvariant b config (Runtime.run b config txs).obscuraBridge
      (claimedDeposits (Runtime.acceptedTxs b config txs))
      (withdrawnIds (Runtime.acceptedTxs b config txs)) ∧
    ∀ pre, pre <+: Runtime.acceptedTxs b config txs → withdrawnIds pre ⊆ claimedIds pre := by
  let P : Runtime → List Tx → Prop := fun s done => Counted b s ∧
    LedgerInvariant b config s.obscuraBridge (claimedDeposits done) (withdrawnIds done) ∧
    ∀ pre, pre <+: done → withdrawnIds pre ⊆ claimedIds pre
  have h : P (Runtime.run b config txs) (Runtime.acceptedTxs b config txs) :=
    Runtime.run_induction ?_ ?_ txs
  · exact h.2
  · refine ⟨⟨genesis_tree_faithful b, Nat.zero_le _⟩, ledger_genesis b config, ?_⟩
    intro pre hpre
    rw [List.prefix_nil.mp hpre]
    exact List.Subset.refl []
  · intro s done tx s' hs hstep
    obtain ⟨hc, hledger, horder⟩ := hs
    have hafter := step_ledger hc hledger hstep
    rw [← claimedDeposits_concat, ← withdrawnIds_concat] at hafter
    refine ⟨step_counted hc hstep, hafter, ?_⟩
    intro pre hpre
    rcases List.prefix_concat_iff.mp hpre with rfl | hpre
    · exact hafter.order
    · exact horder pre hpre

/-- The bridge's storage against the transactions accepted so far. -/
structure ExactlyOnce (s : ObscuraBridge) (done : List Tx) : Prop where
  claimedOnce : (claimedIds done).Nodup
  withdrawnOnce : (withdrawnIds done).Nodup
  withdrawnAfterClaim : ∀ pre, pre <+: done → withdrawnIds pre ⊆ claimedIds pre
  claimedAmount : ∀ id amount,
    s.claimedAmounts id = some amount ↔ (id, amount) ∈ claimedDeposits done
  nonzero : ∀ id, s.claimedAmounts id ≠ some 0
  withdrawalIds : ∀ w, (s.withdrawals w).isSome ↔ w < s.nextWithdrawalId.getD 0
  distinctDeposits : ∀ w w' r r', s.withdrawals w = some r → s.withdrawals w' = some r' →
    r.depositId = r'.depositId → w = w'
  recordAmount : ∀ w r, s.withdrawals w = some r → s.claimedAmounts r.depositId = some r.amount
  totalClaims : (s.totalClaims.getD 0).toNat = (claimedIds done).length

theorem LedgerInvariant.isSome_withdrawals {b : Build} {config : BridgeConfig} {s : ObscuraBridge}
    {claimed : List (UInt64 × UInt64)} {withdrawn : List UInt64}
    (hs : LedgerInvariant b config s claimed withdrawn) (w : UInt64) :
    (s.withdrawals w).isSome ↔ w < s.nextWithdrawalId.getD 0 := by
  have hrecord := congrArg Option.isSome (hs.records w)
  rw [Option.isSome_map] at hrecord
  rw [hrecord, UInt64.lt_iff_toNat_lt, hs.nextId]
  simp

theorem LedgerInvariant.withdrawals_distinct {b : Build} {config : BridgeConfig} {s : ObscuraBridge}
    {claimed : List (UInt64 × UInt64)} {withdrawn : List UInt64}
    (hs : LedgerInvariant b config s claimed withdrawn) {w w' : UInt64} {r r' : WithdrawalRecord}
    (hr : s.withdrawals w = some r) (hr' : s.withdrawals w' = some r')
    (hsame : r.depositId = r'.depositId) : w = w' := by
  have hw := hs.records w
  have hw' := hs.records w'
  rw [hr, Option.map_some] at hw
  rw [hr', Option.map_some, ← hsame] at hw'
  obtain ⟨hlt, _⟩ := List.getElem?_eq_some_iff.mp hw.symm
  have hindex := (List.getElem?_inj hlt hs.withdrawnOnce).mp (hw.symm.trans hw')
  exact UInt64.toNat_inj.mp hindex

/-- Whatever is submitted after genesis, every deposit is claimed at most once and withdrawn at most
once, after its claim, and the bridge's maps and counters say so. The keys that share a map never
collide. -/
theorem bridge_exactly_once (b : Build) (config : BridgeConfig) (txs : List Tx) :
    ExactlyOnce (Runtime.run b config txs).obscuraBridge (Runtime.acceptedTxs b config txs) ∧
    (∀ contract id id', makeDepositKeyStr contract id ≠ withdrawalKey id') ∧
    (∀ contract, Function.Injective (makeDepositKeyStr contract)) ∧
    Function.Injective withdrawalKey := by
  obtain ⟨hs, horder⟩ := run_ledger b config txs
  refine ⟨?_, makeDepositKeyStr_ne_withdrawalKey, ?_, withdrawalKey_injective⟩
  · refine ⟨hs.claimedOnce, hs.withdrawnOnce, horder, hs.amounts, ?_, hs.isSome_withdrawals, ?_,
      hs.recordAmounts, ?_⟩
    · intro id hzero
      exact hs.nonzero _ ((hs.amounts id 0).mp hzero) rfl
    · intro w w' r r' hr hr' hsame
      exact hs.withdrawals_distinct hr hr' hsame
    · rw [claimedIds, List.length_map]
      exact hs.claims
  · intro contract id id' h
    exact (makeDepositKeyStr_inj h).2

end ObscuraNetwork
