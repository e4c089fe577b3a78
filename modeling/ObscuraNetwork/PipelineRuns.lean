import ObscuraNetwork.BridgePipeline
import ObscuraNetwork.MultisigRelease

namespace ObscuraNetwork

open ObscuraBridge AutoRelayer

section PipelineRuns

variable {b : Build} {config : BridgeConfig} {keccak256 : Bytes → Bytes32}
  {ecrecover : Bytes32 → UInt8 → Bytes → Bytes → Bytes20} {chainId : Nat} {bridge : Bytes20}
  {p p' : Pipeline} {claimed : List (UInt64 × UInt64)}

theorem depositLogs_block {head : Nat} {blockHash : Bytes32} {events : List BridgeEvent} :
    ∀ log ∈ depositLogs head blockHash events, (head : Int) < log.blockNumber := by
  intro log hlog
  obtain ⟨event, _, hevent⟩ := List.mem_filterMap.mp hlog
  cases event with
  | depositLocked depositId sender obscuraRecipient amount timestamp =>
    cases hevent
    show (head : Int) < head + 1
    omega
  | _ => cases hevent

namespace Pipeline

theorem step_careful {action : PipelineAction bridge} (inv : PipelineInvariant b config bridge p)
    (hrelay : RelayInvariant p.logs p.relay) (hcareful : carefully p action = true)
    (h : step b keccak256 ecrecover chainId bridge p action = some p') :
    RelayInvariant p'.logs p'.relay := by
  obtain ⟨hallowed, hturn⟩ := Bool.and_eq_true_iff.mp hcareful
  cases action with
  | mine =>
    cases h
    exact hrelay
  | ethereum action blockHash =>
    simp only [step] at h
    split at h
    next => cases h
    next =>
      cases h
      exact hrelay.newLogs inv.within depositLogs_block
  | relay turn =>
    obtain ⟨relay, hstep, _, _, rfl⟩ := step_relay h
    exact relayStep_invariant hrelay hturn hstep
  | execute context =>
    obtain ⟨_, hlogs, hstep⟩ := execute_simulates inv h
    rw [hlogs]
    exact relayStep_invariant hrelay rfl hstep
  | submit tx =>
    obtain ⟨hlogs, hsame | ⟨request, hstep⟩⟩ :=
      settleTx_simulates inv (List.all_eq_true.mp hallowed) h
    · rw [hlogs, hsame]
      exact hrelay
    · rw [hlogs]
      exact relayStep_invariant hrelay rfl hstep

end Pipeline

/-- A claim is of a deposit that the contract knows, in its amount and for its recipient. -/
theorem PipelineInvariant.claimed_deposit (inv : PipelineInvariant b config bridge p)
    {entry : UInt64 × UInt64} (hentry : entry ∈ claimedDeposits p.accepted) :
    entry.1.toNat < p.ethereum.contract.ledger.nextDepositId ∧
      (p.ethereum.contract.ledger.deposits entry.1.toNat).amount = entry.2.toNat ∧
      ⟨(p.ethereum.contract.ledger.deposits entry.1.toNat).obscuraRecipient⟩ ∈
        p.rollup.obscuraPrivacy.commitments := by
  obtain ⟨log, hlog, hid, hamount, hleaf⟩ := inv.claims entry hentry
  have hlogged := inv.logged log hlog
  rw [hid, hamount, hlogged.recipient]
  exact ⟨hlogged.live, hlogged.amount, hleaf⟩

/-- The deposits claimed and not released are part of what the contract owes. -/
theorem claimed_owed {l : Ledger} {h : History} (inv : SolvencyInvariant bridge l h)
    (hamounts : ∀ entry ∈ claimed, entry.1.toNat < l.nextDepositId ∧
      (l.deposits entry.1.toNat).amount = entry.2.toNat)
    (honce : (claimed.map Prod.fst).Nodup) :
    claimedTotal (claimed.filter fun entry => (l.deposits entry.1.toNat).status = 1) ≤
      l.usdc.balanceOf bridge := by
  generalize hlocked : claimed.filter
    (fun entry => decide ((l.deposits entry.1.toNat).status = 1)) = locked
  have hmem : ∀ entry ∈ locked, entry ∈ claimed ∧ (l.deposits entry.1.toNat).status = 1 := by
    intro entry hentry
    rw [← hlocked, List.mem_filter, decide_eq_true_eq] at hentry
    exact hentry
  have hids : (locked.map fun entry => entry.1.toNat).Nodup := by
    have hsub : (locked.map Prod.fst).Nodup :=
      honce.sublist ((hlocked ▸ List.filter_sublist).map Prod.fst)
    have hinj : Function.Injective UInt64.toNat := fun _ _ h => UInt64.toNat_inj.mp h
    have hnat := hsub.map hinj
    rwa [List.map_map] at hnat
  have hsum : claimedTotal locked =
      ((locked.map fun entry => entry.1.toNat).map fun id => (l.deposits id).owed).sum := by
    rw [claimedTotal, List.map_map]
    refine congrArg List.sum (List.map_congr_left fun entry hentry => ?_)
    obtain ⟨hclaimed, hstatus⟩ := hmem entry hentry
    show entry.2.toNat = (l.deposits entry.1.toNat).owed
    rw [Deposit.owed, if_pos hstatus, (hamounts entry hclaimed).2]
  rw [hsum, ← List.sum_toFinset _ hids]
  refine (Finset.sum_le_sum_of_subset fun id hid => ?_).trans inv.backed
  obtain ⟨entry, hentry, rfl⟩ := List.mem_map.mp (List.mem_toFinset.mp hid)
  exact Finset.mem_range.mpr (hamounts entry (hmem entry hentry).1).1

end PipelineRuns

open Pipeline in
/-- The rollup's bridged USDC comes from Ethereum: whatever the parties do, and as long as nobody
claims what was not deposited, a deposit is claimed at most once, in its amount and as a leaf for its
recipient; the bridged total is the exact sum of the claims; and the claimed deposits that are not
released yet are covered by the tokens that the contract holds. -/
theorem claims_backed_on_ethereum (b : Build) (config : BridgeConfig) (keccak256 : Bytes → Bytes32)
    (ecrecover : Bytes32 → UInt8 → Bytes → Bytes → Bytes20) (chainId : Nat) (bridge owner : Bytes20)
    (signers : List Bytes20) (threshold : Nat) (usdc : Erc20) {deployed : BridgeV2}
    (hdeployed : BridgeV2.construct owner signers threshold (Ledger.initial usdc) = .ok deployed)
    (head nonce : Nat) (disk : Disk) (hdisk : ∀ s, disk = .saved s → Within [] head s)
    {p : Pipeline} (h : Reaches (step b keccak256 ecrecover chainId bridge) allowed
      (launch b config deployed head disk nonce) p) :
    let l := p.ethereum.contract.ledger
    let claimed := claimedDeposits p.accepted
    (claimed.map Prod.fst).Nodup ∧
      (∀ entry ∈ claimed, let d := l.deposits entry.1.toNat
        (d.status = 1 ∨ d.status = 2) ∧ d.amount = entry.2.toNat ∧
          ⟨d.obscuraRecipient⟩ ∈ p.rollup.obscuraPrivacy.commitments) ∧
      p.rollup.obscuraBridge.totalBridged.toNat = claimedTotal claimed ∧
      claimedTotal (claimed.filter fun entry => (l.deposits entry.1.toNat).status = 1) ≤
        l.usdc.balanceOf bridge := by
  have inv : PipelineInvariant b config bridge p :=
    h.invariant (launch_invariant hdeployed hdisk) fun _ _ _ hp =>
      Pipeline.step_invariant hp
  refine ⟨inv.ledger.claimedOnce, fun entry hentry => ?_, inv.total, ?_⟩
  · obtain ⟨hlive, hamount, hleaf⟩ := inv.claimed_deposit hentry
    exact ⟨(inv.solvency.live _).mpr hlive, hamount, hleaf⟩
  · refine claimed_owed inv.solvency (fun entry hentry => ?_) inv.ledger.claimedOnce
    obtain ⟨hlive, hamount, _⟩ := inv.claimed_deposit hentry
    exact ⟨hlive, hamount⟩

open Pipeline in
/-- Every deposit of the contract is logged in a block, and once the relayer's file is past this
block the rollup has credited the deposit, or the relayer still has it in its queue. -/
theorem deposits_delivered (b : Build) (config : BridgeConfig) (keccak256 : Bytes → Bytes32)
    (ecrecover : Bytes32 → UInt8 → Bytes → Bytes → Bytes20) (chainId : Nat) (bridge owner : Bytes20)
    (signers : List Bytes20) (threshold : Nat) (usdc : Erc20) {deployed : BridgeV2}
    (hdeployed : BridgeV2.construct owner signers threshold (Ledger.initial usdc) = .ok deployed)
    (head nonce : Nat) (disk : Disk) (hdisk : ∀ s, disk = .saved s → Within [] head s)
    (hclaimed : (loadState disk).claimed = [])
    {p : Pipeline} (h : Reaches (step b keccak256 ecrecover chainId bridge) carefully
      (launch b config deployed head disk nonce) p) :
    let l := p.ethereum.contract.ledger
    ∀ id < l.nextDepositId, ∃ log ∈ p.logs, log.depositId = id ∧
      ∀ s first, p.relay.disk = .saved s → p.relay.initial = some first →
        first < log.blockNumber → log.blockNumber ≤ s.lastBlock →
        (∃ q ∈ s.pending, q.depositId = id) ∨
          p.rollup.obscuraBridge.claimedAmounts (UInt64.ofNat id) =
            some (UInt64.ofNat (l.deposits id).amount) ∧
          ⟨(l.deposits id).obscuraRecipient⟩ ∈ p.rollup.obscuraPrivacy.commitments := by
  intro l id hid
  have hstart : PipelineInvariant b config bridge (launch b config deployed head disk nonce) ∧
      RelayInvariant [] (launch b config deployed head disk nonce).relay := by
    refine ⟨launch_invariant hdeployed hdisk, Fresh.invariant ⟨rfl, rfl, fun id hmem => ?_⟩⟩
    rw [launch, hclaimed] at hmem
    cases hmem
  obtain ⟨inv, hrelay⟩ : PipelineInvariant b config bridge p ∧ RelayInvariant p.logs p.relay := by
    refine h.invariant (P := fun p => PipelineInvariant b config bridge p ∧
      RelayInvariant p.logs p.relay) hstart fun p action p' hp hcareful hstep => ?_
    have hallowed := (Bool.and_eq_true_iff.mp hcareful).1
    exact ⟨Pipeline.step_invariant hp.1 hallowed hstep, step_careful hp.1 hp.2 hcareful hstep⟩
  obtain ⟨log, hlog, hlogId⟩ := inv.complete id hid
  refine ⟨log, hlog, hlogId, fun s first hsaved hfirst hafter hscanned => ?_⟩
  rcases (hrelay.disk s hsaved).covered log hlog first hfirst hafter hscanned with
    haccepted | hwaits
  · obtain ⟨entry, hentry, hentryId⟩ := (inv.known _).mp haccepted
    obtain ⟨_, hamount, hleaf⟩ := inv.claimed_deposit hentry
    rw [hentryId, hlogId] at hamount hleaf
    rw [hlogId] at hentryId
    refine Or.inr ⟨?_, hleaf⟩
    rw [hamount, ← hentryId, UInt64.ofNat_toNat, UInt64.ofNat_toNat]
    exact (inv.ledger.amounts _ _).mpr hentry
  · exact Or.inl (hlogId ▸ hwaits)

section Sample

def sampleConfig : BridgeConfig :=
  { BridgeConfig.default with
    bridgeContractAddress := "0xbbbbbbbbbbbbbbbbbbbbbbbbbbbbbbbbbbbbbbbb" }

/-- A deposit is made in block 101, and the relayer claims it from a file that is at block 100. -/
def sampleDelivery : List (PipelineAction sampleBridge) :=
  [.relay .start,
    .ethereum (.call (sampleCtx .moves) (.deposit 2000000 (FixedBytes.replicate 32 7)))
      (FixedBytes.replicate 32 9),
    .mine, .relay .proceed, .relay (.block (some 101)), .relay (.logs true), .relay .proceed,
    .relay .sign, .execute ⟨[], 0⟩, .relay (.answer .ok), .relay .proceed]

def sampleLaunch : Pipeline :=
  Pipeline.launch .default sampleConfig sampleDeployed 100 (.saved ⟨100, [], none⟩) 5

theorem sampleDisk_within (s : RelayState) (h : Disk.saved ⟨100, [], none⟩ = .saved s) :
    Within [] ((100 : Nat) : Int) s := by
  cases h
  exact ⟨le_rfl, fun p hp => (nomatch hp)⟩

/-- The run with the file, the claims and the ids of the logs at its end. -/
def sampleSummary (allowed : Pipeline → PipelineAction sampleBridge → Bool) :
    Option (Disk × Option Int × List (UInt64 × UInt64) × Nat) :=
  (stepAll (Pipeline.step .default keccak256 Secp256k1.ecrecover 11155111 sampleBridge) allowed
    sampleDelivery sampleLaunch).map fun p => (p.relay.disk, p.relay.initial,
      claimedDeposits p.accepted, p.ethereum.contract.ledger.nextDepositId)

theorem delivery_backed : ∃ p,
    stepAll (Pipeline.step .default keccak256 Secp256k1.ecrecover 11155111 sampleBridge)
      Pipeline.allowed sampleDelivery sampleLaunch = some p ∧
    claimedDeposits p.accepted = [(0, 2000000)] ∧
    p.rollup.obscuraBridge.totalBridged.toNat = claimedTotal (claimedDeposits p.accepted) := by
  have hrun : sampleSummary Pipeline.allowed =
      some (.saved ⟨101, [0], none⟩, some 100, [(0, 2000000)], 1) := by
    decide +kernel
  obtain ⟨p, hp, hsummary⟩ := Option.map_eq_some_iff.mp hrun
  refine ⟨p, hp, congrArg (fun summary => summary.2.2.1) hsummary, ?_⟩
  exact (claims_backed_on_ethereum .default sampleConfig keccak256 Secp256k1.ecrecover 11155111
    sampleBridge sampleOwner sampleSigners 2 sampleUsdc rfl 100 5 _ sampleDisk_within
    (Reaches.start.stepAll hp)).2.2.1

theorem delivery_delivered : ∃ p log s,
    stepAll (Pipeline.step .default keccak256 Secp256k1.ecrecover 11155111 sampleBridge)
      Pipeline.carefully sampleDelivery sampleLaunch = some p ∧
    log ∈ p.logs ∧ log.depositId = 0 ∧ p.relay.disk = .saved s ∧
    (100 < log.blockNumber → log.blockNumber ≤ s.lastBlock → (∃ q ∈ s.pending, q.depositId = 0) ∨
      p.rollup.obscuraBridge.claimedAmounts 0 =
        some (UInt64.ofNat (p.ethereum.contract.ledger.deposits 0).amount) ∧
      ⟨(p.ethereum.contract.ledger.deposits 0).obscuraRecipient⟩ ∈
        p.rollup.obscuraPrivacy.commitments) := by
  have hrun : sampleSummary Pipeline.carefully =
      some (.saved ⟨101, [0], none⟩, some 100, [(0, 2000000)], 1) := by
    decide +kernel
  obtain ⟨p, hp, hsummary⟩ := Option.map_eq_some_iff.mp hrun
  obtain ⟨hdisk, hrest⟩ := Prod.mk.inj hsummary
  obtain ⟨hinitial, hrest⟩ := Prod.mk.inj hrest
  have hnext : p.ethereum.contract.ledger.nextDepositId = 1 := (Prod.mk.inj hrest).2
  obtain ⟨log, hlog, hid, hdelivered⟩ := deposits_delivered .default sampleConfig keccak256
    Secp256k1.ecrecover 11155111 sampleBridge sampleOwner sampleSigners 2 sampleUsdc rfl 100 5 _
    sampleDisk_within rfl (Reaches.start.stepAll hp) 0 (hnext ▸ Nat.zero_lt_one)
  exact ⟨p, log, _, hp, hlog, hid, hdisk, hdelivered _ _ hdisk hinitial⟩

end Sample

end ObscuraNetwork
