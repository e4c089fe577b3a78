import ObscuraNetwork.BridgeLedger
import ObscuraNetwork.BridgeSolvency
import ObscuraNetwork.GenuineClaims

namespace ObscuraNetwork

open ObscuraBridge AutoRelayer

/-- `buildMockProof`: the prefix and the id in eight bytes, the lowest first. -/
def buildMockProof (depositId : UInt64) : Bytes := mockProofPrefix ++ toLeBytes depositId

/-- What `claimDeposit` sends. `Number` keeps the ids and amounts below `2^53`; larger ones, which
it rounds, are not sent here. -/
def claimMessage (bridgeContract : Bytes20) (request : ClaimRequest) : Option ClaimDeposit :=
  if request.depositId < 2 ^ 53 ∧ request.amount < 2 ^ 53 then
    some
      { proof := buildMockProof (UInt64.ofNat request.depositId)
        publicInputs :=
          { ethBlockHash := request.blockHash
            beaconBlockRoot := zeroBytes
            depositId := UInt64.ofNat request.depositId
            obscuraRecipient := request.obscuraRecipient
            amount := UInt64.ofNat request.amount
            bridgeContract } }
  else none

/-- What a transaction of the rollup claims. -/
def Tx.claimRequests (tx : Tx) : List ClaimRequest :=
  match tx.call with
  | .obscuraBridge (.claimDeposit claim) =>
    [⟨claim.publicInputs.depositId.toNat, claim.publicInputs.ethBlockHash,
      claim.publicInputs.obscuraRecipient, claim.publicInputs.amount.toNat⟩]
  | _ => []

theorem next_block_pos (head : Nat) : 0 < (head : Int) + 1 := by omega

/-- The `DepositLocked` events of a call, in the block after the head. -/
def depositLogs (head : Nat) (blockHash : Bytes32) (events : List BridgeEvent) :
    List DepositLog :=
  events.filterMap fun event =>
    match event with
    | .depositLocked depositId sender obscuraRecipient amount _ =>
      some ⟨(head : Int) + 1, next_block_pos head, blockHash, depositId, sender, obscuraRecipient,
        amount⟩
    | _ => none

/-- The contract, the last block of Ethereum and the deposits logged, the relayer, the rollup and
what it has accepted. -/
structure Pipeline where
  ethereum : Audited BridgeV2
  head : Nat
  logs : List DepositLog
  relay : RelayWorld
  rollup : Runtime
  accepted : List Tx

inductive PipelineAction (bridge : Bytes20) where
  /-- A block is added, and an action is included in the one after the head. -/
  | mine
  | ethereum (action : BridgeAction bridge BridgeV2Call) (blockHash : Bytes32)
  /-- The relayer goes on. -/
  | relay (turn : Turn)
  /-- The rollup executes the relayer's claim, or a transaction of another sender. -/
  | execute (context : TxContext)
  | submit (tx : Tx)

namespace Pipeline

/-- A transaction that the rollup accepts. -/
def settleTx (b : Build) (tx : Tx) (p : Pipeline) : Option Pipeline :=
  match Runtime.call b tx p.rollup with
  | .error _ => none
  | .ok rollup =>
    some { p with
      rollup
      accepted := p.accepted ++ [tx]
      relay := { p.relay with accepted := tx.claimRequests ++ p.relay.accepted } }

section Step

variable (b : Build) (keccak256 : Bytes → Bytes32)
  (ecrecover : Bytes32 → UInt8 → Bytes → Bytes → Bytes20) (chainId : Nat) (bridge : Bytes20)

/-- The claim that the relayer has signed reaches the rollup. -/
def execute (context : TxContext) (p : Pipeline) : Option Pipeline :=
  match p.relay.task with
  | .claiming s purpose call =>
    if call.nonce = some p.relay.nonce ∧ call.included = false then do
      let claim ← claimMessage bridge call.request
      let p' ← p.settleTx b ⟨context, .obscuraBridge (.claimDeposit claim)⟩
      pure { p' with relay := { p'.relay with
        task := .claiming s purpose { call with included := true }
        nonce := p.relay.nonce + 1 } }
    else none
  | _ => none

/-- One step of one party. What is reverted or refused changes nothing. -/
def step (p : Pipeline) : PipelineAction bridge → Option Pipeline
  | .mine => some { p with head := p.head + 1 }
  | .ethereum action blockHash =>
    match audit BridgeV2.ledger (BridgeV2.act keccak256 ecrecover chainId) action p.ethereum with
    | .error _ => none
    | .ok ethereum =>
      let events := p.ethereum.contract.ledger.events
      let logs := depositLogs p.head blockHash (ethereum.contract.ledger.events.drop events.length)
      some { p with ethereum, logs := p.logs ++ logs }
  | .relay .accept => none
  | .relay (.otherClaim _) => none
  | .relay turn => (relayStep p.logs p.relay turn).map fun relay => { p with relay }
  | .execute context => execute b bridge context p
  | .submit tx => p.settleTx b tx

end Step

/-- A claim is for what was deposited. -/
def genuine (logs : List DepositLog) (request : ClaimRequest) : Bool :=
  logs.any fun log => decide (request.depositId = log.depositId ∧ request.amount = log.amount ∧
    request.obscuraRecipient = log.obscuraRecipient)

/-- The node knows no block after the head, and nobody else claims what was not deposited. -/
def allowed {bridge : Bytes20} (p : Pipeline) : PipelineAction bridge → Bool
  | .relay turn => upTo p.head turn
  | .submit tx => tx.claimRequests.all (genuine p.logs)
  | _ => true

/-- In addition the relayer's turns lose no deposit. -/
def carefully {bridge : Bytes20} (p : Pipeline) (action : PipelineAction bridge) : Bool :=
  allowed p action &&
    match action with
    | .relay turn => careful p.logs p.relay turn
    | _ => true

/-- All parties start, the relayer from a file that names a block or from none. -/
def launch (b : Build) (config : BridgeConfig) (deployed : BridgeV2) (head : Nat) (disk : Disk)
    (nonce : Nat) : Pipeline where
  ethereum := ⟨deployed, ⟨[], []⟩⟩
  head := head
  logs := []
  relay := ⟨disk, .stopped, [], nonce, none⟩
  rollup := Runtime.genesis b config
  accepted := []

end Pipeline

/-- The contract holds what a log says. -/
structure Logged (l : Ledger) (log : DepositLog) : Prop where
  live : log.depositId < l.nextDepositId
  amount : (l.deposits log.depositId).amount = log.amount
  recipient : (l.deposits log.depositId).obscuraRecipient = log.obscuraRecipient
  bound : log.amount ≤ maxDeposit

/-- What a claim on the rollup has come from. -/
def ClaimedFrom (logs : List DepositLog) (commitments : List Commitment)
    (entry : UInt64 × UInt64) : Prop :=
  ∃ log ∈ logs, entry.1.toNat = log.depositId ∧ entry.2.toNat = log.amount ∧
    ⟨log.obscuraRecipient⟩ ∈ commitments

def claimedTotal (claimed : List (UInt64 × UInt64)) : Nat :=
  (claimed.map fun entry => entry.2.toNat).sum

/-- The three parties against one another. -/
structure PipelineInvariant (b : Build) (config : BridgeConfig) (bridge : Bytes20) (p : Pipeline) :
    Prop where
  counted : Counted b p.rollup
  ledger : LedgerInvariant b config p.rollup.obscuraBridge (claimedDeposits p.accepted)
    (withdrawnIds p.accepted)
  solvency : SolvencyInvariant bridge p.ethereum.contract.ledger p.ethereum.history
  logged : ∀ log ∈ p.logs, Logged p.ethereum.contract.ledger log
  complete : ∀ id < p.ethereum.contract.ledger.nextDepositId, ∃ log ∈ p.logs, log.depositId = id
  within : WorldWithin p.logs p.head p.relay
  claims : ∀ entry ∈ claimedDeposits p.accepted,
    ClaimedFrom p.logs p.rollup.obscuraPrivacy.commitments entry
  total : p.rollup.obscuraBridge.totalBridged.toNat = claimedTotal (claimedDeposits p.accepted)
  known : ∀ id, isAccepted p.relay.accepted id = true ↔
    ∃ entry ∈ claimedDeposits p.accepted, entry.1.toNat = id

section Ethereum

variable {keccak256 : Bytes → Bytes32} {ecrecover : Bytes32 → UInt8 → Bytes → Bytes → Bytes20}
  {chainId : Nat} {bridge : Bytes20}

/-- The events that an action adds, with what they say of the new ledger. -/
structure Emits (head : Nat) (blockHash : Bytes32) (l l' : Ledger) : Prop where
  kept : ∀ id < l.nextDepositId, (l'.deposits id).amount = (l.deposits id).amount ∧
    (l'.deposits id).obscuraRecipient = (l.deposits id).obscuraRecipient
  grows : l.nextDepositId ≤ l'.nextDepositId
  logged : ∀ log ∈ depositLogs head blockHash (l'.events.drop l.events.length),
    Logged l' log ∧ l.nextDepositId ≤ log.depositId
  complete : ∀ id, l.nextDepositId ≤ id → id < l'.nextDepositId →
    ∃ log ∈ depositLogs head blockHash (l'.events.drop l.events.length), log.depositId = id

variable {head : Nat} {blockHash : Bytes32} {l l' : Ledger}

/-- A call that locks nothing and whose events are of other kinds. -/
theorem Emits.quiet (events : List BridgeEvent) (hevents : l'.events = l.events ++ events)
    (hquiet : depositLogs head blockHash events = []) (hnext : l'.nextDepositId = l.nextDepositId)
    (hkept : ∀ id, (l'.deposits id).amount = (l.deposits id).amount ∧
      (l'.deposits id).obscuraRecipient = (l.deposits id).obscuraRecipient) :
    Emits head blockHash l l' := by
  have hnew : depositLogs head blockHash (l'.events.drop l.events.length) = [] := by
    rw [hevents, List.drop_left, hquiet]
  refine ⟨fun id _ => hkept id, hnext.ge, fun log hlog => ?_, fun id hfrom hlt => ?_⟩
  · rw [hnew] at hlog
    cases hlog
  · omega

theorem deposit_emits {label : String} {ctx : CallContext bridge} {amount : Nat}
    {obscuraRecipient : Bytes32} {depositId : Nat}
    (h : l.deposit label ctx amount obscuraRecipient = .ok (depositId, l')) :
    Emits head blockHash l l' := by
  simp only [Ledger.deposit, bind_ok, ensure_ok, pure_ok, Prod.exists, Prod.mk.injEq] at h
  obtain ⟨_, _, _, hmax, _, _, moved, usdc, _, _, _, _, _, rfl, rfl⟩ := h
  have hkept : ∀ id < l.nextDepositId, Function.update l.deposits l.nextDepositId
      ⟨ctx.sender, obscuraRecipient, amount, UInt64.ofNat ctx.timestamp, 1⟩ id =
        l.deposits id := fun id hid => Function.update_of_ne (by omega) _ _
  refine ⟨fun id hid => ?_, Nat.le_succ _, fun log hlog => ?_, fun id hfrom hlt => ?_⟩
  · simp only [Ledger.emit, hkept id hid, and_self]
  · simp only [Ledger.emit, List.drop_left, depositLogs, List.filterMap_cons,
      List.filterMap_nil, List.mem_singleton] at hlog
    subst hlog
    refine ⟨⟨Nat.lt_succ_self _, ?_, ?_, hmax⟩, le_rfl⟩
    · simp [Ledger.emit]
    · simp [Ledger.emit]
  · have hid : id = l.nextDepositId := Nat.le_antisymm (Nat.lt_succ_iff.mp hlt) hfrom
    simp only [Ledger.emit, List.drop_left, depositLogs, List.filterMap_cons, List.filterMap_nil]
    exact ⟨_, List.mem_singleton_self _, hid.symm⟩

theorem act_emits {action : BridgeAction bridge BridgeV2Call} {s s' : BridgeV2}
    {effect : BridgeEffect}
    (h : BridgeV2.act keccak256 ecrecover chainId action s = .ok (effect, s')) :
    Emits head blockHash s.ledger s'.ledger := by
  cases action with
  | usdcTransfer sender hsender recipient amount =>
    simp only [BridgeV2.act, Ledger.usdcTransfer, bind_ok, pure_ok, Prod.exists,
      Prod.mk.injEq] at h
    obtain ⟨_, ⟨_, _, _, rfl⟩, _, rfl⟩ := h
    exact .quiet [] (List.append_nil _).symm rfl rfl fun _ => ⟨rfl, rfl⟩
  | call ctx message =>
    cases message with
    | deposit amount obscuraRecipient =>
      simp only [BridgeV2.act, BridgeV2.call, bind_ok, pure_ok, Prod.exists, Prod.mk.injEq] at h
      obtain ⟨depositId, ledger, hdeposit, _, rfl⟩ := h
      exact deposit_emits hdeposit
    | releaseMultisig id recipient nonce signatures =>
      simp only [BridgeV2.act, BridgeV2.call, BridgeV2.releaseMultisig, Ledger.payOut, bind_ok,
        ensure_ok, pure_ok, Prod.exists, Prod.mk.injEq] at h
      obtain ⟨_, ⟨_, _, _, _, _, _, _, _, _, _, _, _, _, ⟨_, _, _, _, _, rfl⟩, rfl⟩, _, rfl⟩ := h
      refine .quiet [_] rfl rfl rfl fun id' => ?_
      by_cases hid : id' = id
      · subst hid
        simp [Ledger.emit]
      · simp [Ledger.emit, Function.update_of_ne hid]
    | addSigner signer =>
      simp only [BridgeV2.act, BridgeV2.call, BridgeV2.addSigner, bind_ok, pure_ok,
        Prod.mk.injEq] at h
      obtain ⟨_, ⟨_, _, _, _, _, _, _, _, rfl⟩, _, rfl⟩ := h
      exact .quiet [_] rfl rfl rfl fun _ => ⟨rfl, rfl⟩
    | removeSigner signer =>
      simp only [BridgeV2.act, BridgeV2.call, BridgeV2.removeSigner, bind_ok, pure_ok,
        Prod.mk.injEq] at h
      obtain ⟨_, ⟨_, _, _, _, hremoved⟩, _, rfl⟩ := h
      split at hremoved
      next i _ =>
        rw [pure_ok] at hremoved
        rw [← hremoved]
        exact .quiet [_] rfl rfl rfl fun _ => ⟨rfl, rfl⟩
      next => cases hremoved
    | setThreshold newThreshold =>
      simp only [BridgeV2.act, BridgeV2.call, BridgeV2.setThreshold, bind_ok, pure_ok,
        Prod.mk.injEq] at h
      obtain ⟨_, ⟨_, _, _, _, _, _, rfl⟩, _, rfl⟩ := h
      exact .quiet [_] rfl rfl rfl fun _ => ⟨rfl, rfl⟩
    | transferOwnership newOwner =>
      simp only [BridgeV2.act, BridgeV2.call, BridgeV2.transferOwnership, bind_ok, pure_ok,
        Prod.mk.injEq] at h
      obtain ⟨_, ⟨_, _, _, _, rfl⟩, _, rfl⟩ := h
      exact .quiet [] (List.append_nil _).symm rfl rfl fun _ => ⟨rfl, rfl⟩

theorem Logged.kept {log : DepositLog} (h : Logged l log) (hemits : Emits head blockHash l l') :
    Logged l' log := by
  obtain ⟨hamount, hrecipient⟩ := hemits.kept _ h.live
  exact ⟨h.live.trans_le hemits.grows, hamount.trans h.amount, hrecipient.trans h.recipient,
    h.bound⟩

end Ethereum

section Rollup

variable {b : Build} {config : BridgeConfig} {s s' : Runtime} {tx : Tx} {logs : List DepositLog}
  {claimed : List (UInt64 × UInt64)} {withdrawn : List UInt64}

theorem claimRequests_cases (tx : Tx) : (tx.claimed = [] ∧ tx.claimRequests = []) ∨
    ∃ request id amount, tx.claimRequests = [request] ∧ tx.claimed = [(id, amount)] ∧
      request.depositId = id.toNat ∧ request.amount = amount.toNat ∧
      insertedCommitments b tx = [⟨request.obscuraRecipient⟩] := by
  obtain ⟨ctx, call⟩ := tx
  cases call with
  | obscuraPrivacy msg => exact Or.inl ⟨rfl, rfl⟩
  | obscuraBridge msg =>
    cases msg with
    | claimDeposit claim => exact Or.inr ⟨_, _, _, rfl, rfl, rfl, rfl, rfl⟩
    | withdrawBridge msg => exact Or.inl ⟨rfl, rfl⟩
    | updateHeliosHead update => exact Or.inl ⟨rfl, rfl⟩

theorem claimedTotal_concat (claimed entries : List (UInt64 × UInt64)) :
    claimedTotal (claimed ++ entries) = claimedTotal claimed + claimedTotal entries := by
  simp [claimedTotal]

theorem claimedTotal_le (hbound : ∀ entry ∈ claimed, entry.2.toNat ≤ maxDeposit) :
    claimedTotal claimed ≤ claimed.length * maxDeposit := by
  have hamounts : ∀ amount ∈ claimed.map fun entry => entry.2.toNat, amount ≤ maxDeposit := by
    intro amount hamount
    obtain ⟨entry, hentry, rfl⟩ := List.mem_map.mp hamount
    exact hbound entry hentry
  have hsum := List.sum_le_card_nsmul _ maxDeposit hamounts
  rwa [List.length_map, Nat.nsmul_eq_mul] at hsum

/-- The bridged total is the exact sum: the claims that fit into the tree are too few to wrap it. -/
theorem step_total (hcounted : Counted b s)
    (hledger : LedgerInvariant b config s.obscuraBridge claimed withdrawn)
    (hbound : ∀ entry ∈ claimed ++ tx.claimed, entry.2.toNat ≤ maxDeposit)
    (htotal : s.obscuraBridge.totalBridged.toNat = claimedTotal claimed)
    (hstep : Runtime.Step b s tx s') :
    s'.obscuraBridge.totalBridged.toNat = claimedTotal (claimed ++ tx.claimed) := by
  rw [claimedTotal_concat]
  cases hstep with
  | shield ctx msg privacy h => exact htotal
  | transfer ctx msg privacy h => exact htotal
  | unshield ctx msg privacy h => exact htotal
  | updateSanctionsRoot ctx msg privacy h => exact htotal
  | withdrawBridge ctx msg bridge h =>
    obtain ⟨_, _, _, _, _, _, rfl⟩ := handleWithdrawBridge_ok.mp h
    exact htotal
  | updateHeliosHead ctx update bridge h =>
    obtain ⟨_, _, _, rfl⟩ := handleUpdateHeliosHead_ok.mp h
    exact htotal
  | claimDeposit ctx claim s' h =>
    obtain ⟨_, privacy, _, sum, _, ht, _, hsum, _, rfl⟩ := handleClaimDeposit_ok.mp h
    have hroom := (ObscuraPrivacy.insertCommitment_isOk hcounted.faithful _).mp ⟨privacy, ht⟩
    have hfew : claimed.length < 2 ^ treeDepth := by
      rw [← hledger.claims]
      exact hcounted.claims.trans_lt hroom
    have hold := claimedTotal_le fun entry hentry => hbound entry (List.mem_append_left _ hentry)
    have hnew : claim.publicInputs.amount.toNat ≤ maxDeposit :=
      hbound _ (List.mem_append_right _ List.mem_cons_self)
    have hmost : claimed.length * maxDeposit ≤ 2 ^ treeDepth * maxDeposit :=
      Nat.mul_le_mul_right _ hfew.le
    have hcapacity : 2 ^ treeDepth * maxDeposit + maxDeposit < 2 ^ 64 := by decide
    have hfits : s.obscuraBridge.totalBridged.toNat + claim.publicInputs.amount.toNat <
        2 ^ 64 := by omega
    show sum.toNat = claimedTotal claimed + (claim.publicInputs.amount.toNat + 0)
    rw [addU64_ok hsum, Nat.add_zero, ← htotal]
    exact toNat_add_of_lt hfits

/-- The rollup accepts a claim only of a deposit that has none. -/
theorem claim_unknown (hledger : LedgerInvariant b config s.obscuraBridge claimed withdrawn)
    (hstep : Runtime.Step b s tx s') : ∀ entry ∈ tx.claimed, entry.1 ∉ claimed.map Prod.fst := by
  intro entry hentry
  cases hstep with
  | claimDeposit ctx claim s' h =>
    obtain ⟨hchecks, _⟩ := handleClaimDeposit_ok.mp h
    have hc := claimChecks_ok.mp hchecks
    rw [List.mem_singleton.mp hentry, ← hledger.claimedKeys _ hc.contract, hc.unclaimed]
    exact Bool.false_ne_true
  | _ => cases hentry

theorem isAccepted_append (requests accepted : List ClaimRequest) (id : Nat) :
    isAccepted (requests ++ accepted) id = true ↔
      (∃ request ∈ requests, request.depositId = id) ∨ isAccepted accepted id = true := by
  simp [isAccepted]

end Rollup

namespace Pipeline

variable {b : Build} {config : BridgeConfig} {keccak256 : Bytes → Bytes32}
  {ecrecover : Bytes32 → UInt8 → Bytes → Bytes → Bytes20} {chainId : Nat} {bridge : Bytes20}
  {p p' : Pipeline} {tx : Tx}

theorem settleTx_some (h : p.settleTx b tx = some p') : ∃ rollup,
    Runtime.Step b p.rollup tx rollup ∧ p' = { p with
      rollup
      accepted := p.accepted ++ [tx]
      relay := { p.relay with accepted := tx.claimRequests ++ p.relay.accepted } } := by
  unfold settleTx at h
  split at h
  next => cases h
  next rollup hcall =>
    cases h
    exact ⟨rollup, Runtime.step_of_call_ok hcall, rfl⟩

theorem genuine_iff {logs : List DepositLog} {request : ClaimRequest} :
    genuine logs request = true ↔ ∃ log ∈ logs, request.depositId = log.depositId ∧
      request.amount = log.amount ∧ request.obscuraRecipient = log.obscuraRecipient := by
  simp [genuine]

/-- A claim that the rollup accepts is of a logged deposit, for the first time. -/
theorem settleTx_invariant (inv : PipelineInvariant b config bridge p)
    (hgenuine : ∀ request ∈ tx.claimRequests, genuine p.logs request = true)
    (h : p.settleTx b tx = some p') : PipelineInvariant b config bridge p' ∧
      ∀ request ∈ tx.claimRequests, isAccepted p.relay.accepted request.depositId = false := by
  obtain ⟨rollup, hstep, rfl⟩ := settleTx_some h
  have hcommitments := step_commitments hstep
  have hclaims : ∀ entry ∈ claimedDeposits p.accepted ++ tx.claimed,
      ClaimedFrom p.logs rollup.obscuraPrivacy.commitments entry := by
    intro entry hentry
    rcases List.mem_append.mp hentry with hold | hnew
    · obtain ⟨log, hlog, hid, hamount, hleaf⟩ := inv.claims entry hold
      rw [hcommitments]
      exact ⟨log, hlog, hid, hamount, List.mem_append_left _ hleaf⟩
    · rcases @claimRequests_cases b tx with ⟨hnone, _⟩ |
        ⟨request, id, amount, hrequests, hclaimed, hid, hamount, hinserted⟩
      · rw [hnone] at hnew
        cases hnew
      · rw [hclaimed, List.mem_singleton] at hnew
        obtain ⟨log, hlog, hid', hamount', hrecipient⟩ := genuine_iff.mp
          (hgenuine request (hrequests ▸ List.mem_cons_self))
        rw [hnew, hcommitments, hinserted, hrecipient]
        exact ⟨log, hlog, hid.symm.trans hid', hamount.symm.trans hamount',
          List.mem_append_right _ List.mem_cons_self⟩
  have hbound : ∀ entry ∈ claimedDeposits p.accepted ++ tx.claimed,
      entry.2.toNat ≤ maxDeposit := by
    intro entry hentry
    obtain ⟨log, hlog, _, hamount, _⟩ := hclaims entry hentry
    exact hamount.trans_le (inv.logged log hlog).bound
  refine ⟨⟨step_counted inv.counted hstep, ?_, inv.solvency, inv.logged, inv.complete,
    ⟨inv.within.disk, inv.within.task⟩, ?_, ?_, fun id => ?_⟩, fun request hrequest => ?_⟩
  · rw [claimedDeposits_concat, withdrawnIds_concat]
    exact step_ledger inv.counted inv.ledger hstep
  · rw [claimedDeposits_concat]
    exact hclaims
  · rw [claimedDeposits_concat]
    exact step_total inv.counted inv.ledger hbound inv.total hstep
  · rw [claimedDeposits_concat, isAccepted_append, inv.known]
    rcases @claimRequests_cases b tx with ⟨hnone, hnone'⟩ |
      ⟨request, id', amount, hrequests, hclaimed, hid, _⟩
    · simp [hnone, hnone']
    · simp [hrequests, hclaimed, hid, or_comm, or_and_right, exists_or]
  · rcases @claimRequests_cases b tx with ⟨_, hnone⟩ |
      ⟨request', id, amount, hrequests, hclaimed, hid, _⟩
    · rw [hnone] at hrequest
      cases hrequest
    · rw [hrequests, List.mem_singleton] at hrequest
      have hunknown := claim_unknown inv.ledger hstep (id, amount)
        (hclaimed ▸ List.mem_cons_self)
      rw [hrequest, hid, ← Bool.not_eq_true, inv.known]
      rintro ⟨entry, hentry, hsame⟩
      exact hunknown (List.mem_map.mpr ⟨entry, hentry, UInt64.toNat_inj.mp hsame⟩)

theorem claimMessage_some {request : ClaimRequest} {claim : ClaimDeposit}
    (h : claimMessage bridge request = some claim) (context : TxContext) :
    Tx.claimRequests ⟨context, .obscuraBridge (.claimDeposit claim)⟩ = [request] := by
  unfold claimMessage at h
  split at h
  next hsmall =>
    cases h
    have hid : (UInt64.ofNat request.depositId).toNat = request.depositId :=
      UInt64.toNat_ofNat_of_lt' (hsmall.1.trans (by decide))
    have hamount : (UInt64.ofNat request.amount).toNat = request.amount :=
      UInt64.toNat_ofNat_of_lt' (hsmall.2.trans (by decide))
    simp only [Tx.claimRequests, hid, hamount]
  next => cases h

theorem execute_some {context : TxContext} (h : execute b bridge context p = some p') :
    ∃ s purpose call claim settled, p.relay.task = .claiming s purpose call ∧
      call.nonce = some p.relay.nonce ∧ call.included = false ∧
      claimMessage bridge call.request = some claim ∧
      p.settleTx b ⟨context, .obscuraBridge (.claimDeposit claim)⟩ = some settled ∧
      p' = { settled with relay := { settled.relay with
        task := .claiming s purpose { call with included := true }
        nonce := p.relay.nonce + 1 } } := by
  unfold execute at h
  split at h
  next s purpose call htask =>
    split at h
    next hcall =>
      obtain ⟨claim, hclaim, h⟩ := Option.bind_eq_some_iff.mp h
      obtain ⟨settled, hsettled, h⟩ := Option.bind_eq_some_iff.mp h
      exact ⟨s, purpose, call, claim, settled, htask, hcall.1, hcall.2, hclaim, hsettled,
        (Option.some.inj h).symm⟩
    next => cases h
  next => cases h

/-- What the relayer asks for has been logged. -/
theorem claiming_genuine (inv : PipelineInvariant b config bridge p) {s : RelayState}
    {purpose : Purpose} {call : ClaimCall} (htask : p.relay.task = .claiming s purpose call) :
    genuine p.logs call.request = true := by
  have hwithin := inv.within.task
  rw [htask] at hwithin
  obtain ⟨_, hpurpose, hrequest⟩ := hwithin
  rw [genuine_iff, hrequest]
  cases purpose with
  | retry q todo stillPending =>
    obtain ⟨log, hlog, hpending⟩ := hpurpose.1 q List.mem_cons_self
    exact ⟨log, hlog, by simp [Purpose.pending, Pending.request, ← hpending, DepositLog.pending]⟩
  | scan log rest toBlock => exact ⟨log, (List.cons_subset.mp hpurpose.1).1, rfl, rfl, rfl⟩

theorem withRelay_invariant {relay : RelayWorld} (inv : PipelineInvariant b config bridge p)
    (hwithin : WorldWithin p.logs p.head relay) (haccepted : relay.accepted = p.relay.accepted) :
    PipelineInvariant b config bridge { p with relay } where
  counted := inv.counted
  ledger := inv.ledger
  solvency := inv.solvency
  logged := inv.logged
  complete := inv.complete
  within := hwithin
  claims := inv.claims
  total := inv.total
  known := haccepted ▸ inv.known

/-- An accepted claim of the relayer is the step `accept` of its own machine. -/
theorem execute_simulates (inv : PipelineInvariant b config bridge p) {context : TxContext}
    (h : execute b bridge context p = some p') : PipelineInvariant b config bridge p' ∧
      p'.logs = p.logs ∧ relayStep p.logs p.relay .accept = some p'.relay := by
  obtain ⟨s, purpose, call, claim, settled, htask, hnonce, hincluded, hclaim, hsettled, rfl⟩ :=
    execute_some h
  have hrequests := claimMessage_some hclaim context
  have hgenuine : ∀ request ∈ Tx.claimRequests ⟨context, .obscuraBridge (.claimDeposit claim)⟩,
      genuine p.logs request = true := by
    intro request hrequest
    rw [hrequests, List.mem_singleton] at hrequest
    exact hrequest ▸ claiming_genuine inv htask
  obtain ⟨hafter, hunknown⟩ := settleTx_invariant inv hgenuine hsettled
  have hnew := hunknown call.request (hrequests ▸ List.mem_cons_self)
  obtain ⟨rollup, _, rfl⟩ := settleTx_some hsettled
  have hsim : relayStep p.logs p.relay .accept = some
      { p.relay with
        accepted := call.request :: p.relay.accepted
        task := .claiming s purpose { call with included := true }
        nonce := p.relay.nonce + 1 } := by
    simp only [relayStep, htask, mainStep, hnonce, hincluded, hnew, and_self, if_true]
  have hwithin := relayStep_within inv.within (Int.natCast_nonneg _) rfl hsim
  simp only [hrequests, List.singleton_append] at hafter ⊢
  exact ⟨withRelay_invariant hafter hwithin rfl, trivial, hsim⟩

/-- An accepted transaction of another sender is a claim of its machine, or no step of it. -/
theorem settleTx_simulates (inv : PipelineInvariant b config bridge p)
    (hgenuine : ∀ request ∈ tx.claimRequests, genuine p.logs request = true)
    (h : p.settleTx b tx = some p') : p'.logs = p.logs ∧ (p'.relay = p.relay ∨
      ∃ request, relayStep p.logs p.relay (.otherClaim request) = some p'.relay) := by
  obtain ⟨_, hunknown⟩ := settleTx_invariant inv hgenuine h
  obtain ⟨rollup, _, rfl⟩ := settleTx_some h
  refine ⟨rfl, ?_⟩
  rcases @claimRequests_cases b tx with ⟨_, hnone⟩ | ⟨request, _, _, hrequests, _⟩
  · exact Or.inl (by simp [hnone])
  · have hnew := hunknown request (hrequests ▸ List.mem_cons_self)
    refine Or.inr ⟨request, ?_⟩
    simp only [relayStep, hnew, Bool.false_eq_true, if_false, hrequests, List.singleton_append]

theorem answered_accepted (w : RelayWorld) (s : RelayState) (reply : ClaimReply)
    (purpose : Purpose) : (answered w s reply purpose).accepted = w.accepted := by
  cases purpose with
  | retry p todo stillPending =>
    simp only [answered]
    split
    · rfl
    · rfl
  | scan log rest toBlock => rfl

/-- Only `accept` and `otherClaim` tell the relayer's machine of a claim. -/
theorem mainStep_accepted {logs : List DepositLog} {w w' : RelayWorld} {turn : Turn}
    (hturn : turn ≠ .accept) (h : mainStep logs w w.task turn = some w') :
    w'.accepted = w.accepted := by
  unfold mainStep at h
  split at h
  next =>
    dsimp only at h
    split at h
    next =>
      cases h
      rfl
    next =>
      cases h
      rfl
  next =>
    cases h
    rfl
  next =>
    cases h
    rfl
  next =>
    split at h
    next =>
      cases h
      rfl
    next =>
      cases h
      rfl
  next =>
    cases h
    rfl
  next =>
    cases h
    rfl
  next =>
    cases h
    rfl
  next =>
    split at h
    next =>
      cases h
      rfl
    next =>
      cases h
      rfl
  next =>
    split at h
    next =>
      cases h
      rfl
    next =>
      cases h
      rfl
  next =>
    split at h
    next =>
      cases h
      rfl
    next =>
      split at h
      next =>
        cases h
        rfl
      next =>
        cases h
        rfl
  next =>
    cases h
    rfl
  next =>
    cases h
    rfl
  next => exact absurd rfl hturn
  next purpose _ _ _ =>
    split at h
    next =>
      cases h
      exact answered_accepted _ _ _ _
    next => cases h
  next =>
    cases h
    rfl
  next => cases h

theorem relayStep_accepted {logs : List DepositLog} {w w' : RelayWorld} {turn : Turn}
    (hturn : turn ≠ .accept) (hclaim : ∀ request, turn ≠ .otherClaim request)
    (h : relayStep logs w turn = some w') : w'.accepted = w.accepted := by
  unfold relayStep at h
  split at h
  next =>
    cases h
    rfl
  next =>
    split at h
    next =>
      cases h
      rfl
    next => cases h
  next =>
    cases h
    rfl
  next request => exact absurd rfl (hclaim request)
  next => exact mainStep_accepted hturn h

theorem ethereum_invariant {ethereum : Audited BridgeV2} {action : BridgeAction bridge BridgeV2Call}
    (inv : PipelineInvariant b config bridge p) (blockHash : Bytes32)
    (h : audit BridgeV2.ledger (BridgeV2.act keccak256 ecrecover chainId) action p.ethereum =
      .ok ethereum) :
    PipelineInvariant b config bridge { p with
      ethereum
      logs := p.logs ++ depositLogs p.head blockHash (ethereum.contract.ledger.events.drop
        p.ethereum.contract.ledger.events.length) } := by
  simp only [audit, bind_ok, pure_ok, Prod.exists] at h
  obtain ⟨effect, s', hact, rfl⟩ := h
  have hemits : Emits p.head blockHash p.ethereum.contract.ledger s'.ledger := act_emits hact
  refine ⟨inv.counted, inv.ledger, step_invariant inv.solvency (BridgeV2.act_step hact),
    fun log hlog => ?_, fun id hid => ?_,
    inv.within.mono (List.subset_append_left _ _) le_rfl, fun entry hentry => ?_, inv.total,
    inv.known⟩
  · rcases List.mem_append.mp hlog with hold | hnew
    · exact (inv.logged log hold).kept hemits
    · exact (hemits.logged log hnew).1
  · by_cases hold : id < p.ethereum.contract.ledger.nextDepositId
    · obtain ⟨log, hlog, hlogId⟩ := inv.complete id hold
      exact ⟨log, List.mem_append_left _ hlog, hlogId⟩
    · obtain ⟨log, hlog, hlogId⟩ := hemits.complete id (by omega) hid
      exact ⟨log, List.mem_append_right _ hlog, hlogId⟩
  · obtain ⟨log, hlog, hrest⟩ := inv.claims entry hentry
    exact ⟨log, List.mem_append_left _ hlog, hrest⟩

theorem step_relay {turn : Turn}
    (h : step b keccak256 ecrecover chainId bridge p (.relay turn) = some p') :
    ∃ relay, relayStep p.logs p.relay turn = some relay ∧ turn ≠ .accept ∧
      (∀ request, turn ≠ .otherClaim request) ∧ p' = { p with relay } := by
  unfold step at h
  split at h
  next heq => cases heq
  next heq => cases heq
  next => cases h
  next => cases h
  next turn' haccept hclaim heq =>
    cases heq
    obtain ⟨relay, hrelay, rfl⟩ := Option.map_eq_some_iff.mp h
    exact ⟨relay, hrelay, haccept, hclaim, rfl⟩
  next heq => cases heq
  next heq => cases heq

/-- What one step of one party keeps. -/
theorem step_invariant (inv : PipelineInvariant b config bridge p)
    {action : PipelineAction bridge} (hallowed : allowed p action = true)
    (h : step b keccak256 ecrecover chainId bridge p action = some p') :
    PipelineInvariant b config bridge p' := by
  cases action with
  | mine =>
    cases h
    exact ⟨inv.counted, inv.ledger, inv.solvency, inv.logged, inv.complete,
      inv.within.mono (List.Subset.refl _) (Int.ofNat_le.mpr (Nat.le_succ _)), inv.claims,
      inv.total, inv.known⟩
  | ethereum action blockHash =>
    simp only [step] at h
    split at h
    next => cases h
    next ethereum haudit =>
      cases h
      exact ethereum_invariant inv blockHash haudit
  | relay turn =>
    obtain ⟨relay, hrelay, haccept, hclaim, rfl⟩ := step_relay h
    exact withRelay_invariant inv
      (relayStep_within inv.within (Int.natCast_nonneg _) hallowed hrelay)
      (relayStep_accepted haccept hclaim hrelay)
  | execute context => exact (execute_simulates inv h).1
  | submit tx =>
    exact (settleTx_invariant inv (List.all_eq_true.mp hallowed) h).1

theorem launch_invariant {owner : Bytes20} {signers : List Bytes20} {threshold : Nat}
    {usdc : Erc20} {deployed : BridgeV2}
    (hdeployed : BridgeV2.construct owner signers threshold (Ledger.initial usdc) = .ok deployed)
    {head nonce : Nat} {disk : Disk} (hdisk : ∀ s, disk = .saved s → Within [] head s) :
    PipelineInvariant b config bridge (launch b config deployed head disk nonce) := by
  have hledger : deployed.ledger = Ledger.initial usdc := BridgeV2.construct_ledger hdeployed
  refine ⟨⟨genesis_tree_faithful b, Nat.zero_le _⟩, ledger_genesis b config, ?_,
    fun log hlog => ?_, fun id hid => ?_, ⟨hdisk, trivial⟩, fun entry hentry => ?_, rfl,
    fun id => ?_⟩
  · show SolvencyInvariant bridge deployed.ledger ⟨[], []⟩
    rw [hledger]
    exact initial_invariant bridge usdc
  · cases hlog
  · rw [launch, hledger] at hid
    exact absurd hid (Nat.not_lt_zero _)
  · cases hentry
  · simp [launch, isAccepted, claimedDeposits]

end Pipeline

end ObscuraNetwork
