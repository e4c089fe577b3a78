import ObscuraNetwork.BridgeLogs
import ObscuraNetwork.HeliosRelayer

namespace ObscuraNetwork

structure RelayerConfig where
  bridgeContract : String
  mockProofs : Bool
  startBlock : UInt64

/-- What the loop keeps: where the next scan starts, the ids relayed and the last epoch with a
Helios update. -/
structure RelayerState where
  fromBlock : UInt64
  processed : List UInt64
  lastHeliosEpoch : UInt64
  deriving DecidableEq

/-- What the node, the beacon API and the rollup answer in one poll, each call on its own. -/
structure Poll where
  latestBlock : Outcome (Option String)
  depositLogs : Outcome Unit
  helios : HeliosReplies
  submitHelios : UpdateHeliosHead → Outcome Unit
  storageProof : EthLog → Outcome Unit
  beaconRoot : EthLog → Outcome Bytes32
  submitClaim : ClaimDeposit → Outcome Unit

def saturatingAdd (a b : UInt64) : UInt64 :=
  if a.toNat + b.toNat < 2 ^ 64 then a + b else UInt64.ofNat (2 ^ 64 - 1)

/-- An error is logged and dropped; a panic is not caught. -/
def swallow {α : Type} : Outcome α → Outcome (Option α)
  | .ok a => pure (some a)
  | .error (.bail _) => pure none
  | .error (.panic message) => .error (.panic message)

namespace BridgeRelayer

def slotsPerEpoch : UInt64 := 32

def parseAddressStr (b : Build) (s : String) : Outcome Bytes20 := do
  let s := BeaconApi.trimStartPair '0' 'x' (trimChars s.toList)
  let digits := s.flatMap String.utf8EncodeChar
  ensure (digits.length = 40) (.bail "address must be 40 hex chars")
  let bytes ← BeaconApi.decodeHexBytes b digits
  if h : bytes.length = 20 then pure ⟨bytes, h⟩
  else .error (.bail "Invalid string length")

/-- `submit_helios_update` up to the rollup's answer. -/
def submitHelios (b : Build) (config : RelayerConfig) (poll : Poll) : Outcome Unit := do
  match ← submitHeliosUpdate b config.mockProofs poll.helios with
  | none => pure ()
  | some update => poll.submitHelios update

/-- `generate_sp1_proof`, which is not written yet. -/
def generateSp1Proof : Outcome Bytes :=
  .error (.bail ("Real SP1 proof generation not yet implemented. " ++
    "Use --mock-proofs for testnet."))

def relayDeposit (b : Build) (config : RelayerConfig) (poll : Poll) (log : EthLog) :
    Outcome Unit := do
  poll.storageProof log
  let beaconBlockRoot ← poll.beaconRoot log
  let bridgeContract ← parseAddressStr b config.bridgeContract
  let publicInputs : BridgePublicInputs :=
    { ethBlockHash := log.blockHash
      beaconBlockRoot := beaconBlockRoot
      depositId := log.depositId
      obscuraRecipient := log.obscuraRecipient
      amount := log.amount
      bridgeContract := bridgeContract }
  let proof ← if config.mockProofs then pure (mockProofPrefix ++ toLeBytes log.depositId)
    else generateSp1Proof
  poll.submitClaim { proof := proof, publicInputs := publicInputs }

/-- The loop over the logs. A failed deposit is passed over like a relayed one. -/
def relayLogs (b : Build) (config : RelayerConfig) (poll : Poll) :
    List EthLog → List UInt64 → Outcome (List UInt64)
  | [], processed => pure processed
  | log :: rest, processed =>
    if processed.contains log.depositId then relayLogs b config poll rest processed
    else do
      match ← swallow (relayDeposit b config poll log) with
      | some _ => relayLogs b config poll rest (log.depositId :: processed)
      | none => relayLogs b config poll rest processed

/-- The Helios update of an epoch's first scan that has logs. -/
def heliosEpoch (b : Build) (config : RelayerConfig) (poll : Poll) (latest : UInt64)
    (logs : List EthLog) (lastHeliosEpoch : UInt64) : Outcome UInt64 := do
  let currentEpoch := latest / slotsPerEpoch
  if logs ≠ [] ∧ lastHeliosEpoch < currentEpoch then do
    match ← swallow (submitHelios b config poll) with
    | some _ => pure currentEpoch
    | none => pure lastHeliosEpoch
  else pure lastHeliosEpoch

/-- `scan_and_relay`: the last block of the scan and what the relayer keeps. An error comes before
anything is kept. -/
def scanAndRelay (b : Build) (config : RelayerConfig) (chain : List ChainLog) (poll : Poll)
    (s : RelayerState) : Outcome (UInt64 × RelayerState) := do
  let latest ← EthClient.getLatestBlock poll.latestBlock
  if latest < s.fromBlock then pure (latest, s)
  else do
    let logs ← EthClient.getDepositEvents b chain poll.depositLogs s.fromBlock latest
    let lastHeliosEpoch ← heliosEpoch b config poll latest logs s.lastHeliosEpoch
    let processed ← relayLogs b config poll logs s.processed
    pure (latest, { s with processed := processed, lastHeliosEpoch := lastHeliosEpoch })

/-- One iteration of `run`, from a loop boundary to the next. A panic ends the loop. -/
def iteration (b : Build) (config : RelayerConfig) (chain : List ChainLog) (poll : Poll)
    (s : RelayerState) : Outcome RelayerState := do
  match ← swallow (scanAndRelay b config chain poll s) with
  | some (lastBlock, s) => pure { s with fromBlock := saturatingAdd lastBlock 1 }
  | none => pure s

def start (config : RelayerConfig) : RelayerState where
  fromBlock := config.startBlock
  processed := []
  lastHeliosEpoch := 0

/-- The loop boundary after a sequence of polls, if it is reached. -/
def run (b : Build) (config : RelayerConfig) (chain : List ChainLog) :
    List Poll → RelayerState → Outcome RelayerState
  | [], s => pure s
  | poll :: polls, s => do
    let s ← iteration b config chain poll s
    run b config chain polls s

/-- Every deposit in a block from the start up to the scan position is processed. -/
def NoneDropped (config : RelayerConfig) (chain : List ChainLog) (s : RelayerState) : Prop :=
  ∀ log ∈ chain, ∀ depositId, log.event.lockedId = some depositId →
    config.startBlock ≤ log.blockNumber → log.blockNumber < s.fromBlock →
    ∃ id ∈ s.processed, id.toNat = depositId

/-- A poll that scans no block with a deposit: the node does not answer, or its range has none. -/
def ScansNoDeposit (config : RelayerConfig) (chain : List ChainLog) (s : RelayerState)
    (poll : Poll) : Prop :=
  ∀ latest, EthClient.getLatestBlock poll.latestBlock = .ok latest → s.fromBlock ≤ latest →
    poll.depositLogs = .ok () →
    ∀ log ∈ chain, ∀ depositId, log.event.lockedId = some depositId →
      config.startBlock ≤ log.blockNumber → s.fromBlock ≤ log.blockNumber →
      ¬log.blockNumber < saturatingAdd latest 1

section Scan

variable {b : Build} {config : RelayerConfig} {chain : List ChainLog}

theorem swallow_ok {α : Type} {x : Outcome α} {r : Option α} (h : swallow x = .ok r) :
    (∃ a, x = .ok a ∧ r = some a) ∨ ((∃ text, x = .error (.bail text)) ∧ r = none) := by
  rcases x with (message | message) | a
  · exact Or.inr ⟨⟨message, rfl⟩, (pure_ok.mp h).symm⟩
  · cases h
  · exact Or.inl ⟨a, rfl, (pure_ok.mp h).symm⟩

/-- No log has the relayer's topic, so a scan relays nothing and keeps nothing. -/
theorem scanAndRelay_eq (poll : Poll) (s : RelayerState) :
    scanAndRelay b config chain poll s =
      (EthClient.getLatestBlock poll.latestBlock >>= fun latest =>
        if latest < s.fromBlock then pure (latest, s)
        else poll.depositLogs >>= fun _ => pure (latest, s)) := by
  unfold scanAndRelay
  refine congrArg _ (funext fun latest => ?_)
  split
  · rfl
  · rw [EthClient.getDepositEvents, getLogs_topic0]
    cases poll.depositLogs <;> rfl

theorem scanAndRelay_ok {poll : Poll} {s s' : RelayerState} {lastBlock : UInt64} :
    scanAndRelay b config chain poll s = .ok (lastBlock, s') ↔
      EthClient.getLatestBlock poll.latestBlock = .ok lastBlock ∧ s' = s ∧
        (lastBlock < s.fromBlock ∨ poll.depositLogs = .ok ()) := by
  rw [scanAndRelay_eq, bind_ok]
  constructor
  · intro h
    obtain ⟨latest, hlatest, h⟩ := h
    split at h
    next hbehind =>
      obtain ⟨rfl, rfl⟩ := Prod.mk.inj (pure_ok.mp h)
      exact ⟨hlatest, rfl, Or.inl hbehind⟩
    next =>
      obtain ⟨_, hlogs, h⟩ := bind_ok.mp h
      obtain ⟨rfl, rfl⟩ := Prod.mk.inj (pure_ok.mp h)
      exact ⟨hlatest, rfl, Or.inr hlogs⟩
  · intro h
    obtain ⟨hlatest, rfl, hanswer⟩ := h
    refine ⟨lastBlock, hlatest, ?_⟩
    split
    next => rfl
    next hahead =>
      rw [hanswer.resolve_left hahead]
      rfl

/-- An iteration moves the scan position to the block after the last one, or leaves all as it was.
-/
theorem iteration_ok {poll : Poll} {s s' : RelayerState}
    (h : iteration b config chain poll s = .ok s') :
    s' = s ∨ ∃ latest, EthClient.getLatestBlock poll.latestBlock = .ok latest ∧
      (latest < s.fromBlock ∨ poll.depositLogs = .ok ()) ∧
      s' = { s with fromBlock := saturatingAdd latest 1 } := by
  rw [iteration, bind_ok] at h
  obtain ⟨r, hscan, h⟩ := h
  rcases swallow_ok hscan with ⟨⟨lastBlock, kept⟩, hok, rfl⟩ | ⟨_, rfl⟩
  · obtain ⟨hlatest, rfl, hanswer⟩ := scanAndRelay_ok.mp hok
    exact Or.inr ⟨lastBlock, hlatest, hanswer, (pure_ok.mp h).symm⟩
  · exact Or.inl (pure_ok.mp h).symm

theorem iteration_scans {poll : Poll} {s : RelayerState} {latest : UInt64}
    (hlatest : EthClient.getLatestBlock poll.latestBlock = .ok latest)
    (hlogs : poll.depositLogs = .ok ()) :
    iteration b config chain poll s = .ok { s with fromBlock := saturatingAdd latest 1 } := by
  have hscan : scanAndRelay b config chain poll s = .ok (latest, s) :=
    scanAndRelay_ok.mpr ⟨hlatest, rfl, Or.inr hlogs⟩
  rw [iteration, hscan]
  rfl

theorem run_concat (polls : List Poll) (poll : Poll) (s : RelayerState) :
    run b config chain (polls ++ [poll]) s =
      run b config chain polls s >>= iteration b config chain poll := by
  induction polls generalizing s with
  | nil => simp [run]
  | cons first polls ih =>
    rw [List.cons_append, run, run]
    cases iteration b config chain first s with
    | error e => rfl
    | ok s' => exact ih s'

theorem toNat_saturatingAdd_one (x : UInt64) :
    (saturatingAdd x 1).toNat = min (x.toNat + 1) (2 ^ 64 - 1) := by
  have hx := x.toNat_lt
  have hone : (1 : UInt64).toNat = 1 := rfl
  unfold saturatingAdd
  split
  · rw [UInt64.toNat_add, hone]
    omega
  · rw [UInt64.toNat_ofNat']
    omega

theorem run_processed (polls : List Poll) {s : RelayerState}
    (h : run b config chain polls (start config) = .ok s) : s.processed = [] := by
  induction polls using List.reverseRecOn generalizing s with
  | nil => rw [← pure_ok.mp h]; rfl
  | append_singleton polls poll ih =>
    rw [run_concat, bind_ok] at h
    obtain ⟨before, hbefore, hstep⟩ := h
    have hnone := ih hbefore
    rcases iteration_ok hstep with rfl | ⟨_, _, _, rfl⟩
    · exact hnone
    · exact hnone

/-- No deposit lies in a block that has been passed. -/
def NonePassed (config : RelayerConfig) (chain : List ChainLog) (s : RelayerState) : Prop :=
  ∀ log ∈ chain, ∀ depositId, log.event.lockedId = some depositId →
    config.startBlock ≤ log.blockNumber → ¬log.blockNumber < s.fromBlock

theorem iteration_nonePassed {poll : Poll} {s s' : RelayerState}
    (hpassed : NonePassed config chain s) (hscan : ScansNoDeposit config chain s poll)
    (h : iteration b config chain poll s = .ok s') :
    NonePassed config chain s' := by
  rcases iteration_ok h with rfl | ⟨latest, hlatest, hanswer, rfl⟩
  · exact hpassed
  · intro log hlog depositId hid hstart hbelow
    have hkept := hpassed log hlog depositId hid hstart
    rw [UInt64.lt_iff_toNat_lt] at hkept
    by_cases hbehind : latest < s.fromBlock
    · rw [UInt64.lt_iff_toNat_lt] at hbehind hbelow
      rw [toNat_saturatingAdd_one] at hbelow
      omega
    · refine hscan latest hlatest ?_ (hanswer.resolve_left hbehind) log hlog depositId hid hstart ?_
        hbelow
      · exact UInt64.not_lt.mp hbehind
      · rw [UInt64.le_iff_toNat_le]
        omega

end Scan

end BridgeRelayer

open BridgeRelayer

/-- The relayer drops every deposit it scans: nothing is dropped exactly in the runs whose polls
scan none. -/
theorem none_dropped_iff (b : Build) (config : RelayerConfig) (chain : List ChainLog)
    (polls : List Poll) :
    (∀ done s, done <+: polls → run b config chain done (start config) = .ok s →
      NoneDropped config chain s) ↔
    ∀ done poll s, done ++ [poll] <+: polls → run b config chain done (start config) = .ok s →
      ScansNoDeposit config chain s poll := by
  constructor
  · intro h done poll s hdone hrun latest hlatest _ hlogs log hlog depositId hid hstart _ hbelow
    have hnext : run b config chain (done ++ [poll]) (start config) =
        .ok { s with fromBlock := saturatingAdd latest 1 } := by
      rw [run_concat, hrun, ok_bind]
      exact iteration_scans hlatest hlogs
    obtain ⟨id, hmem, _⟩ := h _ _ hdone hnext log hlog depositId hid hstart hbelow
    rw [run_processed _ hnext] at hmem
    cases hmem
  · intro h
    have hpassed : ∀ done s, done <+: polls → run b config chain done (start config) = .ok s →
        NonePassed config chain s := by
      intro done
      induction done using List.reverseRecOn with
      | nil =>
        intro s _ hrun
        rw [← pure_ok.mp hrun]
        intro log _ _ _ hstart hbelow
        exact UInt64.not_lt.mpr hstart hbelow
      | append_singleton done poll ih =>
        intro s hdone hrun
        rw [run_concat, bind_ok] at hrun
        obtain ⟨before, hbefore, hstep⟩ := hrun
        have hkept := ih before ((List.prefix_append done [poll]).trans hdone) hbefore
        exact iteration_nonePassed hkept (h done poll before hdone hbefore) hstep
    intro done s hdone hrun log hlog depositId hid hstart hbelow
    exact absurd hbelow (hpassed done s hdone hrun log hlog depositId hid hstart)

/-- A chain with one deposit, in block 100. -/
def oneDeposit : List ChainLog :=
  [⟨.depositLocked 0 (FixedBytes.replicate 20 1) (FixedBytes.replicate 32 2) 5000000 1700000000,
    100, FixedBytes.replicate 32 3, FixedBytes.replicate 32 4, 0⟩]

def testnetConfig : RelayerConfig := ⟨"0x0000000000000000000000000000000000000001", true, 100⟩

/-- A poll in which every call succeeds and the last block is 0x64. -/
def cleanPoll : Poll where
  latestBlock := .ok (some "0x64")
  depositLogs := .ok ()
  helios := ⟨none, .error (.bail ""), .error (.bail ""), fun _ => none, fun _ _ => .ok []⟩
  submitHelios _ := .ok ()
  storageProof _ := .ok ()
  beaconRoot _ := .ok (FixedBytes.replicate 32 5)
  submitClaim _ := .ok ()

/-- One clean poll passes the block of the deposit and relays nothing. -/
theorem clean_poll_drops :
    run Build.default testnetConfig oneDeposit [cleanPoll] (start testnetConfig) =
        .ok ⟨101, [], 0⟩ ∧
      ¬NoneDropped testnetConfig oneDeposit ⟨101, [], 0⟩ := by
  have hlatest : EthClient.getLatestBlock cleanPoll.latestBlock = .ok 100 := by decide +kernel
  constructor
  · have hstep := @iteration_scans Build.default testnetConfig oneDeposit cleanPoll
      (start testnetConfig) 100 hlatest rfl
    rw [run, hstep]
    rfl
  · intro h
    obtain ⟨id, hmem, _⟩ := h _ List.mem_cons_self 0 rfl (by decide) (by decide)
    cases hmem

end ObscuraNetwork
