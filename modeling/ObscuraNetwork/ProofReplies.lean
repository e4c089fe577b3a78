import ObscuraNetwork.DepositParsing
import ObscuraNetwork.DepositScan
import ObscuraNetwork.GenuineDeposit
import ObscuraNetwork.HexWords
import ObscuraNetwork.NodeJson

namespace ObscuraNetwork

open BridgeRelayer

/-- `value[0]`: null in what is no array and past its end. -/
def JsonValue.at (v : JsonValue) (i : Nat) : JsonValue :=
  (v.asArray.bind fun vs => vs[i]?).getD .null

/-- The word that the proof is about, as the node writes it. -/
def JsonValue.slotValueText (proof : JsonValue) : Option String :=
  (((proof.index "storageProof").at 0).index "value").asStr

/-- A reply in the shape of EIP-1186, or about a word over 64 bits. -/
inductive JsonValue.UnusableReply (proof : JsonValue) : Prop
  | noStateRoot (h : (proof.index "stateRoot").asStr = none)
  | wideWord (n : Nat) (h : proof.slotValueText = some (quantityText n)) (hn : 2 ^ 64 ≤ n)

/-- What `eth_call` returns for a method and its parameters. -/
abbrev EthNode := String → JsonValue → Outcome JsonValue

structure StorageProofResult where
  blockHeaderRlp : Bytes
  stateRoot : Bytes32
  storageRoot : Bytes32
  accountProof : List Bytes
  storageProof : List Bytes
  slotValue : UInt64
  deriving DecidableEq

namespace EthClient

def logsParams (bridgeContract : String) (fromBlock toBlock : UInt64) : JsonValue :=
  .array [.object
    [("fromBlock", .string (quantityText fromBlock.toNat)),
      ("toBlock", .string (quantityText toBlock.toNat)), ("address", .string bridgeContract),
      ("topics", .array [.string (BeaconApi.hexText topic0.bytes)])]]

def proofParams (keccak256 : Bytes → Bytes32) (bridgeContract : String)
    (blockNumber depositId : UInt64) : JsonValue :=
  .array [.string bridgeContract,
    .array [.string (BeaconApi.hexText (computeDepositSlot keccak256 depositId).bytes)],
    .string (quantityText blockNumber.toNat)]

def blockParams (blockNumber : UInt64) : JsonValue :=
  .array [.string (quantityText blockNumber.toNat), .bool false]

/-- The first element that does not decode ends the collection. -/
def decodeNodes (b : Build) : List JsonValue → Outcome (List Bytes)
  | [] => pure []
  | v :: rest => do
    let bytes ← hexDecode b (v.asStr.getD "0x")
    let nodes ← decodeNodes b rest
    pure (bytes :: nodes)

/-- `encode_block_header_rlp`, which decodes the block's hash. -/
def encodeBlockHeaderRlp (b : Build) (block : JsonValue) : Outcome Bytes :=
  hexDecode b ((block.index "hash").asStr.getD "0x00")

def proofNodes (b : Build) (missing : String) (v : JsonValue) : Outcome (List Bytes) :=
  match v.asArray with
  | none => .error (.bail missing)
  | some nodes => decodeNodes b nodes

def getStorageProof (b : Build) (keccak256 : Bytes → Bytes32) (node : EthNode)
    (bridgeContract : String) (blockNumber depositId : UInt64) : Outcome StorageProofResult := do
  let proof ← node "eth_getProof" (proofParams keccak256 bridgeContract blockNumber depositId)
  let stateRoot ← hexToBytes32 b ((proof.index "stateRoot").asStr.getD "")
  let storageRoot ← hexToBytes32 b ((proof.index "storageHash").asStr.getD "")
  let accountProof ← proofNodes b "missing accountProof" (proof.index "accountProof")
  let storageProof ← proofNodes b "missing storageProof[0].proof"
    (((proof.index "storageProof").at 0).index "proof")
  let slotValue ← hexToU64 ((((proof.index "storageProof").at 0).index "value").asStr.getD "0x0")
  let block ← node "eth_getBlockByNumber" (blockParams blockNumber)
  let blockHeaderRlp ← encodeBlockHeaderRlp b block
  pure { blockHeaderRlp, stateRoot, storageRoot, accountProof, storageProof, slotValue }

/-- `get_beacon_root`. A block without the field is known by its own hash. -/
def getBeaconRoot (b : Build) (node : EthNode) (blockNumber : UInt64) : Outcome Bytes32 := do
  let block ← node "eth_getBlockByNumber" (blockParams blockNumber)
  let rootHex := (block.index "parentBeaconBlockRoot").asStr.getD ""
  if rootHex.utf8ByteSize < 3 then hexToBytes32 b ((block.index "hash").asStr.getD "0x00")
  else hexToBytes32 b rootHex

end EthClient

/-- A poll of a relayer with a node for every turn it takes: its scan and, for each log, the two
turns that ask for the storage proof and the beacon root. -/
structure NodePoll where
  scan : EthNode
  proof : EthLog → EthNode
  beacon : EthLog → EthNode
  helios : HeliosReplies
  submitHelios : UpdateHeliosHead → Outcome Unit
  submitClaim : ClaimDeposit → Outcome Unit

/-- What the loop sees of the nodes. The storage proof is read by `generate_sp1_proof` only, which
is not written. -/
def NodePoll.seen (b : Build) (keccak256 : Bytes → Bytes32) (config : RelayerConfig)
    (poll : NodePoll) : Poll where
  latestBlock := (poll.scan "eth_blockNumber" (.array [])).map JsonValue.asStr
  depositLogs := pure ()
  helios := poll.helios
  submitHelios := poll.submitHelios
  storageProof log := do
    let _ ← EthClient.getStorageProof b keccak256 (poll.proof log) config.bridgeContract
      log.blockNumber log.depositId
    pure ()
  beaconRoot log := EthClient.getBeaconRoot b (poll.beacon log) log.blockNumber
  submitClaim := poll.submitClaim

/-- No reply to `eth_getProof` is of use. -/
def NodePoll.Unprovable (keccak256 : Bytes → Bytes32) (config : RelayerConfig) (poll : NodePoll) :
    Prop :=
  ∀ log proof, poll.proof log "eth_getProof" (EthClient.proofParams keccak256
    config.bridgeContract log.blockNumber log.depositId) = .ok proof → proof.UnusableReply

namespace BridgeRelayer

section Nodes

variable (b : Build) (keccak256 : Bytes → Bytes32) (config : RelayerConfig)

/-- `scan_and_relay` on whatever logs the node sends. -/
def scanNode (poll : NodePoll) (s : RelayerState) : Outcome (UInt64 × RelayerState) := do
  let seen := poll.seen b keccak256 config
  let latest ← EthClient.getLatestBlock seen.latestBlock
  if latest < s.fromBlock then pure (latest, s)
  else do
    let logs ← EthClient.depositEvents b
      (poll.scan "eth_getLogs" (EthClient.logsParams config.bridgeContract s.fromBlock latest))
    let lastHeliosEpoch ← heliosEpoch b config seen latest logs s.lastHeliosEpoch
    let processed ← relayLogs b config seen logs s.processed
    pure (latest, { s with processed := processed, lastHeliosEpoch := lastHeliosEpoch })

def nodeIteration (poll : NodePoll) (s : RelayerState) : Outcome RelayerState := do
  match ← swallow (scanNode b keccak256 config poll s) with
  | some (lastBlock, s) => pure { s with fromBlock := saturatingAdd lastBlock 1 }
  | none => pure s

def nodeRun : List NodePoll → RelayerState → Outcome RelayerState
  | [], s => pure s
  | poll :: polls, s => do
    let s ← nodeIteration b keccak256 config poll s
    nodeRun polls s

end Nodes

section Unprovable

variable {b : Build} {keccak256 : Bytes → Bytes32} {config : RelayerConfig}

/-- The loop sees of a poll only how it relays. -/
theorem relayLogs_congr {poll poll' : Poll}
    (h : ∀ log, relayDeposit b config poll log = relayDeposit b config poll' log)
    (logs : List EthLog) (processed : List UInt64) :
    relayLogs b config poll logs processed = relayLogs b config poll' logs processed := by
  induction logs generalizing processed with
  | nil => rfl
  | cons log rest ih => simp only [relayLogs, h log, ih]

/-- A node that writes the logs of a chain makes the scan the one of the chain. -/
theorem scanNode_chain {chain : List ChainLog} {answers : Outcome Unit} {poll : NodePoll}
    {s : RelayerState}
    (h : ∀ latest, poll.scan "eth_getLogs"
        (EthClient.logsParams config.bridgeContract s.fromBlock latest) =
      answers.map fun _ => .array ((getLogs chain s.fromBlock latest EthClient.topic0).map
        fun log => log.json.toValue)) :
    scanNode b keccak256 config poll s = scanAndRelay b config chain
      { poll.seen b keccak256 config with depositLogs := answers } s := by
  unfold scanNode scanAndRelay
  refine congrArg _ (funext fun latest => ?_)
  have hrelay := @relayLogs_congr b config (poll.seen b keccak256 config)
    { poll.seen b keccak256 config with depositLogs := answers } fun _ => rfl
  simp only [h latest, ← EthClient.getDepositEvents_eq, hrelay]
  rfl

theorem getStorageProof_ok {node : EthNode} {bridgeContract : String}
    {blockNumber depositId : UInt64} {result : StorageProofResult}
    (h : EthClient.getStorageProof b keccak256 node bridgeContract blockNumber depositId =
      .ok result) :
    ∃ proof, node "eth_getProof"
        (EthClient.proofParams keccak256 bridgeContract blockNumber depositId) = .ok proof ∧
      EthClient.hexToBytes32 b ((proof.index "stateRoot").asStr.getD "") = .ok result.stateRoot ∧
      EthClient.hexToU64 (proof.slotValueText.getD "0x0") = .ok result.slotValue := by
  simp only [EthClient.getStorageProof, bind_ok, pure_ok] at h
  obtain ⟨proof, hproof, stateRoot, hroot, _, _, _, _, _, _, value, hvalue, _, _, _, _, rfl⟩ := h
  exact ⟨proof, hproof, hroot, hvalue⟩

/-- The first word of a deposit is its sender, too wide but for an address below `2^64`. -/
theorem senderWord_unusable {proof : JsonValue} {data : DepositData} {word : Bytes}
    (hword : (depositWords data).head? = some word)
    (hvalue : proof.slotValueText = some (quantityText (beValue word)))
    (hsender : 2 ^ 64 ≤ beValue data.sender.bytes) : proof.UnusableReply := by
  obtain rfl := Option.some.inj hword
  refine .wideWord _ hvalue ?_
  rw [beValue_append, beValue_replicate_zero]
  omega

/-- A proof is had only of a reply with a state root and a word that fits 64 bits. -/
theorem getStorageProof_usable {node : EthNode} {bridgeContract : String}
    {blockNumber depositId : UInt64} {proof : JsonValue} {result : StorageProofResult}
    (hproof : node "eth_getProof"
      (EthClient.proofParams keccak256 bridgeContract blockNumber depositId) = .ok proof)
    (h : EthClient.getStorageProof b keccak256 node bridgeContract blockNumber depositId =
      .ok result) : ¬proof.UnusableReply := by
  obtain ⟨replied, hreplied, hroot, hvalue⟩ := getStorageProof_ok h
  cases Except.ok.inj (hproof.symm.trans hreplied)
  intro hbad
  cases hbad with
  | noStateRoot hnone =>
    rw [hnone] at hroot
    cases hroot
  | wideWord n hn hwide =>
    rw [hn] at hvalue
    have := EthClient.hexToU64_quantity.mp hvalue
    have := result.slotValue.toNat_lt
    omega

theorem relayDeposit_proof {poll : NodePoll} {log : EthLog}
    (h : relayDeposit b config (poll.seen b keccak256 config) log = .ok ()) :
    ∃ result, EthClient.getStorageProof b keccak256 (poll.proof log) config.bridgeContract
      log.blockNumber log.depositId = .ok result := by
  rw [relayDeposit, bind_ok] at h
  obtain ⟨_, hproof, _⟩ := h
  obtain ⟨result, hresult, _⟩ := bind_ok.mp hproof
  exact ⟨result, hresult⟩

theorem unprovable_not_relayed {poll : NodePoll} (h : poll.Unprovable keccak256 config)
    (log : EthLog) : relayDeposit b config (poll.seen b keccak256 config) log ≠ .ok () := by
  intro hrelayed
  obtain ⟨result, hresult⟩ := relayDeposit_proof hrelayed
  obtain ⟨proof, hproof, _⟩ := getStorageProof_ok hresult
  exact getStorageProof_usable hproof hresult (h log proof hproof)

/-- An id is recorded only after its log was relayed. -/
theorem relayLogs_unrelayed {poll : Poll}
    (h : ∀ log, relayDeposit b config poll log ≠ .ok ()) {logs : List EthLog}
    {processed processed' : List UInt64}
    (hrelay : relayLogs b config poll logs processed = .ok processed') :
    processed' = processed := by
  induction logs with
  | nil => exact (pure_ok.mp hrelay).symm
  | cons log rest ih =>
    rw [relayLogs] at hrelay
    split at hrelay
    next => exact ih hrelay
    next =>
      obtain ⟨r, hr, hrest⟩ := bind_ok.mp hrelay
      rcases swallow_ok hr with ⟨_, hok, _⟩ | ⟨_, rfl⟩
      · exact absurd hok (h log)
      · exact ih hrest

/-- A deposit whose proof fails is passed over before the rollup is asked. -/
theorem relayDeposit_unsubmitted {poll : NodePoll} (h : poll.Unprovable keccak256 config)
    (submit : ClaimDeposit → Outcome Unit) (log : EthLog) :
    relayDeposit b config (poll.seen b keccak256 config) log =
      relayDeposit b config ({ poll with submitClaim := submit }.seen b keccak256 config) log := by
  cases hproof : (poll.seen b keccak256 config).storageProof log with
  | error e =>
    have hother : ({ poll with submitClaim := submit }.seen b keccak256 config).storageProof log =
        .error e := hproof
    rw [relayDeposit, relayDeposit, hproof, hother, error_bind, error_bind]
  | ok _ =>
    obtain ⟨result, hresult, _⟩ := bind_ok.mp hproof
    obtain ⟨proof, hreply, _⟩ := getStorageProof_ok hresult
    exact absurd (h log proof hreply) (getStorageProof_usable hreply hresult)

theorem nodeIteration_unsubmitted {poll : NodePoll} (h : poll.Unprovable keccak256 config)
    (submit : ClaimDeposit → Outcome Unit) (s : RelayerState) :
    nodeIteration b keccak256 config poll s =
      nodeIteration b keccak256 config { poll with submitClaim := submit } s := by
  have hrelay := relayLogs_congr (relayDeposit_unsubmitted (b := b) h submit)
  unfold nodeIteration scanNode
  simp only [hrelay]
  rfl

theorem nodeIteration_unrelayed {poll : NodePoll} (h : poll.Unprovable keccak256 config)
    {s s' : RelayerState} (hstep : nodeIteration b keccak256 config poll s = .ok s') :
    s'.processed = s.processed := by
  rw [nodeIteration, bind_ok] at hstep
  obtain ⟨r, hscan, hstep⟩ := hstep
  rcases swallow_ok hscan with ⟨⟨lastBlock, kept⟩, hok, rfl⟩ | ⟨_, rfl⟩
  · rw [← pure_ok.mp hstep]
    obtain ⟨latest, _, hok⟩ := bind_ok.mp hok
    split at hok
    next =>
      cases pure_ok.mp hok
      rfl
    next =>
      obtain ⟨logs, _, hok⟩ := bind_ok.mp hok
      obtain ⟨epoch, _, hok⟩ := bind_ok.mp hok
      obtain ⟨processed, hprocessed, hok⟩ := bind_ok.mp hok
      cases pure_ok.mp hok
      exact relayLogs_unrelayed (unprovable_not_relayed h) hprocessed
  · rw [← pure_ok.mp hstep]

theorem nodeRun_unprovable {polls : List NodePoll} {first s : RelayerState}
    (h : ∀ poll ∈ polls, poll.Unprovable keccak256 config)
    (hrun : nodeRun b keccak256 config polls first = .ok s) :
    s.processed = first.processed ∧ ∀ submit : NodePoll → ClaimDeposit → Outcome Unit,
      nodeRun b keccak256 config (polls.map fun poll => { poll with submitClaim := submit poll })
        first = .ok s := by
  induction polls generalizing first with
  | nil => exact ⟨congrArg RelayerState.processed (pure_ok.mp hrun).symm, fun _ => hrun⟩
  | cons poll rest ih =>
    obtain ⟨next, hnext, hrest⟩ := bind_ok.mp hrun
    have hpoll := h poll List.mem_cons_self
    obtain ⟨hkept, hsame⟩ := ih (fun p hp => h p (List.mem_cons_of_mem _ hp)) hrest
    refine ⟨hkept.trans (nodeIteration_unrelayed hpoll hnext), fun submit => ?_⟩
    rw [List.map_cons, nodeRun, ← nodeIteration_unsubmitted hpoll (submit poll), hnext, ok_bind]
    exact hsame submit

end Unprovable

end BridgeRelayer

open BridgeRelayer

/-- A node that answers `eth_getProof` with what EIP-1186 lists, which has no state root, or with a
word over 64 bits, such as the address that a deposit begins with, stops every deposit: whatever
logs are scanned, none is recorded as relayed, and the rollup is never asked. -/
theorem unprovable_relays_nothing {b : Build} {keccak256 : Bytes → Bytes32}
    {config : RelayerConfig} {polls : List NodePoll} {s : RelayerState}
    (h : ∀ poll ∈ polls, poll.Unprovable keccak256 config)
    (hrun : nodeRun b keccak256 config polls (start config) = .ok s) :
    s.processed = [] ∧ ∀ submit : NodePoll → ClaimDeposit → Outcome Unit,
      nodeRun b keccak256 config (polls.map fun poll => { poll with submitClaim := submit poll })
        (start config) = .ok s :=
  nodeRun_unprovable h hrun

/-- The members that EIP-1186 lists, with one slot. -/
def eip1186Reply (address storageHash key : String) (balance nonce value : Nat)
    (codeHash : String) (accountProof storageProof : List String) : JsonValue :=
  .object [("address", .string address), ("balance", .string (quantityText balance)),
    ("codeHash", .string codeHash), ("nonce", .string (quantityText nonce)),
    ("storageHash", .string storageHash), ("accountProof", .array (accountProof.map .string)),
    ("storageProof", .array [.object [("key", .string key), ("value", .string (quantityText value)),
      ("proof", .array (storageProof.map .string))]])]

/-- A node with one deposit, which would accept any claim. -/
def replyPoll : NodePoll where
  scan _ params := .ok (match params with
    | .array [] => .string "0x64"
    | _ => .array [(sampleLocked 7).json.toValue])
  proof _ _ _ := .ok (eip1186Reply testnetConfig.bridgeContract "0x" "0x0" 0 1 1 "0x" [] [])
  beacon _ _ _ := .ok .null
  helios := cleanPoll.helios
  submitHelios _ := .ok ()
  submitClaim _ := .ok ()

theorem depositEvents_single {b : Build} {log : LogJson} {parsed : EthLog}
    (h : EthClient.parseDepositLog b log = .ok parsed) :
    EthClient.depositEvents b (.ok (.array [log.toValue])) = .ok [parsed] := by
  show EthClient.parseDepositLogs b [LogJson.ofValue log.toValue] = _
  rw [LogJson.ofValue_toValue, EthClient.parseDepositLogs, h]
  rfl

theorem unprovable_relays_nothing_reply :
    nodeRun .default keccak256 testnetConfig [replyPoll] (start testnetConfig) = .ok ⟨101, [], 0⟩ ∧
      ∀ submit : NodePoll → ClaimDeposit → Outcome Unit,
        nodeRun .default keccak256 testnetConfig
          [{ replyPoll with submitClaim := submit replyPoll }] (start testnetConfig) =
            .ok ⟨101, [], 0⟩ := by
  have hlatest : EthClient.getLatestBlock (.ok (some "0x64")) = .ok 100 := by decide +kernel
  have hlogs := depositEvents_single
    (@parse_depositLocked .default (sampleLocked 7) 1 7 _ _ _ rfl)
  have hscan : scanNode .default keccak256 testnetConfig replyPoll (start testnetConfig) =
      .ok (100, start testnetConfig) := by
    show EthClient.getLatestBlock (.ok (some "0x64")) >>= _ = _
    rw [hlatest, ok_bind]
    show (EthClient.depositEvents .default (.ok (.array [(sampleLocked 7).json.toValue])) >>= _) = _
    rw [hlogs]
    rfl
  have hrun : nodeRun .default keccak256 testnetConfig [replyPoll] (start testnetConfig) =
      .ok ⟨101, [], 0⟩ := by
    rw [nodeRun, nodeIteration, hscan]
    rfl
  have hreply : ∀ poll ∈ [replyPoll], poll.Unprovable keccak256 testnetConfig := by
    intro poll hpoll log proof hproof
    obtain rfl := List.mem_singleton.mp hpoll
    cases Except.ok.inj hproof
    exact .noStateRoot rfl
  exact ⟨hrun, (unprovable_relays_nothing hreply hrun).2⟩

end ObscuraNetwork
