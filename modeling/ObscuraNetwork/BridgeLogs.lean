import ObscuraNetwork.BeaconText
import ObscuraNetwork.BridgeContract
import ObscuraNetwork.BridgeTypes
import ObscuraNetwork.Keccak

namespace ObscuraNetwork

/-- The first topic of an event: the hash of its signature. -/
def eventTopic (signature : String) : Bytes32 :=
  keccak256 (signature.toList.flatMap String.utf8EncodeChar)

example : hexEncode (eventTopic "Transfer(address,address,uint256)").bytes =
    "ddf252ad1be2c89b69c2b068fc378daa952ba7f163c4a11628f55a4df523b3ef" := by
  decide +kernel

namespace BridgeEvent

def signature : BridgeEvent → String
  | .depositLocked .. => "DepositLocked(uint256,address,bytes32,uint256,uint64)"
  | .depositReleased .. => "DepositReleased(uint256,address,uint256)"
  | .depositReleasedMultisig .. => "DepositReleased(uint256,address,uint256,address[2])"
  | .relayerUpdated .. => "RelayerUpdated(address,address)"
  | .signerAdded .. => "SignerAdded(address)"
  | .signerRemoved .. => "SignerRemoved(address)"
  | .thresholdChanged .. => "ThresholdChanged(uint256,uint256)"

def addressWord (address : Bytes20) : Bytes := List.replicate 12 0 ++ address.bytes

def indexed : BridgeEvent → List Bytes
  | .depositLocked depositId sender obscuraRecipient _ _ =>
    [toBeBytes 32 depositId, addressWord sender, obscuraRecipient.bytes]
  | .depositReleased depositId recipient _ => [toBeBytes 32 depositId, addressWord recipient]
  | .depositReleasedMultisig depositId recipient _ _ =>
    [toBeBytes 32 depositId, addressWord recipient]
  | _ => []

def data : BridgeEvent → Bytes
  | .depositLocked _ _ _ amount timestamp => toBeBytes 32 amount ++ toBeBytes 32 timestamp.toNat
  | .depositReleased _ _ amount => toBeBytes 32 amount
  | .depositReleasedMultisig _ _ amount signers =>
    toBeBytes 32 amount ++ addressWord signers.1 ++ addressWord signers.2
  | .relayerUpdated oldRelayer newRelayer => addressWord oldRelayer ++ addressWord newRelayer
  | .signerAdded signer => addressWord signer
  | .signerRemoved signer => addressWord signer
  | .thresholdChanged oldThreshold newThreshold =>
    toBeBytes 32 oldThreshold ++ toBeBytes 32 newThreshold

def topic (event : BridgeEvent) : Bytes32 := eventTopic event.signature

/-- The id of a `DepositLocked` event. -/
def lockedId : BridgeEvent → Option Nat
  | .depositLocked depositId .. => some depositId
  | _ => none

end BridgeEvent

/-- An event of the bridge contract in its block. -/
structure ChainLog where
  event : BridgeEvent
  blockNumber : UInt64
  blockHash : Bytes32
  transactionHash : Bytes32
  logIndex : UInt64

/-- A log as a node writes it. -/
structure LogJson where
  topics : Option (List (Option String))
  data : Option String
  blockNumber : Option String
  blockHash : Option String
  transactionHash : Option String
  logIndex : Option String

def quantityText (n : Nat) : String := "0x" ++ String.ofList (Nat.toDigits 16 n)

def ChainLog.json (log : ChainLog) : LogJson where
  topics := some ((log.event.topic.bytes :: log.event.indexed).map fun word =>
    some (BeaconApi.hexText word))
  data := some (BeaconApi.hexText log.event.data)
  blockNumber := some (quantityText log.blockNumber.toNat)
  blockHash := some (BeaconApi.hexText log.blockHash.bytes)
  transactionHash := some (BeaconApi.hexText log.transactionHash.bytes)
  logIndex := some (quantityText log.logIndex.toNat)

/-- What `eth_getLogs` returns for the contract, a block range and a first topic. -/
def getLogs (chain : List ChainLog) (fromBlock toBlock : UInt64) (topic : Bytes32) :
    List ChainLog :=
  chain.filter fun log =>
    decide (fromBlock ≤ log.blockNumber ∧ log.blockNumber ≤ toBlock ∧ log.event.topic = topic)

/-- `EthLog` of the relayer. -/
structure EthLog where
  blockNumber : UInt64
  blockHash : Bytes32
  txHash : Bytes32
  logIndex : UInt64
  depositId : UInt64
  sender : Bytes20
  obscuraRecipient : Bytes32
  amount : UInt64
  deriving DecidableEq

namespace EthClient

/-- The constant of `get_deposit_events`, written as the topic of `DepositLocked`. -/
def topic0 : Bytes32 :=
  ⟨[0x8a, 0x22, 0xe8, 0xed, 0x8e, 0xe6, 0x8e, 0x22, 0xfc, 0x67, 0xc9, 0x4e, 0x4a, 0x26, 0x89, 0x3b,
    0x6d, 0x88, 0xef, 0x0e, 0xe8, 0x4b, 0xee, 0x8c, 0xa2, 0x2a, 0x5b, 0x0a, 0x4d, 0x8a, 0x0a,
    0x87], rfl⟩

/-- `trim_start_matches("0x")`. -/
def trimHex (s : String) : List Char := BeaconApi.trimStartPair '0' 'x' s.toList

def hexDigits (bound : Nat) : Nat → List Char → Outcome Nat
  | acc, [] => pure acc
  | acc, c :: rest =>
    match hexVal (UInt8.ofNat (min c.toNat 255)) with
    | none => .error (.bail "invalid digit found in string")
    | some digit => do
      let acc := 16 * acc + digit.toNat
      ensure (acc < bound) (.bail "number too large to fit in target type")
      hexDigits bound acc rest

/-- `u64::from_str_radix(_, 16)`: digits after an optional plus sign. -/
def fromStrRadix16 (s : List Char) : Outcome UInt64 := do
  let v ← match s with
    | [] => .error (.bail "cannot parse integer from empty string")
    | ['+'] => .error (.bail "invalid digit found in string")
    | '+' :: rest => hexDigits (2 ^ 64) 0 rest
    | cs => hexDigits (2 ^ 64) 0 cs
  pure (UInt64.ofNat v)

def hexToU64 (s : String) : Outcome UInt64 :=
  let s := trimHex s
  if s = [] then pure 0 else context "hex_to_u64 parse error" (fromStrRadix16 s)

def hexDecode (b : Build) (s : String) : Outcome Bytes :=
  let s := trimHex s
  if s = [] then pure []
  else context "hex decode error" (BeaconApi.decodeHexBytes b (s.flatMap String.utf8EncodeChar))

def hexToBytes32 (b : Build) (s : String) : Outcome Bytes32 := do
  let bytes ← hexDecode b s
  if h : bytes.length = 32 then pure ⟨bytes, h⟩
  else .error (.bail ("expected 32 bytes, got " ++ toString bytes.length))

/-- The last twenty bytes. -/
def hexToAddress (b : Build) (s : String) : Outcome Bytes20 := do
  let bytes ← hexDecode b s
  if h : 20 ≤ bytes.length then
    pure ⟨bytes.drop (bytes.length - 20), by rw [List.length_drop]; omega⟩
  else .error (.bail ("address too short: " ++ toString bytes.length ++ " bytes"))

/-- `topics[i]`, empty where it is no string. -/
def topicText (topics : List (Option String)) (i : Nat) : Outcome String :=
  match topics[i]? with
  | some text => pure (text.getD "")
  | none => .error (.panic ("index out of bounds: the len is " ++ toString topics.length ++
      " but the index is " ++ toString i))

def parseDepositLog (b : Build) (log : LogJson) : Outcome EthLog := do
  let topics ← match log.topics with
    | some topics => pure topics
    | none => .error (.bail "log: missing topics")
  let depositId ← hexToU64 (← topicText topics 1)
  let sender ← hexToAddress b (← topicText topics 2)
  let obscuraRecipient ← hexToBytes32 b (← topicText topics 3)
  let data ← hexDecode b (log.data.getD "0x")
  let amount ← slice data 24 32
  let blockNumber ← hexToU64 (log.blockNumber.getD "0x0")
  let blockHash ← hexToBytes32 b (log.blockHash.getD "")
  let txHash ← hexToBytes32 b (log.transactionHash.getD "")
  let logIndex ← hexToU64 (log.logIndex.getD "0x0")
  pure
    { blockNumber := blockNumber
      blockHash := blockHash
      txHash := txHash
      logIndex := logIndex
      depositId := depositId
      sender := sender
      obscuraRecipient := obscuraRecipient
      amount := UInt64.ofNat (beValue amount) }

/-- The logs that parse. One that does not is left out without a word. -/
def parseDepositLogs (b : Build) : List LogJson → Outcome (List EthLog)
  | [] => pure []
  | log :: rest =>
    match parseDepositLog b log with
    | .ok parsed => do
      let logs ← parseDepositLogs b rest
      pure (parsed :: logs)
    | .error (.bail _) => parseDepositLogs b rest
    | .error (.panic message) => .error (.panic message)

/-- `get_latest_block` on the node's answer, a string or not. -/
def getLatestBlock (answer : Outcome (Option String)) : Outcome UInt64 := do
  match ← answer with
  | none => .error (.bail "eth_blockNumber: expected string")
  | some text => context "eth_blockNumber: parse error" (fromStrRadix16 (trimHex text))

/-- `get_deposit_events` on a node that answers with the chain's logs, or does not answer. -/
def getDepositEvents (b : Build) (chain : List ChainLog) (answers : Outcome Unit)
    (fromBlock toBlock : UInt64) : Outcome (List EthLog) := do
  answers
  parseDepositLogs b ((getLogs chain fromBlock toBlock topic0).map ChainLog.json)

end EthClient

def eventSignatures : List String :=
  ["DepositLocked(uint256,address,bytes32,uint256,uint64)",
    "DepositReleased(uint256,address,uint256)",
    "DepositReleased(uint256,address,uint256,address[2])", "RelayerUpdated(address,address)",
    "SignerAdded(address)", "SignerRemoved(address)", "ThresholdChanged(uint256,uint256)"]

theorem signature_mem (event : BridgeEvent) : event.signature ∈ eventSignatures := by
  cases event <;> simp [BridgeEvent.signature, eventSignatures]

theorem eventSignatures_ne_topic0 :
    ∀ signature ∈ eventSignatures, eventTopic signature ≠ EthClient.topic0 := by
  decide +kernel

/-- No event of either version has the relayer's topic, `DepositLocked` included. -/
theorem topic_ne_topic0 (event : BridgeEvent) : event.topic ≠ EthClient.topic0 :=
  eventSignatures_ne_topic0 _ (signature_mem event)

theorem getLogs_topic0 (chain : List ChainLog) (fromBlock toBlock : UInt64) :
    getLogs chain fromBlock toBlock EthClient.topic0 = [] := by
  refine List.filter_eq_nil_iff.mpr fun log _ h => ?_
  exact topic_ne_topic0 log.event (of_decide_eq_true h).2.2

end ObscuraNetwork
