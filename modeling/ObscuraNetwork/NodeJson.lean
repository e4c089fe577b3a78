import ObscuraNetwork.BridgeLogs
import ObscuraNetwork.OutcomeRules

namespace ObscuraNetwork

/-- `serde_json::Value`. -/
inductive JsonValue where
  | null
  | bool (b : Bool)
  | number (text : String)
  | string (s : String)
  | array (elements : List JsonValue)
  | object (fields : List (String × JsonValue))

namespace JsonValue

/-- `value[key]`: null in what is no object and where the key is missing. -/
def index (v : JsonValue) (key : String) : JsonValue :=
  match v with
  | .object fields => (fields.lookup key).getD .null
  | _ => .null

def asStr : JsonValue → Option String
  | .string s => some s
  | _ => none

def asArray : JsonValue → Option (List JsonValue)
  | .array elements => some elements
  | _ => none

def ofText (text : Option String) : JsonValue := (text.map JsonValue.string).getD .null

theorem asStr_ofText (text : Option String) : (ofText text).asStr = text := by
  cases text with
  | none => rfl
  | some s => rfl

end JsonValue

namespace LogJson

/-- What the relayer looks up in the JSON of a log. -/
def ofValue (log : JsonValue) : LogJson where
  topics := (log.index "topics").asArray.map fun topics => topics.map JsonValue.asStr
  data := (log.index "data").asStr
  blockNumber := (log.index "blockNumber").asStr
  blockHash := (log.index "blockHash").asStr
  transactionHash := (log.index "transactionHash").asStr
  logIndex := (log.index "logIndex").asStr

def toValue (log : LogJson) : JsonValue :=
  .object
    [("topics", (log.topics.map fun topics => .array (topics.map JsonValue.ofText)).getD .null),
      ("data", .ofText log.data), ("blockNumber", .ofText log.blockNumber),
      ("blockHash", .ofText log.blockHash), ("transactionHash", .ofText log.transactionHash),
      ("logIndex", .ofText log.logIndex)]

theorem ofValue_toValue (log : LogJson) : ofValue log.toValue = log := by
  obtain ⟨topics, data, blockNumber, blockHash, transactionHash, logIndex⟩ := log
  have htopics : (((topics.map fun topics => JsonValue.array (topics.map JsonValue.ofText)).getD
      .null).asArray.map fun topics => topics.map JsonValue.asStr) = topics := by
    cases topics with
    | none => rfl
    | some texts =>
      show some ((texts.map JsonValue.ofText).map JsonValue.asStr) = some texts
      rw [List.map_map]
      exact congrArg some (List.map_id'' JsonValue.asStr_ofText texts)
  show LogJson.mk _ _ _ _ _ _ = _
  simp only [LogJson.mk.injEq]
  exact ⟨htopics, JsonValue.asStr_ofText _, JsonValue.asStr_ofText _, JsonValue.asStr_ofText _,
    JsonValue.asStr_ofText _, JsonValue.asStr_ofText _⟩

end LogJson

namespace EthClient

/-- `parse_deposit_log` on whatever JSON the node sends. -/
def parseDepositValue (b : Build) (log : JsonValue) : Outcome EthLog :=
  parseDepositLog b (LogJson.ofValue log)

/-- `get_deposit_events` behind the node's answer to `eth_getLogs`. -/
def depositEvents (b : Build) (answer : Outcome JsonValue) : Outcome (List EthLog) := do
  let logsRaw ← answer
  match logsRaw.asArray with
  | none => .error (.bail "eth_getLogs: expected array")
  | some logs => parseDepositLogs b (logs.map LogJson.ofValue)

/-- The scan of a chain is the scan of the answer that the chain's node writes. -/
theorem getDepositEvents_eq (b : Build) (chain : List ChainLog) (answers : Outcome Unit)
    (fromBlock toBlock : UInt64) :
    getDepositEvents b chain answers fromBlock toBlock =
      depositEvents b (answers.map fun _ => .array ((getLogs chain fromBlock toBlock topic0).map
        fun log => log.json.toValue)) := by
  cases answers with
  | error e => rfl
  | ok answered =>
    show parseDepositLogs b _ = parseDepositLogs b _
    rw [List.map_map]
    refine congrArg (parseDepositLogs b) (List.map_congr_left fun log _ => ?_)
    exact (LogJson.ofValue_toValue log.json).symm

/-- As long as no log panics, the scan returns what the logs that parse are parsed to. -/
theorem parseDepositLogs_ok {b : Build} {logs : List LogJson}
    (h : ∀ log ∈ logs, NoPanic (parseDepositLog b log)) :
    parseDepositLogs b logs = .ok (logs.filterMap fun log => (parseDepositLog b log).toOption) := by
  induction logs with
  | nil => rfl
  | cons log rest ih =>
    have hrest := ih fun other hother => h other (List.mem_cons_of_mem _ hother)
    have hlog := h log List.mem_cons_self
    rw [parseDepositLogs, hrest, List.filterMap_cons]
    cases hparse : parseDepositLog b log with
    | ok parsed => rfl
    | error e =>
      cases e with
      | bail message => rfl
      | panic message => exact absurd hparse (hlog message)

end EthClient

end ObscuraNetwork
