import ObscuraNetwork.FixedBytes
import ObscuraNetwork.GuardedMachine

namespace ObscuraNetwork

namespace AutoRelayer

/-- A `DepositLocked` event of the bridge contract. Ids count up from zero, so `Number` keeps them,
as it does amounts below `2^53`; the genesis block holds no transaction. -/
structure DepositLog where
  blockNumber : Int
  afterGenesis : 0 < blockNumber
  blockHash : Bytes32
  depositId : Nat
  sender : Bytes20
  obscuraRecipient : Bytes32
  amount : Nat
  deriving DecidableEq

/-- An entry of `pendingRetry`. -/
structure Pending where
  depositId : Nat
  blockHash : Bytes32
  obscuraRecipient : Bytes32
  amount : Nat
  sender : Bytes20
  deriving DecidableEq

def DepositLog.pending (log : DepositLog) : Pending where
  depositId := log.depositId
  blockHash := log.blockHash
  obscuraRecipient := log.obscuraRecipient
  amount := log.amount
  sender := log.sender

/-- The state of the loop; a file of an older version has no `pendingRetry`. -/
structure RelayState where
  lastBlock : Int
  claimed : List Nat
  pendingRetry : Option (List Pending)
  deriving DecidableEq

namespace RelayState

def pending (s : RelayState) : List Pending := s.pendingRetry.getD []

def claim (s : RelayState) (depositId : Nat) : RelayState :=
  { s with claimed := s.claimed ++ [depositId] }

def queue (s : RelayState) (p : Pending) : RelayState :=
  { s with pendingRetry := some (s.pending ++ [p]) }

end RelayState

/-- `relayer-state.json`: a write that is cut short leaves no JSON. -/
inductive Disk where
  | absent
  | unreadable
  | saved (s : RelayState)
  deriving DecidableEq

def loadState : Disk → RelayState
  | .saved s => s
  | _ => ⟨0, [], some []⟩

/-- What a `ClaimDeposit` asks for. -/
structure ClaimRequest where
  depositId : Nat
  blockHash : Bytes32
  obscuraRecipient : Bytes32
  amount : Nat
  deriving DecidableEq

def Pending.request (p : Pending) : ClaimRequest :=
  ⟨p.depositId, p.blockHash, p.obscuraRecipient, p.amount⟩

/-- A call of `claimDeposit`: the nonce it was signed with, whether the rollup has accepted it. -/
structure ClaimCall where
  request : ClaimRequest
  nonce : Option Nat
  included : Bool
  deriving DecidableEq

inductive ClaimReply where
  | ok
  | error (message : String)
  deriving DecidableEq

/-- What a claim is for: an entry of the retry queue with the entries before and after it, or a log
of a scan with those after it. -/
inductive Purpose where
  | retry (p : Pending) (todo stillPending : List Pending)
  | scan (log : DepositLog) (rest : List DepositLog) (toBlock : Int)
  deriving DecidableEq

/-- Where `main` stands. -/
inductive MainTask where
  | stopped
  | firstBlock (s : RelayState)
  | top (s : RelayState)
  | retrying (s : RelayState) (todo stillPending : List Pending)
  | latestBlock (s : RelayState)
  | logs (s : RelayState) (fromBlock toBlock : Int)
  | scanning (s : RelayState) (rest : List DepositLog) (toBlock : Int)
  | claiming (s : RelayState) (purpose : Purpose) (call : ClaimCall)
  | sleeping (s : RelayState)
  deriving DecidableEq

/-- The file, the loop, the claims the rollup has accepted and the signer's nonce there, and the
`lastBlock` that the first start has begun with. -/
structure RelayWorld where
  disk : Disk
  task : MainTask
  accepted : List ClaimRequest
  nonce : Nat
  initial : Option Int
  deriving DecidableEq

inductive Turn where
  /-- The process starts. -/
  | start
  /-- The process dies, between two steps or while it writes the file. -/
  | crash
  | crashWriting
  /-- `main` goes on to its next wait, an answer of the Ethereum node arrives. -/
  | proceed
  | block (number : Option Int)
  | logs (answers : Bool)
  /-- A claim reads the nonce, the rollup accepts it, its answer arrives. -/
  | sign
  | accept
  | answer (reply : ClaimReply)
  /-- A withdrawal of the HTTP server takes the signer's nonce; another sender's claim is accepted.
  -/
  | withdraw
  | otherClaim (request : ClaimRequest)

def includesChars (needle : List Char) : List Char → Bool
  | [] => needle.isEmpty
  | c :: rest => needle.isPrefixOf (c :: rest) || includesChars needle rest

def includes (message needle : String) : Bool := includesChars needle.toList message.toList

/-- The answers that count as processed: a claim that went through, and an error that says so. -/
def ClaimReply.processed : ClaimReply → Bool
  | .ok => true
  | .error message => includes message "already claimed" || includes message "nonce used"

def isAccepted (accepted : List ClaimRequest) (depositId : Nat) : Bool :=
  accepted.any fun request => decide (request.depositId = depositId)

/-- What the rollup and the way to it can answer: success only for an accepted claim, "already
claimed" only for a deposit that has one, "nonce used" only when the claim's nonce has been taken.
-/
def canAnswer (w : RelayWorld) (call : ClaimCall) : ClaimReply → Bool
  | .ok => call.included
  | .error message =>
    (!includes message "already claimed" || isAccepted w.accepted call.request.depositId) &&
    (!includes message "nonce used" || decide (call.nonce ≠ some w.nonce))

/-- `main` after the answer to a claim. Only the scan saves at once. -/
def answered (w : RelayWorld) (s : RelayState) (reply : ClaimReply) : Purpose → RelayWorld
  | .retry p todo stillPending =>
    if reply.processed then { w with task := .retrying (s.claim p.depositId) todo stillPending }
    else { w with task := .retrying s todo (stillPending ++ [p]) }
  | .scan log rest toBlock =>
    let s := if reply.processed then s.claim log.depositId else s.queue log.pending
    { w with task := .scanning s rest toBlock, disk := .saved s }

/-- The loop begins; the first time, its `lastBlock` is the initial one. -/
def RelayWorld.enter (w : RelayWorld) (s : RelayState) : RelayWorld :=
  { w with task := .top s, initial := some (w.initial.getD s.lastBlock) }

def newCall (request : ClaimRequest) : ClaimCall := ⟨request, none, false⟩

/-- The events of a block range; the node refuses a negative block. -/
def logsBetween (events : List DepositLog) (fromBlock toBlock : Int) : Option (List DepositLog) :=
  if fromBlock < 0 then none
  else some (events.filter fun log =>
    decide (fromBlock ≤ log.blockNumber ∧ log.blockNumber ≤ toBlock))

def mainStep (events : List DepositLog) (w : RelayWorld) : MainTask → Turn → Option RelayWorld
  | .stopped, .start =>
    let s := loadState w.disk
    if s.lastBlock = 0 then some { w with task := .firstBlock s } else some (w.enter s)
  | .firstBlock _, .block none => some { w with task := .stopped }
  | .firstBlock s, .block (some latest) => some (w.enter { s with lastBlock := latest - 50 })
  | .top s, .proceed =>
    if s.pending = [] then some { w with task := .latestBlock s }
    else some { w with task := .retrying s s.pending [] }
  | .retrying s (p :: todo) stillPending, .proceed =>
    some { w with task := .claiming s (.retry p todo stillPending) (newCall p.request) }
  | .retrying s [] stillPending, .proceed =>
    let s := { s with pendingRetry := some stillPending }
    some { w with task := .latestBlock s, disk := .saved s }
  | .latestBlock s, .block none => some { w with task := .sleeping s }
  | .latestBlock s, .block (some latest) =>
    if latest ≤ s.lastBlock then some { w with task := .sleeping s }
    else some { w with task := .logs s (s.lastBlock + 1) (min latest (s.lastBlock + 9)) }
  | .logs s fromBlock toBlock, .logs answers =>
    match logsBetween events fromBlock toBlock, answers with
    | some logs, true => some { w with task := .scanning s logs toBlock }
    | _, _ => some { w with task := .sleeping s }
  | .scanning s (log :: rest) toBlock, .proceed =>
    if s.claimed.contains log.depositId then some { w with task := .scanning s rest toBlock }
    else if s.pending.any fun p => decide (p.depositId = log.depositId) then
      some { w with task := .scanning s rest toBlock }
    else some { w with
      task := .claiming s (.scan log rest toBlock) (newCall log.pending.request) }
  | .scanning s [] toBlock, .proceed =>
    let s := { s with lastBlock := toBlock }
    some { w with task := .sleeping s, disk := .saved s }
  | .claiming s purpose call, .sign =>
    some { w with task := .claiming s purpose { call with nonce := some w.nonce } }
  | .claiming s purpose call, .accept =>
    if call.nonce = some w.nonce ∧ call.included = false ∧
        isAccepted w.accepted call.request.depositId = false then
      some { w with
        task := .claiming s purpose { call with included := true }
        accepted := call.request :: w.accepted
        nonce := w.nonce + 1 }
    else none
  | .claiming s purpose call, .answer reply =>
    if canAnswer w call reply then some (answered w s reply purpose) else none
  | .sleeping s, .proceed => some { w with task := .top s }
  | _, _ => none

/-- The next step of `main` writes the file. -/
def MainTask.writes : MainTask → Bool
  | .retrying _ [] _ => true
  | .scanning _ [] _ => true
  | .claiming _ (.scan ..) _ => true
  | _ => false

/-- One step of the process, of the withdrawal server or of the world around them. -/
def relayStep (events : List DepositLog) (w : RelayWorld) : Turn → Option RelayWorld
  | .crash => some { w with task := .stopped }
  | .crashWriting =>
    if w.task.writes then some { w with task := .stopped, disk := .unreadable } else none
  | .withdraw => some { w with nonce := w.nonce + 1 }
  | .otherClaim request =>
    if isAccepted w.accepted request.depositId then none
    else some { w with accepted := request :: w.accepted }
  | turn => mainStep events w w.task turn

/-- A world before the first start: what is claimed in the file has been accepted. -/
structure Fresh (w : RelayWorld) : Prop where
  stopped : w.task = .stopped
  initial : w.initial = none
  claimed : ∀ id ∈ (loadState w.disk).claimed, isAccepted w.accepted id = true

end AutoRelayer

end ObscuraNetwork
