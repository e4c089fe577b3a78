import ObscuraNetwork.AtMostOnce
import ObscuraNetwork.FixedBytes
import ObscuraNetwork.GuardedMachine

namespace ObscuraNetwork

namespace VaultRelayer

inductive ChainId where
  | ethereumSepolia
  | arbitrumSepolia
  | baseSepolia
  | optimismSepolia
  deriving DecidableEq

/-- `Object.entries(CHAINS)`: keys that are integers come in ascending order, 84532, 421614,
11155111 and 11155420. -/
def chains : List ChainId := [.baseSepolia, .arbitrumSepolia, .ethereumSepolia, .optimismSepolia]

/-- `blockRange`, the same for the four chains. -/
def blockRange : Int := 50

/-- A `DepositLocked` event of a vault; the id is what `Number` makes of it. -/
structure DepositEvent where
  blockNumber : Int
  depositId : Nat
  token : Bytes20
  amount : Nat
  obscuraRecipient : Bytes32
  deriving DecidableEq

/-- The key of `processed`: the source chain and the deposit's id. -/
abbrev DepositKey := ChainId × Nat

/-- The JSON state file: the keys that have a record and the next block of every chain. -/
structure StateFile where
  processed : List DepositKey
  lastBlock : ChainId → Option Int

namespace StateFile

def setLastBlock (s : StateFile) (chain : ChainId) (block : Int) : StateFile :=
  { s with lastBlock := Function.update s.lastBlock chain (some block) }

/-- `state.processed[key] = ..`. -/
def record (s : StateFile) (key : DepositKey) : StateFile :=
  if key ∈ s.processed then s else { s with processed := s.processed ++ [key] }

end StateFile

/-- What a vault and its token answer: the key of the verifier and the vault's balance. -/
structure VaultAnswers where
  vaultVKey : Option Bytes32
  vaultBalance : Option Nat

structure Dest where
  chain : ChainId
  zkMode : Bool
  deriving DecidableEq

/-- One chain of `findDestChain`: a key that cannot be read counts as zero, a balance that cannot be
read leaves the chain out. -/
def vaultDest (amount : Nat) (answers : VaultAnswers) (chain : ChainId) : Option Dest :=
  let zero : Bytes32 := FixedBytes.replicate 32 0
  if answers.vaultVKey.getD zero ≠ zero then some ⟨chain, true⟩
  else
    match answers.vaultBalance with
    | some vaultBalance => if amount ≤ vaultBalance then some ⟨chain, false⟩ else none
    | none => none

def findDestChain (source : ChainId) (amount : Nat) (answers : ChainId → VaultAnswers) :
    Option Dest :=
  (chains.filter fun chain => decide (chain ≠ source)).findSome? fun chain =>
    vaultDest amount (answers chain) chain

/-- A call of `processDeposit` that waits: the deposit, the state it has loaded, and the rest of its
poll. -/
structure Attempt where
  source : ChainId
  event : DepositEvent
  snapshot : StateFile
  rest : List DepositEvent
  toBlock : Int

def Attempt.key (a : Attempt) : DepositKey := (a.source, a.event.depositId)

/-- An async function at the `await` it waits at. -/
inductive Task where
  /-- `watchChain`, for the chain's first block number. -/
  | watch (chain : ChainId) (snapshot : StateFile)
  /-- `poll`, for the block number. -/
  | pollBlock (chain : ChainId)
  /-- `poll`, for the logs. -/
  | pollLogs (chain : ChainId) (fromBlock toBlock : Int)
  /-- `poll`, between two deposits. -/
  | deposits (chain : ChainId) (rest : List DepositEvent) (toBlock : Int)
  /-- `processDeposit`, for `findDestChain`. -/
  | destination (attempt : Attempt)
  /-- `processDeposit`, for `writeContract`; the node may already have the transaction. -/
  | releasing (attempt : Attempt) (dest : Dest) (submitted : Bool)
  | finished

/-- A release transaction that a node has accepted. -/
structure VaultRelease where
  key : DepositKey
  dest : Dest
  amount : Nat
  recipient : Bytes
  deriving DecidableEq

/-- The file, the async functions, the transactions submitted, and the keys of those whose call
ended in an error all the same. -/
structure World where
  file : StateFile
  tasks : List Task
  submissions : List VaultRelease
  lost : List DepositKey

/-- What ends a wait. An error of a read is `none` or `false`. -/
inductive Reply where
  | block (number : Option Int)
  | logs (answers : Bool)
  | turn
  | vaults (answers : ChainId → VaultAnswers)
  | submitted
  | result (returned : Bool)

/-- `bytes32ToAddress`: the address after the padding. -/
def bytes32ToAddress (b32 : Bytes32) : Bytes := b32.bytes.drop 12

/-- `eth_getLogs`, which refuses a negative block. -/
def getLogs (events : ChainId → List DepositEvent) (chain : ChainId) (fromBlock toBlock : Int) :
    Option (List DepositEvent) :=
  if fromBlock < 0 then none
  else some ((events chain).filter fun event =>
    decide (fromBlock ≤ event.blockNumber ∧ event.blockNumber ≤ toBlock))

/-- The blocks of a poll: from the saved one, or the last ones when the saved one is ahead. -/
def pollRange (saved : Option Int) (block : Int) : Int × Int :=
  let savedBlock := saved.getD (if blockRange < block then block - blockRange else 0)
  let fromBlock := if block < savedBlock then block - blockRange else savedBlock
  (fromBlock, if block < fromBlock + blockRange then block else fromBlock + blockRange)

namespace World

def setTask (w : World) (i : Nat) (task : Task) : World := { w with tasks := w.tasks.set i task }

/-- A task goes on from its `await` to the next one, or to its end. -/
def resume (events : ChainId → List DepositEvent) (w : World) (i : Nat) :
    Task → Reply → Option World
  | .watch chain _, .block none => some (w.setTask i (.pollBlock chain))
  | .watch chain snapshot, .block (some block) =>
    let startBlock := if 200 < block then block - 200 else 0
    some { w.setTask i (.pollBlock chain) with file := snapshot.setLastBlock chain startBlock }
  | .pollBlock _, .block none => some (w.setTask i .finished)
  | .pollBlock chain, .block (some block) =>
    let (fromBlock, toBlock) := pollRange (w.file.lastBlock chain) block
    some (w.setTask i (.pollLogs chain fromBlock toBlock))
  | .pollLogs chain fromBlock toBlock, .logs answers =>
    match getLogs events chain fromBlock toBlock, answers with
    | some logs, true => some (w.setTask i (.deposits chain logs toBlock))
    | _, _ => some (w.setTask i .finished)
  | .deposits chain [] toBlock, .turn =>
    some { w.setTask i .finished with file := w.file.setLastBlock chain (toBlock + 1) }
  | .deposits chain (event :: rest) toBlock, .turn =>
    if (chain, event.depositId) ∈ w.file.processed then
      some (w.setTask i (.deposits chain rest toBlock))
    else some (w.setTask i (.destination ⟨chain, event, w.file, rest, toBlock⟩))
  | .destination a, .vaults answers =>
    match findDestChain a.source a.event.amount answers with
    | none => some (w.setTask i (.deposits a.source a.rest a.toBlock))
    | some dest => some (w.setTask i (.releasing a dest false))
  | .releasing a dest false, .submitted =>
    some { w.setTask i (.releasing a dest true) with
      submissions := w.submissions ++
        [⟨a.key, dest, a.event.amount, bytes32ToAddress a.event.obscuraRecipient⟩] }
  | .releasing a _ true, .result true =>
    some { w.setTask i (.deposits a.source a.rest a.toBlock) with
      file := a.snapshot.record a.key }
  | .releasing a _ true, .result false =>
    some { w.setTask i (.deposits a.source a.rest a.toBlock) with lost := a.key :: w.lost }
  | .releasing a _ false, .result false =>
    some (w.setTask i (.deposits a.source a.rest a.toBlock))
  | _, _ => none

/-- The chain's `watchChain` has come to its end, so its timers poll. -/
def watching (w : World) (chain : ChainId) : Bool :=
  w.tasks.all fun task =>
    match task with
    | .watch waiting _ => decide (waiting ≠ chain)
    | _ => true

end World

/-- One turn of the event loop: a timer of a chain fires, after 30 seconds or 500 ms, or a wait
ends. -/
inductive Action where
  | timer (chain : ChainId)
  | resume (i : Nat) (reply : Reply)

def step (events : ChainId → List DepositEvent) (w : World) : Action → Option World
  | .timer chain =>
    if w.watching chain then some { w with tasks := w.tasks ++ [.pollBlock chain] } else none
  | .resume i reply => do
    let task ← w.tasks[i]?
    w.resume events i task reply

/-- The start of the script with the file it finds: every `watchChain` runs up to its first wait. -/
def start (file : StateFile) : World where
  file := file
  tasks := chains.map fun chain =>
    match file.lastBlock chain with
    | none => .watch chain file
    | some _ => .pollBlock chain
  submissions := []
  lost := []

end VaultRelayer

end ObscuraNetwork
