import ObscuraNetwork.RollbackMachine
import ObscuraNetwork.Rlp

namespace ObscuraNetwork

/-- A `Transfer` event of the token. -/
structure Transfer where
  sender : Bytes20
  recipient : Bytes20
  amount : Nat
  deriving DecidableEq

/-- The USDC contract: what it holds for every account and the transfers it has logged. -/
structure Erc20 where
  balanceOf : Bytes20 → Nat
  transfers : List Transfer

/-- What the token does when it is called. -/
inductive TokenReply where
  | moves
  | returnsFalse
  | reverts
  deriving DecidableEq

namespace Erc20

/-- The stated amount and no other leaves one account and reaches the other. -/
def move (t : Erc20) (sender recipient : Bytes20) (amount : Nat) : Erc20 where
  balanceOf :=
    let debited := Function.update t.balanceOf sender (t.balanceOf sender - amount)
    Function.update debited recipient (debited recipient + amount)
  transfers := t.transfers ++ [⟨sender, recipient, amount⟩]

/-- `transfer` and `transferFrom`: a token never moves what an account does not hold. -/
def transfer (reply : TokenReply) (sender recipient : Bytes20) (amount : Nat) (t : Erc20) :
    Outcome (Bool × Erc20) :=
  match reply with
  | .moves => do
    ensure (amount ≤ t.balanceOf sender) (.bail "ERC20: transfer amount exceeds balance")
    pure (true, t.move sender recipient amount)
  | .returnsFalse => pure (false, t)
  | .reverts => .error (.bail "ERC20: reverted")

end Erc20

/-- Status 0 is empty, 1 locked and 2 released. -/
structure Deposit where
  sender : Bytes20
  obscuraRecipient : Bytes32
  amount : Nat
  timestamp : UInt64
  status : UInt8
  deriving DecidableEq

def Deposit.empty : Deposit where
  sender := FixedBytes.replicate 20 0
  obscuraRecipient := FixedBytes.replicate 32 0
  amount := 0
  timestamp := 0
  status := 0

inductive BridgeEvent where
  | depositLocked (depositId : Nat) (sender : Bytes20) (obscuraRecipient : Bytes32) (amount : Nat)
      (timestamp : UInt64)
  | depositReleased (depositId : Nat) (recipient : Bytes20) (amount : Nat)
  | depositReleasedMultisig (depositId : Nat) (recipient : Bytes20) (amount : Nat)
      (signers : Bytes20 × Bytes20)
  | relayerUpdated (oldRelayer newRelayer : Bytes20)
  | signerAdded (signer : Bytes20)
  | signerRemoved (signer : Bytes20)
  | thresholdChanged (oldThreshold newThreshold : Nat)
  deriving DecidableEq

/-- The storage that both versions share, the token they hold and the events they have emitted. -/
structure Ledger where
  usdc : Erc20
  nextDepositId : Nat
  deposits : Nat → Deposit
  usedWithdrawalNonces : Bytes32 → Bool
  events : List BridgeEvent

/-- The account that calls, the block's time and the token's reply. The contract calls nothing but
the token, so it is never its own caller. -/
structure CallContext (bridge : Bytes20) where
  sender : Bytes20
  notBridge : sender ≠ bridge
  timestamp : Nat
  usdc : TokenReply

def maxDeposit : Nat := 1000000 * 10 ^ 6

def minDeposit : Nat := 10 ^ 6

/-- What an accepted call has done, with the arguments that name it. -/
inductive BridgeEffect where
  | locked (depositId : Nat)
  | released (depositId : Nat) (withdrawalNonce : Bytes32)
  | other
  deriving DecidableEq

namespace Ledger

def emit (l : Ledger) (event : BridgeEvent) : Ledger := { l with events := l.events ++ [event] }

/-- `deposit` of both versions, whose texts differ by a label. -/
def deposit (label : String) {bridge : Bytes20} (ctx : CallContext bridge) (amount : Nat)
    (obscuraRecipient : Bytes32) (l : Ledger) : Outcome (Nat × Ledger) := do
  ensure (minDeposit ≤ amount) (.bail (label ++ "amount < minimum"))
  ensure (amount ≤ maxDeposit) (.bail (label ++ "amount > maximum"))
  ensure (obscuraRecipient ≠ FixedBytes.replicate 32 0) (.bail (label ++ "zero recipient"))
  let (moved, usdc) ← l.usdc.transfer ctx.usdc ctx.sender bridge amount
  ensure (moved = true) (.bail (label ++ "USDC transfer failed"))
  ensure (l.nextDepositId + 1 < 2 ^ 256) (.panic "arithmetic underflow or overflow (0x11)")
  let depositId := l.nextDepositId
  let timestamp := UInt64.ofNat ctx.timestamp
  let locked : Deposit := ⟨ctx.sender, obscuraRecipient, amount, timestamp, 1⟩
  let l : Ledger := { l with
    usdc := usdc
    nextDepositId := depositId + 1
    deposits := Function.update l.deposits depositId locked }
  pure (depositId, l.emit (.depositLocked depositId ctx.sender obscuraRecipient amount timestamp))

/-- The effects of a release in both versions: the nonce and the status are written before the
transfer, and a failed transfer takes them back. -/
def payOut (label : String) {bridge : Bytes20} (ctx : CallContext bridge) (depositId : Nat)
    (recipient : Bytes20) (withdrawalNonce : Bytes32) (l : Ledger) : Outcome Ledger := do
  let dep := l.deposits depositId
  let l : Ledger := { l with
    usedWithdrawalNonces := Function.update l.usedWithdrawalNonces withdrawalNonce true
    deposits := Function.update l.deposits depositId { dep with status := 2 } }
  let (moved, usdc) ← l.usdc.transfer ctx.usdc bridge recipient dep.amount
  ensure (moved = true) (.bail (label ++ "USDC release failed"))
  pure { l with usdc := usdc }

end Ledger

/-- The contract of `ObscuraBridge.sol`. -/
structure BridgeV1 where
  owner : Bytes20
  relayer : Bytes20
  ledger : Ledger

inductive BridgeV1Call where
  | deposit (amount : Nat) (obscuraRecipient : Bytes32)
  | release (depositId : Nat) (recipient : Bytes20) (withdrawalNonce : Bytes32)
  | setRelayer (newRelayer : Bytes20)
  deriving DecidableEq

namespace BridgeV1

def label : String := "ObscuraBridge: "

variable {bridge : Bytes20}

def release (ctx : CallContext bridge) (depositId : Nat) (recipient : Bytes20)
    (withdrawalNonce : Bytes32) (s : BridgeV1) : Outcome BridgeV1 := do
  ensure (ctx.sender = s.relayer) (.bail (label ++ "not relayer"))
  ensure (s.ledger.usedWithdrawalNonces withdrawalNonce = false) (.bail (label ++ "nonce used"))
  ensure ((s.ledger.deposits depositId).status = 1) (.bail (label ++ "not locked"))
  let ledger ← s.ledger.payOut label ctx depositId recipient withdrawalNonce
  let amount := (ledger.deposits depositId).amount
  pure { s with ledger := ledger.emit (.depositReleased depositId recipient amount) }

def setRelayer (ctx : CallContext bridge) (newRelayer : Bytes20) (s : BridgeV1) :
    Outcome BridgeV1 := do
  ensure (ctx.sender = s.owner) (.bail (label ++ "not owner"))
  pure { s with
    relayer := newRelayer
    ledger := s.ledger.emit (.relayerUpdated s.relayer newRelayer) }

def call (ctx : CallContext bridge) (message : BridgeV1Call) (s : BridgeV1) :
    Outcome (BridgeEffect × BridgeV1) :=
  match message with
  | .deposit amount obscuraRecipient => do
    let (depositId, ledger) ← s.ledger.deposit label ctx amount obscuraRecipient
    pure (.locked depositId, { s with ledger := ledger })
  | .release depositId recipient withdrawalNonce => do
    let s ← s.release ctx depositId recipient withdrawalNonce
    pure (.released depositId withdrawalNonce, s)
  | .setRelayer newRelayer => do
    let s ← s.setRelayer ctx newRelayer
    pure (.other, s)

end BridgeV1

/-- The contract of `ObscuraBridgeV2.sol`. -/
structure BridgeV2 where
  owner : Bytes20
  threshold : Nat
  relayerSigners : List Bytes20
  ledger : Ledger

inductive BridgeV2Call where
  | deposit (amount : Nat) (obscuraRecipient : Bytes32)
  | releaseMultisig (depositId : Nat) (recipient : Bytes20) (withdrawalNonce : Bytes32)
      (signatures : List Bytes)
  | addSigner (signer : Bytes20)
  | removeSigner (signer : Bytes20)
  | setThreshold (newThreshold : Nat)
  | transferOwnership (newOwner : Bytes20)
  deriving DecidableEq

/-- A `uint256` result; one that does not fit reverts. -/
def checked (n : Nat) : Outcome Nat := do
  ensure (n < 2 ^ 256) (.panic "arithmetic underflow or overflow (0x11)")
  pure n

@[simp] theorem checked_ok {n m : Nat} : checked n = .ok m ↔ n < 2 ^ 256 ∧ n = m := by
  simp only [checked, bind_ok, ensure_ok, pure_ok, exists_const]

def zeroAddress : Bytes20 := FixedBytes.replicate 20 0

def maxSigners : Nat := 10

namespace BridgeV2

/-- The constructor, over a ledger whose mappings are empty. -/
def construct (owner : Bytes20) (signers : List Bytes20) (threshold : Nat) (ledger : Ledger) :
    Outcome BridgeV2 := do
  ensure (threshold ≤ signers.length) (.bail "threshold > signers")
  ensure (1 ≤ threshold) (.bail "threshold must be >= 1")
  ensure (signers.length ≤ maxSigners) (.bail "too many signers")
  ensureAll (fun signer => signer ≠ zeroAddress) (fun _ => .bail "zero signer") signers
  pure ⟨owner, threshold, signers, ledger⟩

def inArray (arr : List Bytes20) (addr : Bytes20) : Bool :=
  arr.any fun entry => decide (entry = addr)

/-- `_isRelayer`. -/
def isRelayer (addr : Bytes20) (s : BridgeV2) : Bool := inArray s.relayerSigners addr

section Signatures

variable (keccak256 : Bytes → Bytes32) (ecrecover : Bytes32 → UInt8 → Bytes → Bytes → Bytes20)
  (chainId : Nat)

def releaseHash (depositId : Nat) (recipient : Bytes20) (withdrawalNonce : Bytes32) : Bytes32 :=
  keccak256 (toBeBytes 32 depositId ++ recipient.bytes ++ withdrawalNonce.bytes ++
    toBeBytes 32 chainId)

/-- The digest of the payload behind the prefix that `personal_sign` puts before it. -/
def signedMessage (payloadHash : Bytes32) : Bytes32 :=
  keccak256 (0x19 :: ("Ethereum Signed Message:\n32".toList.map fun c => UInt8.ofNat c.toNat) ++
    payloadHash.bytes)

def recoverSigner (msgHash : Bytes32) (sig : Bytes) : Outcome Bytes20 := do
  ensure (sig.length = 65) (.bail "invalid sig length")
  let r := sig.take 32
  let s := (sig.drop 32).take 32
  let v := sig.getD 64 0
  let v := if v < 27 then v + 27 else v
  ensure (v = 27 ∨ v = 28) (.bail "invalid v")
  pure (ecrecover msgHash v r s)

/-- The loop over the signatures, which stops at the threshold. `seen` has room for ten. -/
def countSigners (msgHash : Bytes32) (s : BridgeV2) :
    List Bytes → List Bytes20 → Outcome (List Bytes20)
  | [], seen => pure seen
  | sig :: rest, seen =>
    if seen.length < s.threshold then do
      let recovered ← recoverSigner ecrecover msgHash sig
      if s.isRelayer recovered = true ∧ inArray seen recovered = false then do
        ensure (seen.length < 10) (.panic "array out-of-bounds access (0x32)")
        countSigners msgHash s rest (seen ++ [recovered])
      else countSigners msgHash s rest seen
    else pure seen

variable {bridge : Bytes20}

def releaseMultisig (ctx : CallContext bridge) (depositId : Nat) (recipient : Bytes20)
    (withdrawalNonce : Bytes32) (signatures : List Bytes) (s : BridgeV2) : Outcome BridgeV2 := do
  ensure (s.ledger.usedWithdrawalNonces withdrawalNonce = false) (.bail "nonce already used")
  ensure ((s.ledger.deposits depositId).status = 1) (.bail "deposit not locked")
  ensure (recipient ≠ zeroAddress) (.bail "zero recipient")
  ensure (s.threshold ≤ signatures.length) (.bail "not enough signatures provided")
  let payloadHash := releaseHash keccak256 chainId depositId recipient withdrawalNonce
  let msgHash := signedMessage keccak256 payloadHash
  let seen ← countSigners ecrecover msgHash s signatures []
  ensure (s.threshold ≤ seen.length) (.bail "insufficient valid signatures")
  let ledger ← s.ledger.payOut "" ctx depositId recipient withdrawalNonce
  let topSigners := (seen.getD 0 zeroAddress, seen.getD 1 zeroAddress)
  let amount := (ledger.deposits depositId).amount
  pure { s with
    ledger := ledger.emit (.depositReleasedMultisig depositId recipient amount topSigners) }

end Signatures

section Admin

variable {bridge : Bytes20}

def onlyOwner (ctx : CallContext bridge) (s : BridgeV2) : Outcome Unit :=
  ensure (ctx.sender = s.owner) (.bail "not owner")

def addSigner (ctx : CallContext bridge) (signer : Bytes20) (s : BridgeV2) : Outcome BridgeV2 := do
  s.onlyOwner ctx
  ensure (signer ≠ zeroAddress) (.bail "zero address")
  ensure (s.isRelayer signer = false) (.bail "already a signer")
  ensure (s.relayerSigners.length < maxSigners) (.bail "too many signers")
  pure { s with
    relayerSigners := s.relayerSigners ++ [signer]
    ledger := s.ledger.emit (.signerAdded signer) }

/-- The last signer takes the place of the first one that is the signer to remove. -/
def removeSigner (ctx : CallContext bridge) (signer : Bytes20) (s : BridgeV2) :
    Outcome BridgeV2 := do
  s.onlyOwner ctx
  ensure (s.threshold < s.relayerSigners.length) (.bail "would break threshold")
  match s.relayerSigners.findIdx? fun entry => decide (entry = signer) with
  | some i => pure { s with
      relayerSigners := (s.relayerSigners.set i (s.relayerSigners.getLastD signer)).dropLast
      ledger := s.ledger.emit (.signerRemoved signer) }
  | none => .error (.bail "signer not found")

def setThreshold (ctx : CallContext bridge) (newThreshold : Nat) (s : BridgeV2) :
    Outcome BridgeV2 := do
  s.onlyOwner ctx
  ensure (1 ≤ newThreshold) (.bail "threshold must be >= 1")
  ensure (newThreshold ≤ s.relayerSigners.length) (.bail "threshold > signer count")
  pure { s with
    threshold := newThreshold
    ledger := s.ledger.emit (.thresholdChanged s.threshold newThreshold) }

def transferOwnership (ctx : CallContext bridge) (newOwner : Bytes20) (s : BridgeV2) :
    Outcome BridgeV2 := do
  s.onlyOwner ctx
  ensure (newOwner ≠ zeroAddress) (.bail "zero address")
  pure { s with owner := newOwner }

end Admin

def call (keccak256 : Bytes → Bytes32) (ecrecover : Bytes32 → UInt8 → Bytes → Bytes → Bytes20)
    (chainId : Nat) {bridge : Bytes20} (ctx : CallContext bridge) (message : BridgeV2Call)
    (s : BridgeV2) : Outcome (BridgeEffect × BridgeV2) :=
  match message with
  | .deposit amount obscuraRecipient => do
    let (depositId, ledger) ← s.ledger.deposit "" ctx amount obscuraRecipient
    pure (.locked depositId, { s with ledger := ledger })
  | .releaseMultisig depositId recipient withdrawalNonce signatures => do
    let s ← s.releaseMultisig keccak256 ecrecover chainId ctx depositId recipient withdrawalNonce
      signatures
    pure (.released depositId withdrawalNonce, s)
  | .addSigner signer => do
    let s ← s.addSigner ctx signer
    pure (.other, s)
  | .removeSigner signer => do
    let s ← s.removeSigner ctx signer
    pure (.other, s)
  | .setThreshold newThreshold => do
    let s ← s.setThreshold ctx newThreshold
    pure (.other, s)
  | .transferOwnership newOwner => do
    let s ← s.transferOwnership ctx newOwner
    pure (.other, s)

end BridgeV2

end ObscuraNetwork
