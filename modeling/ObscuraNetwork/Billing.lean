import ObscuraNetwork.BridgeContract

namespace ObscuraNetwork

structure UserState where
  txCredits : Nat
  activePlan : UInt8
  planExpiry : Nat
  planTxUsed : Nat
  deriving DecidableEq

inductive BillingEvent where
  | txCreditsPurchased (user : Bytes20) (txCount usdcPaid : Nat)
  | subscribed (user : Bytes20) (plan : UInt8) (expiry usdcPaid : Nat)
  | txConsumed (user : Bytes20) (remaining : Nat)
  | priceUpdated (newPricePerTx : Nat)
  | planPriceUpdated (plan : UInt8) (newPrice : Nat)
  deriving DecidableEq

/-- The contract of `ObscuraBilling.sol` with the USDC transfers that it has made. -/
structure Billing where
  owner : Bytes20
  treasury : Bytes20
  pricePerTx : Nat
  planPrice : UInt8 → Nat
  planTxLimit : UInt8 → Nat
  users : Bytes20 → UserState
  transfers : List Transfer
  events : List BillingEvent

/-- The account that calls, the block's time, what USDC replies to a transfer and the OBSCURA tokens
that the account holds. -/
structure BillingContext where
  sender : Bytes20
  timestamp : Nat
  usdc : TokenReply
  obscuraBalance : Nat

inductive BillingCall where
  | payForTx (txCount : Nat)
  | subscribe (plan : UInt8)
  | consumeTx (user : Bytes20)
  | setPricePerTx (newPrice : Nat)
  | setPlanPrice (plan : UInt8) (newPrice : Nat)
  | setTreasury (newTreasury : Bytes20)
  | transferOwnership (newOwner : Bytes20)
  deriving DecidableEq

def UserState.empty : UserState := ⟨0, 0, 0, 0⟩

namespace Billing

def discountThreshold : Nat := 1000 * 10 ^ 18

def discountBps : Nat := 6000

def bpsDenominator : Nat := 10000

def planNone : UInt8 := 0

def planStarter : UInt8 := 1

def planBusiness : UInt8 := 2

def planEnterprise : UInt8 := 3

/-- The `30 days` of the source, in seconds. -/
def thirtyDays : Nat := 30 * 24 * 60 * 60

def construct (owner treasury : Bytes20) : Billing where
  owner := owner
  treasury := treasury
  pricePerTx := 100000
  planPrice plan :=
    if plan = planStarter then 99 * 10 ^ 6
    else if plan = planBusiness then 499 * 10 ^ 6
    else if plan = planEnterprise then 1999 * 10 ^ 6
    else 0
  planTxLimit plan := if plan = planStarter then 500 else if plan = planBusiness then 5000 else 0
  users _ := .empty
  transfers := []
  events := []

def emit (s : Billing) (event : BillingEvent) : Billing := { s with events := s.events ++ [event] }

def setUser (s : Billing) (user : Bytes20) (u : UserState) : Billing :=
  { s with users := Function.update s.users user u }

@[simp] theorem setUser_users (s : Billing) (user : Bytes20) (u : UserState) :
    (s.setUser user u).users = Function.update s.users user u := rfl

@[simp] theorem emit_users (s : Billing) (event : BillingEvent) :
    (s.emit event).users = s.users := rfl

def onlyOwner (ctx : BillingContext) (s : Billing) : Outcome Unit :=
  ensure (ctx.sender = s.owner) (.bail "Billing: not owner")

/-- `_applyDiscount`. -/
def applyDiscount (ctx : BillingContext) (basePrice : Nat) : Outcome Nat :=
  if discountThreshold ≤ ctx.obscuraBalance then do
    let scaled ← checked (basePrice * discountBps)
    pure (scaled / bpsDenominator)
  else pure basePrice

/-- `usdc.transferFrom` to the treasury, which has to return true. -/
def transferFrom (ctx : BillingContext) (price : Nat) (s : Billing) : Outcome Billing :=
  match ctx.usdc with
  | .moves => pure { s with transfers := s.transfers ++ [⟨ctx.sender, s.treasury, price⟩] }
  | .returnsFalse => .error (.bail "Billing: USDC transfer failed")
  | .reverts => .error (.bail "ERC20: reverted")

def payForTx (ctx : BillingContext) (txCount : Nat) (s : Billing) : Outcome Billing := do
  ensure (0 < txCount) (.bail "Billing: zero txCount")
  let basePrice ← checked (s.pricePerTx * txCount)
  let price ← applyDiscount ctx basePrice
  let s ← s.transferFrom ctx price
  let u := s.users ctx.sender
  let txCredits ← checked (u.txCredits + txCount)
  let s := s.setUser ctx.sender { u with txCredits := txCredits }
  pure (s.emit (.txCreditsPurchased ctx.sender txCount price))

def subscribe (ctx : BillingContext) (plan : UInt8) (s : Billing) : Outcome Billing := do
  ensure (planStarter ≤ plan ∧ plan ≤ planEnterprise) (.bail "Billing: invalid plan")
  let price ← applyDiscount ctx (s.planPrice plan)
  let s ← s.transferFrom ctx price
  let u := s.users ctx.sender
  let start := if u.planExpiry < ctx.timestamp then ctx.timestamp else u.planExpiry
  let planExpiry ← checked (start + thirtyDays)
  let s := s.setUser ctx.sender
    { u with activePlan := plan, planExpiry := planExpiry, planTxUsed := 0 }
  pure (s.emit (.subscribed ctx.sender plan planExpiry price))

end Billing

/-- The test of `consumeTx` for an active subscription. -/
def UserState.subscribed (u : UserState) (timestamp : Nat) : Bool :=
  decide (u.activePlan ≠ Billing.planNone ∧ timestamp < u.planExpiry)

namespace Billing

/-- The credits that are left when no plan covers the transaction. -/
def consumeCredit (user : Bytes20) (s : Billing) : Outcome (Bool × Billing) :=
  let u := s.users user
  if 0 < u.txCredits then
    let s := s.setUser user { u with txCredits := u.txCredits - 1 }
    pure (true, s.emit (.txConsumed user (u.txCredits - 1)))
  else pure (false, s)

def consumeTx (ctx : BillingContext) (user : Bytes20) (s : Billing) :
    Outcome (Bool × Billing) := do
  s.onlyOwner ctx
  let u := s.users user
  if u.subscribed ctx.timestamp = true then
    let limit := s.planTxLimit u.activePlan
    if limit = 0 then do
      let planTxUsed ← checked (u.planTxUsed + 1)
      let s := s.setUser user { u with planTxUsed := planTxUsed }
      pure (true, s.emit (.txConsumed user (2 ^ 256 - 1)))
    else if u.planTxUsed < limit then do
      let planTxUsed ← checked (u.planTxUsed + 1)
      let s := s.setUser user { u with planTxUsed := planTxUsed }
      pure (true, s.emit (.txConsumed user (limit - planTxUsed)))
    else s.consumeCredit user
  else s.consumeCredit user

def setPricePerTx (ctx : BillingContext) (newPrice : Nat) (s : Billing) : Outcome Billing := do
  s.onlyOwner ctx
  pure ({ s with pricePerTx := newPrice }.emit (.priceUpdated newPrice))

def setPlanPrice (ctx : BillingContext) (plan : UInt8) (newPrice : Nat) (s : Billing) :
    Outcome Billing := do
  s.onlyOwner ctx
  let s := { s with planPrice := Function.update s.planPrice plan newPrice }
  pure (s.emit (.planPriceUpdated plan newPrice))

def setTreasury (ctx : BillingContext) (newTreasury : Bytes20) (s : Billing) : Outcome Billing := do
  s.onlyOwner ctx
  ensure (newTreasury ≠ zeroAddress) (.bail "Billing: zero address")
  pure { s with treasury := newTreasury }

def transferOwnership (ctx : BillingContext) (newOwner : Bytes20) (s : Billing) :
    Outcome Billing := do
  s.onlyOwner ctx
  ensure (newOwner ≠ zeroAddress) (.bail "Billing: zero address")
  pure { s with owner := newOwner }

def call (ctx : BillingContext) (message : BillingCall) (s : Billing) : Outcome Billing :=
  match message with
  | .payForTx txCount => s.payForTx ctx txCount
  | .subscribe plan => s.subscribe ctx plan
  | .consumeTx user => do
    let (_, s) ← s.consumeTx ctx user
    pure s
  | .setPricePerTx newPrice => s.setPricePerTx ctx newPrice
  | .setPlanPrice plan newPrice => s.setPlanPrice ctx plan newPrice
  | .setTreasury newTreasury => s.setTreasury ctx newTreasury
  | .transferOwnership newOwner => s.transferOwnership ctx newOwner

end Billing

end ObscuraNetwork
