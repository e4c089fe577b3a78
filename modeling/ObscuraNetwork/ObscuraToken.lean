import ObscuraNetwork.BridgeContract

namespace ObscuraNetwork

inductive TokenEvent where
  | transfer (holder recipient : Bytes20) (value : Nat)
  | approval (owner spender : Bytes20) (value : Nat)
  | ownershipTransferred (previousOwner newOwner : Bytes20)
  deriving DecidableEq

/-- The contract of `ObscuraToken.sol`. -/
structure ObscuraToken where
  balances : Bytes20 → Nat
  allowances : Bytes20 → Bytes20 → Nat
  totalSupply : Nat
  owner : Bytes20
  events : List TokenEvent

inductive TokenCall where
  | transfer (recipient : Bytes20) (amount : Nat)
  | approve (spender : Bytes20) (amount : Nat)
  | transferFrom (holder recipient : Bytes20) (amount : Nat)
  | transferOwnership (newOwner : Bytes20)
  deriving DecidableEq

structure TokenInput where
  sender : Bytes20
  message : TokenCall
  deriving DecidableEq

/-- A difference of two `uint256`; one below zero reverts. -/
def checkedSub (a b : Nat) : Outcome Nat := do
  ensure (b ≤ a) (.panic "arithmetic underflow or overflow (0x11)")
  pure (a - b)

@[simp] theorem checkedSub_ok {a b c : Nat} : checkedSub a b = .ok c ↔ b ≤ a ∧ a - b = c := by
  simp only [checkedSub, bind_ok, ensure_ok, pure_ok, exists_const]

namespace ObscuraToken

/-- `TOTAL_SUPPLY` -/
def fullSupply : Nat := 1000000000 * 10 ^ 18

def emit (t : ObscuraToken) (event : TokenEvent) : ObscuraToken :=
  { t with events := t.events ++ [event] }

def setBalance (t : ObscuraToken) (account : Bytes20) (balance : Nat) : ObscuraToken :=
  { t with balances := Function.update t.balances account balance }

def setAllowance (t : ObscuraToken) (owner spender : Bytes20) (amount : Nat) : ObscuraToken :=
  { t with
    allowances :=
      Function.update t.allowances owner (Function.update (t.allowances owner) spender amount) }

/-- `_transfer` -/
def moveBalance (holder recipient : Bytes20) (amount : Nat) (t : ObscuraToken) :
    Outcome ObscuraToken := do
  ensure (holder ≠ zeroAddress) (.bail "OBSCURA: transfer from zero")
  ensure (recipient ≠ zeroAddress) (.bail "OBSCURA: transfer to zero")
  ensure (amount ≤ t.balances holder) (.bail "OBSCURA: insufficient balance")
  let debited ← checkedSub (t.balances holder) amount
  let t := t.setBalance holder debited
  let credited ← checked (t.balances recipient + amount)
  let t := t.setBalance recipient credited
  pure (t.emit (.transfer holder recipient amount))

/-- `_mint` -/
def mint (recipient : Bytes20) (amount : Nat) (t : ObscuraToken) : Outcome ObscuraToken := do
  ensure (recipient ≠ zeroAddress) (.bail "OBSCURA: mint to zero")
  let totalSupply ← checked (t.totalSupply + amount)
  let t := { t with totalSupply := totalSupply }
  let credited ← checked (t.balances recipient + amount)
  let t := t.setBalance recipient credited
  pure (t.emit (.transfer zeroAddress recipient amount))

/-- `_approve` -/
def writeAllowance (owner spender : Bytes20) (amount : Nat) (t : ObscuraToken) :
    Outcome ObscuraToken := do
  ensure (owner ≠ zeroAddress) (.bail "OBSCURA: approve from zero")
  ensure (spender ≠ zeroAddress) (.bail "OBSCURA: approve to zero")
  let t := t.setAllowance owner spender amount
  pure (t.emit (.approval owner spender amount))

/-- The constructor, over empty mappings. -/
def construct (deployer treasury : Bytes20) : Outcome ObscuraToken :=
  mint treasury fullSupply
    { balances _ := 0
      allowances _ _ := 0
      totalSupply := 0
      owner := deployer
      events := [] }

def transfer (sender recipient : Bytes20) (amount : Nat) (t : ObscuraToken) :
    Outcome ObscuraToken :=
  t.moveBalance sender recipient amount

def approve (sender spender : Bytes20) (amount : Nat) (t : ObscuraToken) :
    Outcome ObscuraToken :=
  t.writeAllowance sender spender amount

def transferFrom (sender holder recipient : Bytes20) (amount : Nat) (t : ObscuraToken) :
    Outcome ObscuraToken := do
  let currentAllowance := t.allowances holder sender
  ensure (amount ≤ currentAllowance) (.bail "OBSCURA: insufficient allowance")
  let remaining ← checkedSub currentAllowance amount
  let t ← t.writeAllowance holder sender remaining
  t.moveBalance holder recipient amount

def transferOwnership (sender newOwner : Bytes20) (t : ObscuraToken) : Outcome ObscuraToken := do
  ensure (sender = t.owner) (.bail "OBSCURA: not owner")
  ensure (newOwner ≠ zeroAddress) (.bail "OBSCURA: zero address")
  let t := t.emit (.ownershipTransferred t.owner newOwner)
  pure { t with owner := newOwner }

/-- A call that goes through returns true where it returns anything. -/
def act (i : TokenInput) (t : ObscuraToken) : Outcome ObscuraToken :=
  match i.message with
  | .transfer recipient amount => t.transfer i.sender recipient amount
  | .approve spender amount => t.approve i.sender spender amount
  | .transferFrom holder recipient amount => t.transferFrom i.sender holder recipient amount
  | .transferOwnership newOwner => t.transferOwnership i.sender newOwner

end ObscuraToken

end ObscuraNetwork
