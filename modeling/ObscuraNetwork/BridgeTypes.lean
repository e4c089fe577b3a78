import ObscuraNetwork.Build
import Mathlib.Data.String.Basic

namespace ObscuraNetwork

structure BridgePublicInputs where
  ethBlockHash : Bytes32
  beaconBlockRoot : Bytes32
  depositId : UInt64
  obscuraRecipient : Bytes32
  amount : UInt64
  bridgeContract : Bytes20
  deriving DecidableEq

structure ClaimDeposit where
  proof : Bytes
  publicInputs : BridgePublicInputs
  deriving DecidableEq

structure WithdrawBridge where
  depositId : UInt64
  ethRecipient : Bytes20
  deriving DecidableEq

structure WithdrawalRecord where
  withdrawalId : UInt64
  depositId : UInt64
  ethRecipient : Bytes20
  amount : UInt64
  relayed : Bool
  deriving DecidableEq

structure HeliosPublicInputs where
  prevTrustedRoot : Bytes32
  newBeaconRoot : Bytes32
  newSlot : UInt64
  executionBlockHash : Bytes32
  deriving DecidableEq

structure UpdateHeliosHead where
  proof : Bytes
  publicInputs : HeliosPublicInputs
  deriving DecidableEq

structure HeliosConfig where
  initialTrustedBeaconRoot : Bytes32
  initialTrustedSlot : UInt64
  maxSlotGap : UInt64
  deriving DecidableEq

structure BridgeConfig where
  bridgeContractAddress : String
  vkHash : Bytes32
  maxProofAgeSecs : UInt64
  admin : Bytes
  helios : HeliosConfig
  deriving DecidableEq

def HeliosConfig.default : HeliosConfig where
  initialTrustedBeaconRoot := FixedBytes.replicate 32 0
  initialTrustedSlot := 0
  maxSlotGap := 8192

def BridgeConfig.default : BridgeConfig where
  bridgeContractAddress := "0x0000000000000000000000000000000000000000"
  vkHash := FixedBytes.replicate 32 0
  maxProofAgeSecs := 604800
  admin := []
  helios := HeliosConfig.default

inductive BridgeCallMessage where
  | claimDeposit (claim : ClaimDeposit)
  | withdrawBridge (withdraw : WithdrawBridge)
  | updateHeliosHead (update : UpdateHeliosHead)
  deriving DecidableEq

def makeDepositKeyStr (contract : Bytes20) (depositId : UInt64) : String :=
  "0x" ++ hexEncode contract.bytes ++ "_" ++ toString depositId.toNat

def withdrawalKey (depositId : UInt64) : String := "wd_" ++ toString depositId.toNat

def blockKey (blockHash : Bytes32) : String := "0x" ++ hexEncode blockHash.bytes

/-- `char::is_whitespace`: the Unicode `White_Space` property. -/
def isWhitespace (c : Char) : Bool :=
  let n := c.toNat
  (9 ≤ n && n ≤ 13) || n == 0x20 || n == 0x85 || n == 0xa0 || n == 0x1680 ||
    (0x2000 ≤ n && n ≤ 0x200a) || n == 0x2028 || n == 0x2029 || n == 0x202f || n == 0x205f ||
    n == 0x3000

/-- `str::trim`. -/
def trimChars (cs : List Char) : List Char :=
  ((cs.dropWhile isWhitespace).reverse.dropWhile isWhitespace).reverse

/-- `s.strip_prefix("0x").unwrap_or(s)`. -/
def stripHexPrefix : List Char → List Char
  | '0' :: 'x' :: rest => rest
  | cs => cs

def hexVal (c : UInt8) : Option UInt8 :=
  if 48 ≤ c ∧ c ≤ 57 then some (c - 48)
  else if 65 ≤ c ∧ c ≤ 70 then some (c - 55)
  else if 97 ≤ c ∧ c ≤ 102 then some (c - 87)
  else none

/-- `hex::decode_to_slice` on an even number of characters: the bytes, or the first character that
is no digit with its position. -/
def hexDecode : Nat → Bytes → Except (UInt8 × Nat) Bytes
  | i, hi :: lo :: rest =>
    match hexVal hi with
    | none => .error (hi, i)
    | some h =>
      match hexVal lo with
      | none => .error (lo, i + 1)
      | some l =>
        match hexDecode (i + 2) rest with
        | .error e => .error e
        | .ok bytes => .ok ((h * 16 + l) :: bytes)
  | _, _ => .ok []

def parseContractAddress (b : Build) (addr : String) : Outcome Bytes20 := do
  let s := (stripHexPrefix (trimChars addr.toList)).flatMap String.utf8EncodeChar
  ensure (s.length = 40) (.bail ("Bridge: invalid contract address length: " ++ addr))
  match hexDecode 0 s with
  | .error (c, i) =>
    .error (.bail ("Bridge: invalid contract address hex: " ++ b.hexErrorText c i))
  | .ok bytes =>
    if h : bytes.length = 20 then pure ⟨bytes, h⟩
    else .error (.bail "Bridge: invalid contract address hex: Invalid string length")

theorem parseContractAddress_noPanic (b : Build) (addr : String) :
    NoPanic (parseContractAddress b addr) := by
  refine (noPanic_ensure _ _).bind fun _ _ => ?_
  split
  · exact noPanic_bail _
  · split
    · exact noPanic_ok _
    · exact noPanic_bail _

end ObscuraNetwork
