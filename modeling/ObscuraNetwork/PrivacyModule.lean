import ObscuraNetwork.MerkleRoots
import ObscuraNetwork.ZkVerify

namespace ObscuraNetwork

def sanctionsProofMaxAgeSecs : UInt64 := 86400

structure ObscuraPrivacy where
  commitments : List Commitment
  merkleRoot : Option Bytes32
  merkleNextIndex : Option UInt64
  merkleFilledSubtrees : StateMap Nat Bytes32
  merkleRoots : StateMap UInt64 Bytes32
  merkleRootsCount : Option UInt64
  nullifiers : StateMap Nullifier Bool
  shieldedSupply : StateMap AssetId UInt64
  complianceTxCount : Option UInt64
  complianceTotalVolume : Option UInt64
  sanctionsRoot : Option Bytes32
  sanctionsOracle : Option Bytes
  encryptedNotes : StateMap String Bytes

structure ShieldMessage where
  note : Note
  encryptedNote : Bytes
  deriving DecidableEq

structure TransferMessage where
  proof : Bytes
  publicInputs : TransferPublicInputs
  nullifiers : List Nullifier
  outputCommitments : List Commitment
  sanctionsProof : Bytes
  sanctionsPublicInputs : SanctionsPublicInputs
  encryptedOutputs : List Bytes
  deriving DecidableEq

structure UnshieldMessage where
  proof : Bytes
  publicInputs : UnshieldPublicInputs
  nullifier : Nullifier
  recipient : Bytes
  deriving DecidableEq

structure UpdateSanctionsRootMessage where
  newRoot : Bytes32
  deriving DecidableEq

inductive CallMessage where
  | shield (msg : ShieldMessage)
  | transfer (msg : TransferMessage)
  | unshield (msg : UnshieldMessage)
  | updateSanctionsRoot (msg : UpdateSanctionsRootMessage)
  deriving DecidableEq

/-- The transaction a call runs in: its sender and the node's clock, in seconds since the epoch. -/
structure TxContext where
  sender : Bytes
  nowSecs : UInt64
  deriving DecidableEq

namespace ObscuraPrivacy

/-- Storage before any write. -/
def unset : ObscuraPrivacy where
  commitments := []
  merkleRoot := none
  merkleNextIndex := none
  merkleFilledSubtrees := fun _ => none
  merkleRoots := fun _ => none
  merkleRootsCount := none
  nullifiers := fun _ => none
  shieldedSupply := fun _ => none
  complianceTxCount := none
  complianceTotalVolume := none
  sanctionsRoot := none
  sanctionsOracle := none
  encryptedNotes := fun _ => none

def genesis (b : Build) : ObscuraPrivacy :=
  { unset with
    merkleFilledSubtrees := (List.range treeDepth).foldl
      (fun filled level => filled.set level (zeroValue b.sha256 level)) unset.merkleFilledSubtrees
    merkleRoot := some (emptyRoot b.sha256)
    merkleNextIndex := some 0
    merkleRootsCount := some 0
    complianceTxCount := some 0
    complianceTotalVolume := some 0 }

def pushCommitment (commitment : Commitment) (s : ObscuraPrivacy) : ObscuraPrivacy :=
  { s with commitments := s.commitments ++ [commitment] }

/-- The entry of `filled_subtrees` an insertion reads at a level. -/
def filledSubtree (b : Build) (s : ObscuraPrivacy) (level : Nat) : Bytes32 :=
  (s.merkleFilledSubtrees level).getD (zeroValue b.sha256 level)

def insertCommitment (b : Build) (commitment : Commitment) (s : ObscuraPrivacy) :
    Outcome ObscuraPrivacy := do
  let nextIndex := s.merkleNextIndex.getD 0
  ensure (nextIndex.toNat < 2 ^ treeDepth) (.bail "Merkle tree is full")
  let inserted := computeInsert b.sha256 commitment.hash nextIndex (s.filledSubtree b)
  let rootsCount := s.merkleRootsCount.getD 0
  let rootsCount' ← addU64 b rootsCount 1
  let nextIndex' ← addU64 b nextIndex 1
  pure { s with
    merkleFilledSubtrees := storeUpdates s.merkleFilledSubtrees inserted.2
    merkleRoot := some inserted.1
    merkleRoots := s.merkleRoots.set (rootsCount % rootsHistorySize) inserted.1
    merkleRootsCount := some rootsCount'
    merkleNextIndex := some nextIndex' }

def isKnownRoot (root : Bytes32) (s : ObscuraPrivacy) : Bool :=
  let rootsCount := s.merkleRootsCount.getD 0
  if rootsCount = 0 then false
  else (List.range (min rootsCount.toNat rootsHistorySize.toNat)).any fun i =>
    s.merkleRoots (UInt64.ofNat i % rootsHistorySize) == some root

def storeEncryptedNote (commitment : Commitment) (blob : Bytes) (s : ObscuraPrivacy) :
    ObscuraPrivacy :=
  if blob = [] then s
  else { s with
    encryptedNotes := s.encryptedNotes.set ("0x" ++ hexEncode commitment.hash.bytes) blob }

/-- The supply of an asset, absent meaning zero. -/
def supply (s : ObscuraPrivacy) (asset : AssetId) : UInt64 := (s.shieldedSupply asset).getD 0

def setSupply (asset : AssetId) (amount : UInt64) (s : ObscuraPrivacy) : ObscuraPrivacy :=
  { s with shieldedSupply := s.shieldedSupply.set asset amount }

def handleShield (b : Build) (msg : ShieldMessage) (s : ObscuraPrivacy) :
    Outcome ObscuraPrivacy := do
  let commitment ← Commitment.fromNote b.sha256 msg.note
  let s ← insertCommitment b commitment (s.pushCommitment commitment)
  let s := s.storeEncryptedNote commitment msg.encryptedNote
  let total ← addU64 b (s.supply msg.note.assetId) msg.note.amount
  pure (s.setSupply msg.note.assetId total)

def isSpent (s : ObscuraPrivacy) (nullifier : Nullifier) : Bool :=
  (s.nullifiers nullifier).getD false

def markSpent (nullifier : Nullifier) (s : ObscuraPrivacy) : ObscuraPrivacy :=
  { s with nullifiers := s.nullifiers.set nullifier true }

def checkUnspent (s : ObscuraPrivacy) (nullifiers : List Nullifier) : Outcome Unit :=
  ensureAll (fun nullifier => s.isSpent nullifier = false)
    (fun nullifier => .bail ("Note already spent: nullifier " ++ debugBytes nullifier.hash.bytes))
    nullifiers

def markAllSpent (nullifiers : List Nullifier) (s : ObscuraPrivacy) : ObscuraPrivacy :=
  nullifiers.foldl (fun s nullifier => s.markSpent nullifier) s

/-- The output loop of `handle_transfer`; `i` counts the outputs already stored. -/
def storeOutputs (b : Build) (encryptedOutputs : List Bytes) :
    Nat → List Commitment → ObscuraPrivacy → Outcome ObscuraPrivacy
  | _, [], s => pure s
  | i, commitment :: rest, s => do
    let s ← insertCommitment b commitment (s.pushCommitment commitment)
    let s := match encryptedOutputs[i]? with
      | some blob => s.storeEncryptedNote commitment blob
      | none => s
    storeOutputs b encryptedOutputs (i + 1) rest s

/-- The sanctions root in force, absent meaning all zeros. -/
def currentSanctionsRoot (s : ObscuraPrivacy) : Bytes32 := s.sanctionsRoot.getD zeroBytes

/-- The age test on a sanctions proof: a zero timestamp is never too old. -/
def tooOld (nowSecs proofTimestamp : UInt64) : Bool :=
  decide (0 < proofTimestamp) &&
    decide (sanctionsProofMaxAgeSecs < saturatingSub nowSecs proofTimestamp)

/-- The checks of `handle_transfer` before the clock is read. -/
def transferRootChecks (b : Build) (msg : TransferMessage) (s : ObscuraPrivacy) : Outcome Unit := do
  let claimedRoot := msg.publicInputs.merkleRoot
  ensure (claimedRoot = zeroBytes ∨ s.isKnownRoot claimedRoot = true)
    (.bail ("Unknown Merkle root: " ++ hexEncode claimedRoot.bytes ++
      ". Root may be too old or the note was never shielded."))
  verifyTransferProof b msg.proof msg.publicInputs
  ensure (s.currentSanctionsRoot = zeroBytes ∨
      msg.sanctionsPublicInputs.sanctionsRoot = s.currentSanctionsRoot)
    (.bail ("Sanctions proof uses stale root. Expected " ++
      quoted (hexEncode s.currentSanctionsRoot.bytes) ++ ", got " ++
      quoted (hexEncode msg.sanctionsPublicInputs.sanctionsRoot.bytes)))

def checkFreshness (nowSecs : UInt64) (inputs : SanctionsPublicInputs) : Outcome Unit :=
  ensure (tooOld nowSecs inputs.proofTimestamp = false)
    (.bail ("Sanctions proof is too old (" ++
      toString (saturatingSub nowSecs inputs.proofTimestamp).toNat ++ " seconds). Max age is " ++
      toString sanctionsProofMaxAgeSecs.toNat ++ " seconds."))

/-- The compliance counters at the end of `handle_transfer`. -/
def updateCompliance (b : Build) (transferAmount : UInt64) (s : ObscuraPrivacy) :
    Outcome ObscuraPrivacy := do
  let count ← addU64 b (s.complianceTxCount.getD 0) 1
  let volume ← addU64 b (s.complianceTotalVolume.getD 0) transferAmount
  pure { s with complianceTxCount := some count, complianceTotalVolume := some volume }

def finishTransfer (b : Build) (msg : TransferMessage) (s : ObscuraPrivacy) :
    Outcome ObscuraPrivacy := do
  verifySanctionsProof b msg.sanctionsProof msg.sanctionsPublicInputs
  checkUnspent s msg.nullifiers
  let s := s.markAllSpent msg.nullifiers
  let s ← storeOutputs b msg.encryptedOutputs 0 msg.outputCommitments s
  updateCompliance b msg.publicInputs.transferAmount s

/-- `ObscuraPrivacy::handle_transfer`, with the clock reading of `SystemTime::now()`. -/
def handleTransfer (b : Build) (nowSecs : UInt64) (msg : TransferMessage) (s : ObscuraPrivacy) :
    Outcome ObscuraPrivacy := do
  transferRootChecks b msg s
  checkFreshness nowSecs msg.sanctionsPublicInputs
  finishTransfer b msg s

def handleUpdateSanctionsRoot (sender : Bytes) (msg : UpdateSanctionsRootMessage)
    (s : ObscuraPrivacy) : Outcome ObscuraPrivacy := do
  let oracle := s.sanctionsOracle.getD []
  ensure (oracle = [] ∨ sender = oracle)
    (.bail "Only the sanctions oracle may update the sanctions root")
  pure { s with sanctionsRoot := some msg.newRoot }

def handleUnshield (b : Build) (msg : UnshieldMessage) (s : ObscuraPrivacy) :
    Outcome ObscuraPrivacy := do
  verifyUnshieldProof b msg.proof msg.publicInputs
  ensure (s.isSpent msg.nullifier = false) (.bail "Note already spent")
  let s := s.markSpent msg.nullifier
  let asset := msg.publicInputs.assetId
  pure (s.setSupply asset (saturatingSub (s.supply asset) msg.publicInputs.amount))

def call (b : Build) (ctx : TxContext) : CallMessage → ObscuraPrivacy → Outcome ObscuraPrivacy
  | .shield msg => handleShield b msg
  | .transfer msg => handleTransfer b ctx.nowSecs msg
  | .unshield msg => handleUnshield b msg
  | .updateSanctionsRoot msg => handleUpdateSanctionsRoot ctx.sender msg

end ObscuraPrivacy

end ObscuraNetwork
