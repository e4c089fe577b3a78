import ObscuraNetwork.FixedBytes
import ObscuraNetwork.PerfectTree
import ObscuraNetwork.IncrementalTree
import ObscuraNetwork.Sha256
import ObscuraNetwork.RollbackMachine
import ObscuraNetwork.CollisionFree
import ObscuraNetwork.BinarySearch
import ObscuraNetwork.Outcome
import ObscuraNetwork.Build
import ObscuraNetwork.PrivacyTypes
import ObscuraNetwork.Merkle
import ObscuraNetwork.MerkleRoots
import ObscuraNetwork.ZkVerify
import ObscuraNetwork.PrivacyModule
import ObscuraNetwork.PrivacyEffects
import ObscuraNetwork.BridgeTypes
import ObscuraNetwork.BridgeVerify
import ObscuraNetwork.BridgeModule
import ObscuraNetwork.Runtime
import ObscuraNetwork.TreeInvariant
import ObscuraNetwork.GuestPrivacy
import ObscuraNetwork.InclusionSoundness
import ObscuraNetwork.PlantedLeaf
import ObscuraNetwork.SpendingKeys
import ObscuraNetwork.NullifierSet
import ObscuraNetwork.ProofBinding
import ObscuraNetwork.WallClock
import ObscuraNetwork.UnshieldMembership
import ObscuraNetwork.TreeCapacity
import ObscuraNetwork.PoolAccounting
import ObscuraNetwork.AccountingSteps
import ObscuraNetwork.AccountingRuns
import ObscuraNetwork.ExactPool
import ObscuraNetwork.SanctionsCircuit
import ObscuraNetwork.SanctionsOracle
import ObscuraNetwork.SanctionsTree
import ObscuraNetwork.SanctionsSoundness
import ObscuraNetwork.SanctionsCompleteness
import ObscuraNetwork.BridgeKeys
import ObscuraNetwork.BridgeEffects
import ObscuraNetwork.BridgeLedger
import ObscuraNetwork.HeliosChain
import ObscuraNetwork.UsdcBacking
import ObscuraNetwork.DepositLeaf
import ObscuraNetwork.HonestTransfer
import ObscuraNetwork.Ssz
import ObscuraNetwork.HeliosStep
import ObscuraNetwork.HeliosBinding
import ObscuraNetwork.Bincode
import ObscuraNetwork.CombinedCircuit
import ObscuraNetwork.RecipientLink
import ObscuraNetwork.Keccak
import ObscuraNetwork.Rlp
import ObscuraNetwork.MptProof
import ObscuraNetwork.MptBinding
import ObscuraNetwork.EthDeposit
import ObscuraNetwork.BeaconText
import ObscuraNetwork.PayloadRoot
import ObscuraNetwork.HeliosRelayer
import ObscuraNetwork.UpdateText
import ObscuraNetwork.HeliosAgreement
import ObscuraNetwork.KnownRoots
import ObscuraNetwork.TransferGate
import ObscuraNetwork.OracleAuthority
import ObscuraNetwork.MockProofs
import ObscuraNetwork.ConfigChange
import ObscuraNetwork.Withdrawability
import ObscuraNetwork.PatriciaTrie
import ObscuraNetwork.MptCompleteness
import ObscuraNetwork.GenuineDeposit
import ObscuraNetwork.BridgeContract
import ObscuraNetwork.BridgeSolvency
import ObscuraNetwork.BridgeLogs
import ObscuraNetwork.DepositScan
import ObscuraNetwork.AtMostOnce
import ObscuraNetwork.VaultRelayer
import ObscuraNetwork.ReleaseOnce
import ObscuraNetwork.AutoRelayer
import ObscuraNetwork.NoDepositLost
import ObscuraNetwork.Quorum
import ObscuraNetwork.SignerSet
import ObscuraNetwork.MultisigRelease
import ObscuraNetwork.ReleaseReplay
import ObscuraNetwork.DwellTime
import ObscuraNetwork.Billing
import ObscuraNetwork.SubscriptionTime
import ObscuraNetwork.Serde
import ObscuraNetwork.WitnessFormat
import ObscuraNetwork.RootHistory
import ObscuraNetwork.InsertedLeaves
import ObscuraNetwork.EncryptedNotes
import ObscuraNetwork.RlpRoundTrip
import ObscuraNetwork.RlpSafety
import ObscuraNetwork.SszBranches
import ObscuraNetwork.PayloadBinding
import ObscuraNetwork.HexText
import ObscuraNetwork.Participation
import ObscuraNetwork.StorageLayout
import ObscuraNetwork.DepositSlots
import ObscuraNetwork.Utf8Text
import ObscuraNetwork.SdnScanner
import ObscuraNetwork.SdnAddresses
import ObscuraNetwork.OracleRefresh
import ObscuraNetwork.NoteCipher
import ObscuraNetwork.Keystream
import ObscuraNetwork.Curve25519
import ObscuraNetwork.NoteEncryption
import ObscuraNetwork.EncryptedNoteCodec
import ObscuraNetwork.Conservation
import ObscuraNetwork.ObscuraToken
import ObscuraNetwork.TokenConservation
import ObscuraNetwork.Draining
import ObscuraNetwork.RemainingCapacity
import ObscuraNetwork.ComplianceCircuit
import ObscuraNetwork.ComplianceProof
import ObscuraNetwork.OutcomeRules
import ObscuraNetwork.NodeJson
import ObscuraNetwork.HexWords
import ObscuraNetwork.DepositParsing
import ObscuraNetwork.OracleServer
import ObscuraNetwork.WithdrawServer
import ObscuraNetwork.GenuineClaims
import ObscuraNetwork.BridgePipeline
import ObscuraNetwork.PipelineRuns
import ObscuraNetwork.AggregatedProof
import ObscuraNetwork.NoteLedger
import ObscuraNetwork.PendingSpend
import ObscuraNetwork.PoolBalance
import ObscuraNetwork.WalletAccounts
import ObscuraNetwork.SanctionsEnforced
import ObscuraNetwork.SdkText
import ObscuraNetwork.SdkNotes
import ObscuraNetwork.SdkTransfer
import ObscuraNetwork.NoteDelivery
import ObscuraNetwork.UndisclosedRuns
import ObscuraNetwork.BillingLog
import ObscuraNetwork.PlainPool
import ObscuraNetwork.ProofReplies
