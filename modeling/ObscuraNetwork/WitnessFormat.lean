import ObscuraNetwork.HeliosStep
import ObscuraNetwork.Serde

namespace ObscuraNetwork

section Host

open SerdeValue

/-- The derived `Serialize`. -/
def BeaconBlockHeader.serialize (h : BeaconBlockHeader) : SerdeValue :=
  .struct "BeaconBlockHeader" [
    ("slot", .u64 h.slot),
    ("proposer_index", .u64 h.proposerIndex),
    ("parent_root", byteArray h.parentRoot),
    ("state_root", byteArray h.stateRoot),
    ("body_root", byteArray h.bodyRoot)]

/-- `SerBytes`: a slice is written as a tuple of its bytes. -/
def serBytes (bs : Bytes) : SerdeValue := .tuple (bs.map .u8)

def Branch.serialize {n : Nat} (branch : Branch n) : SerdeValue := .tuple (branch.1.map byteArray)

/-- The `Serialize` of the host's witness, which is written by hand. -/
def HeliosWitness.serialize (w : HeliosWitness) : SerdeValue :=
  .struct "HeliosWitness" [
    ("prev_trusted_root", byteArray w.prevTrustedRoot),
    ("attested_header", w.attestedHeader.serialize),
    ("finalized_header", w.finalizedHeader.serialize),
    ("finality_branch", Branch.serialize w.finalityBranch),
    ("sync_committee_participation", .u16 w.syncCommitteeParticipation),
    ("sync_aggregate_signature", serBytes w.syncAggregateSignature.bytes),
    ("sync_committee_pubkey", serBytes w.syncCommitteePubkey.bytes),
    ("fork_version", byteArray w.forkVersion),
    ("genesis_validators_root", byteArray w.genesisValidatorsRoot),
    ("execution_payload_root", byteArray w.executionPayloadRoot),
    ("body_to_exec_branch", Branch.serialize w.bodyToExecBranch),
    ("execution_block_hash", byteArray w.executionBlockHash),
    ("exec_to_hash_branch", Branch.serialize w.execToHashBranch)]

end Host

section Guest

/-- The fields of the guest's `BeaconBlockHeader`, in the order of its declaration. -/
def beaconBlockHeaderCodec : Codec BeaconBlockHeader :=
  Codec.struct (.pair .u64 (.pair .u64 (.pair (.array 32) (.pair (.array 32) (.array 32)))))
    (fun (slot, proposerIndex, parentRoot, stateRoot, bodyRoot) =>
      ⟨slot, proposerIndex, parentRoot, stateRoot, bodyRoot⟩)
    (fun h => (h.slot, h.proposerIndex, h.parentRoot, h.stateRoot, h.bodyRoot))
    fun _ => rfl

def branchCodec (n : Nat) : Codec (Branch n) := Codec.tuple n (.array 32)

/-- The fields of the guest's `HeliosWitness`, in the order of its declaration. -/
def heliosWitnessCodec : Codec HeliosWitness :=
  Codec.struct (.pair (.array 32) (.pair beaconBlockHeaderCodec (.pair beaconBlockHeaderCodec
      (.pair (branchCodec 6) (.pair .u16 (.pair (.array 96) (.pair (.array 48) (.pair (.array 4)
        (.pair (.array 32) (.pair (.array 32) (.pair (branchCodec 4) (.pair (.array 32)
          (branchCodec 5)))))))))))))
    (fun (prevTrustedRoot, attestedHeader, finalizedHeader, finalityBranch,
        syncCommitteeParticipation, syncAggregateSignature, syncCommitteePubkey, forkVersion,
        genesisValidatorsRoot, executionPayloadRoot, bodyToExecBranch, executionBlockHash,
        execToHashBranch) =>
      ⟨prevTrustedRoot, attestedHeader, finalizedHeader, finalityBranch, syncCommitteeParticipation,
        syncAggregateSignature, syncCommitteePubkey, forkVersion, genesisValidatorsRoot,
        executionPayloadRoot, bodyToExecBranch, executionBlockHash, execToHashBranch⟩)
    (fun w => (w.prevTrustedRoot, w.attestedHeader, w.finalizedHeader, w.finalityBranch,
      w.syncCommitteeParticipation, w.syncAggregateSignature, w.syncCommitteePubkey, w.forkVersion,
      w.genesisValidatorsRoot, w.executionPayloadRoot, w.bodyToExecBranch, w.executionBlockHash,
      w.execToHashBranch))
    fun _ => rfl

end Guest

section Agreement

theorem bincode_header (h : BeaconBlockHeader) :
    h.serialize.bincode = beaconBlockHeaderCodec.encode h := by
  simp only [BeaconBlockHeader.serialize, SerdeValue.bincode, SerdeValue.bincodeFields,
    SerdeValue.bincode_byteArray, List.append_nil]
  rfl

theorem bincode_serBytes {n : Nat} (x : FixedBytes n) :
    (serBytes x.bytes).bincode = (Codec.array n).encode x := SerdeValue.bincode_bytes x.bytes

theorem bincode_branch {n : Nat} (branch : Branch n) :
    (Branch.serialize branch).bincode = (branchCodec n).encode branch := by
  rw [Branch.serialize, SerdeValue.bincode, SerdeValue.bincodeElements_map]
  exact List.flatMap_congr fun node _ => SerdeValue.bincode_byteArray node

/-- The bytes of the hand-written serializer are those of the guest's layout. -/
theorem bincode_heliosWitness (w : HeliosWitness) :
    w.serialize.bincode = heliosWitnessCodec.encode w := by
  simp only [HeliosWitness.serialize, SerdeValue.bincode, SerdeValue.bincodeFields,
    SerdeValue.bincode_byteArray, bincode_header, bincode_serBytes, bincode_branch, List.append_nil]
  rfl

theorem heliosWitness_fits (w : HeliosWitness) : heliosWitnessCodec.Fits w := by
  have hbranch : ∀ {n : Nat} (branch : Branch n), (branchCodec n).Fits branch :=
    fun _ _ _ => trivial
  have hheader : ∀ h : BeaconBlockHeader, beaconBlockHeaderCodec.Fits h :=
    fun _ => ⟨trivial, trivial, trivial, trivial, trivial⟩
  exact ⟨trivial, hheader _, hheader _, hbranch _, trivial, trivial, trivial, trivial, trivial,
    trivial, hbranch _, trivial, hbranch _⟩

end Agreement

/-- The guest reads back the witness that the host has written, and reads all of it. -/
theorem guest_reads_witness (w : HeliosWitness) :
    heliosWitnessCodec.decode w.serialize.bincode = some (w, []) := by
  have hread := heliosWitnessCodec.decode_encode (heliosWitness_fits w) []
  rw [List.append_nil] at hread
  rw [bincode_heliosWitness]
  exact hread

end ObscuraNetwork
