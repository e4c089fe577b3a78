import ObscuraNetwork.BridgeTypes

namespace ObscuraNetwork

def mockProofPrefix : Bytes := [0x4f, 0x42, 0x53, 0x62, 0x72, 0x69, 0x64, 0x67, 0x65]

def mockHeliosPrefix : Bytes := [0x4f, 0x42, 0x53, 0x68, 0x65, 0x6c, 0x69, 0x6f, 0x73]

/-- `map_err` with a new text; panics pass through. -/
def mapBail {α : Type} (f : String → String) : Outcome α → Outcome α
  | .error (.bail message) => .error (.bail (f message))
  | outcome => outcome

theorem mapBail_noPanic {α : Type} (f : String → String) {x : Outcome α} (hx : NoPanic x) :
    NoPanic (mapBail f x) := by
  unfold mapBail
  split
  · exact noPanic_bail _
  · exact hx

/-- `verify_sp1_proof` of the bridge: not implemented yet. -/
def verifySp1Proof (_proof : Bytes) (_publicInputs : BridgePublicInputs) : Outcome Unit :=
  .error (.bail "Bridge: real SP1 verification not yet implemented. Phase 2 feature.")

def verifyBridgeProof (b : Build) (proof : Bytes) (publicInputs : BridgePublicInputs) :
    Outcome Unit :=
  if mockProofPrefix.isPrefixOf proof then pure ()
  else if b.native then verifySp1Proof proof publicInputs
  else .error (.bail ("Bridge: real proof submitted but sp1 verification not compiled in " ++
    "(missing --features native)"))

theorem verifyBridgeProof_noPanic (b : Build) (proof : Bytes) (inputs : BridgePublicInputs) :
    NoPanic (verifyBridgeProof b proof inputs) := by
  unfold verifyBridgeProof
  split
  · exact noPanic_ok _
  · split
    · exact noPanic_bail _
    · exact noPanic_bail _

/-- `SP1PublicValues::read` of `n` raw bytes. -/
def readBytes (n : Nat) (buffer : Bytes) : Outcome (FixedBytes n × Bytes) :=
  if h : (buffer.take n).length = n then pure (⟨buffer.take n, h⟩, buffer.drop n)
  else .error (.panic "failed to deserialize")

/-- `SP1PublicValues::read` of a `u64`, little-endian. -/
def readU64 (buffer : Bytes) : Outcome (UInt64 × Bytes) := do
  let (raw, rest) ← readBytes 8 buffer
  pure (UInt64.ofNat (raw.bytes.foldr (fun byte acc => byte.toNat + 256 * acc) 0), rest)

/-- The four outputs the Helios check reads from a proof's public values. -/
def readHeliosOutputs (buffer : Bytes) : Outcome HeliosPublicInputs := do
  let (prevRoot, buffer) ← readBytes 32 buffer
  let (newRoot, buffer) ← readBytes 32 buffer
  let (slot, buffer) ← readU64 buffer
  let (blockHash, _) ← readBytes 32 buffer
  pure ⟨prevRoot, newRoot, slot, blockHash⟩

def verifyHeliosSp1Proof (b : Build) (proofBytes : Bytes) (inputs : HeliosPublicInputs) :
    Outcome Unit := do
  match b.heliosElf with
  | none => .error (.bail ("Helios ELF not found at " ++ b.heliosElfPath ++
      ". Build it with: cd crates/provers/sp1/guest-helios && cargo prove build"))
  | some elf =>
    match b.sp1Deserialize proofBytes with
    | none => .error (.bail "Helios: deserialize SP1 proof failed")
    | some proof => do
      ensure (b.sp1Verify elf proof = true)
        (.bail "Helios: SP1 Groth16 proof verification failed")
      let committed ← readHeliosOutputs proof.publicValues
      ensure (committed.prevTrustedRoot = inputs.prevTrustedRoot)
        (.bail ("Helios: proof prev_trusted_root mismatch — expected 0x" ++
          hexEncode inputs.prevTrustedRoot.bytes ++ ", got 0x" ++
          hexEncode committed.prevTrustedRoot.bytes))
      ensure (committed.newBeaconRoot = inputs.newBeaconRoot)
        (.bail ("Helios: proof new_beacon_root mismatch — expected 0x" ++
          hexEncode inputs.newBeaconRoot.bytes ++ ", got 0x" ++
          hexEncode committed.newBeaconRoot.bytes))
      ensure (committed.newSlot = inputs.newSlot)
        (.bail ("Helios: proof new_slot mismatch — expected " ++ toString inputs.newSlot.toNat ++
          ", got " ++ toString committed.newSlot.toNat))
      ensure (committed.executionBlockHash = inputs.executionBlockHash)
        (.bail ("Helios: proof execution_block_hash mismatch — expected 0x" ++
          hexEncode inputs.executionBlockHash.bytes ++ ", got 0x" ++
          hexEncode committed.executionBlockHash.bytes))

def verifyHeliosProof (b : Build) (proof : Bytes) (inputs : HeliosPublicInputs) : Outcome Unit :=
  if mockHeliosPrefix.isPrefixOf proof then pure ()
  else if b.native then verifyHeliosSp1Proof b proof inputs
  else .error (.bail ("Helios: real proof submitted but SP1 verification not compiled in " ++
    "(missing --features native). Use mock proof for testnet."))

end ObscuraNetwork
