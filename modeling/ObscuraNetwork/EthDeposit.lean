import ObscuraNetwork.CollisionFree
import ObscuraNetwork.Keccak
import ObscuraNetwork.MptBinding

namespace ObscuraNetwork

structure EthBlockHeader where
  parentHash : Bytes32
  stateRoot : Bytes32
  number : UInt64
  timestamp : UInt64
  rlpEncoded : Bytes
  deriving DecidableEq

structure DepositData where
  sender : Bytes20
  obscuraRecipient : Bytes32
  amount : UInt64
  timestamp : UInt64
  status : UInt8
  deriving DecidableEq

structure BridgeDepositWitness where
  ethBlock : EthBlockHeader
  beaconBlockRoot : Bytes32
  bridgeContract : Bytes20
  accountProof : List Bytes
  storageRoot : Bytes32
  depositId : UInt64
  storageProof : List Bytes
  depositData : DepositData
  deriving DecidableEq

structure BridgePublicOutputs where
  ethBlockHash : Bytes32
  beaconBlockRoot : Bytes32
  depositId : UInt64
  obscuraRecipient : Bytes32
  amount : UInt64
  bridgeContract : Bytes20
  deriving DecidableEq

/-- A 256-bit big-endian word with a `u64` in its last eight bytes. -/
def wordOfU64 (x : UInt64) : Bytes := List.replicate 24 0 ++ toBeBytes 8 x.toNat

def slotPreimage (depositId : UInt64) : Bytes := wordOfU64 depositId ++ wordOfU64 3

def encodeAccountRlp (nonce balance : Nat) (storageRoot codeHash : Bytes32) : Bytes :=
  rlpEncodeList [rlpEncodeUint nonce, rlpEncodeUint balance, rlpEncodeBytes storageRoot.bytes,
    rlpEncodeBytes codeHash.bytes]

/-- The amount slot only: neither the recipient nor the status is part of the proved value. -/
def encodeDepositStorageValue (data : DepositData) : Bytes := rlpEncodeBytes (wordOfU64 data.amount)

section Circuit

variable (keccak256 : Bytes → Bytes32)

def depositStorageSlot (depositId : UInt64) : Bytes32 := keccak256 (slotPreimage depositId)

def accountTrieKey (address : Bytes20) : Bytes32 := keccak256 address.bytes

def storageTrieKey (slot : Bytes32) : Bytes32 := keccak256 slot.bytes

/-- `main` of the deposit circuit. The account is expected with nonce, balance and code hash zero.
-/
def depositMain (witness : BridgeDepositWitness) : Outcome BridgePublicOutputs := do
  let ethBlockHash := keccak256 witness.ethBlock.rlpEncoded
  let accountKey := accountTrieKey keccak256 witness.bridgeContract
  let expectedAccountRlp := encodeAccountRlp 0 0 witness.storageRoot (FixedBytes.replicate 32 0)
  let accountValid ← verifyMptProof keccak256 witness.ethBlock.stateRoot accountKey
    witness.accountProof expectedAccountRlp
  ensure (accountValid = true)
    (.panic "account proof invalid: bridge contract not in state trie")
  let slot := depositStorageSlot keccak256 witness.depositId
  let storageKey := storageTrieKey keccak256 slot
  let expectedStorageValue := encodeDepositStorageValue witness.depositData
  let storageValid ← verifyMptProof keccak256 witness.storageRoot storageKey witness.storageProof
    expectedStorageValue
  ensure (storageValid = true) (.panic "storage proof invalid: deposit not found in bridge storage")
  ensure (witness.depositData.status = 1)
    (.panic ("assertion `left == right` failed: deposit not locked\n  left: " ++
      toString witness.depositData.status.toNat ++ "\n right: 1"))
  ensure (0 < witness.depositData.amount) (.panic "deposit amount is zero")
  ensure (witness.depositData.obscuraRecipient ≠ FixedBytes.replicate 32 0)
    (.panic "zero obscura recipient")
  pure
    { ethBlockHash
      beaconBlockRoot := witness.beaconBlockRoot
      depositId := witness.depositId
      obscuraRecipient := witness.depositData.obscuraRecipient
      amount := witness.depositData.amount
      bridgeContract := witness.bridgeContract }

/-- The constraints of an accepted run. -/
structure DepositAccepted (witness : BridgeDepositWitness) : Prop where
  account : verifyMptProof keccak256 witness.ethBlock.stateRoot
    (accountTrieKey keccak256 witness.bridgeContract) witness.accountProof
    (encodeAccountRlp 0 0 witness.storageRoot (FixedBytes.replicate 32 0)) = .ok true
  storage : verifyMptProof keccak256 witness.storageRoot
    (storageTrieKey keccak256 (depositStorageSlot keccak256 witness.depositId))
    witness.storageProof (encodeDepositStorageValue witness.depositData) = .ok true
  locked : witness.depositData.status = 1
  positive : 0 < witness.depositData.amount
  recipient : witness.depositData.obscuraRecipient ≠ FixedBytes.replicate 32 0

def BridgeDepositWitness.outputs (witness : BridgeDepositWitness) : BridgePublicOutputs where
  ethBlockHash := keccak256 witness.ethBlock.rlpEncoded
  beaconBlockRoot := witness.beaconBlockRoot
  depositId := witness.depositId
  obscuraRecipient := witness.depositData.obscuraRecipient
  amount := witness.depositData.amount
  bridgeContract := witness.bridgeContract

/-- The strings hashed in a run. -/
def DepositHashes (witness : BridgeDepositWitness) : Set Bytes :=
  {m | m ∈ [witness.ethBlock.rlpEncoded, witness.bridgeContract.bytes,
    slotPreimage witness.depositId, (depositStorageSlot keccak256 witness.depositId).bytes] ++
    witness.accountProof ++ witness.storageProof}

/-- Every two accepted witnesses that commit the block, the contract and the deposit id mint one
amount to one recipient. -/
def DepositBound (ethBlockHash : Bytes32) (bridgeContract : Bytes20) (depositId : UInt64) : Prop :=
  ∀ witness witness' out out', depositMain keccak256 witness = .ok out →
    depositMain keccak256 witness' = .ok out' →
    (out.ethBlockHash = ethBlockHash ∧ out.bridgeContract = bridgeContract ∧
      out.depositId = depositId) →
    (out'.ethBlockHash = ethBlockHash ∧ out'.bridgeContract = bridgeContract ∧
      out'.depositId = depositId) →
    CollisionFreeOn keccak256 (DepositHashes keccak256 witness ∪ DepositHashes keccak256 witness') →
    out.obscuraRecipient = out'.obscuraRecipient ∧ out.amount = out'.amount

/-- A trie of one leaf. -/
def leafNode (key : Bytes32) (value : Bytes) : Bytes :=
  rlpEncodeList ([0x20 :: key.bytes, value].map rlpEncodeBytes)

def forgedStorageLeaf (depositId amount : UInt64) : Bytes :=
  leafNode (storageTrieKey keccak256 (depositStorageSlot keccak256 depositId))
    (rlpEncodeBytes (wordOfU64 amount))

def forgedAccountLeaf (bridgeContract : Bytes20) (depositId amount : UInt64) : Bytes :=
  leafNode (accountTrieKey keccak256 bridgeContract)
    (encodeAccountRlp 0 0 (keccak256 (forgedStorageLeaf keccak256 depositId amount))
      (FixedBytes.replicate 32 0))

/-- A witness for any header, contract, deposit id, recipient and amount: both tries have one leaf,
and the header's state root is simply declared. -/
def forgedDeposit (header : Bytes) (bridgeContract : Bytes20) (depositId : UInt64)
    (recipient : Bytes32) (amount : UInt64) : BridgeDepositWitness where
  ethBlock :=
    { parentHash := FixedBytes.replicate 32 0
      stateRoot := keccak256 (forgedAccountLeaf keccak256 bridgeContract depositId amount)
      number := 0
      timestamp := 0
      rlpEncoded := header }
  beaconBlockRoot := FixedBytes.replicate 32 0
  bridgeContract := bridgeContract
  accountProof := [forgedAccountLeaf keccak256 bridgeContract depositId amount]
  storageRoot := keccak256 (forgedStorageLeaf keccak256 depositId amount)
  depositId := depositId
  storageProof := [forgedStorageLeaf keccak256 depositId amount]
  depositData := ⟨FixedBytes.replicate 20 0, recipient, amount, 0, 1⟩

variable {keccak256}

theorem depositMain_ok {witness : BridgeDepositWitness} {out : BridgePublicOutputs} :
    depositMain keccak256 witness = .ok out ↔
      DepositAccepted keccak256 witness ∧ out = witness.outputs keccak256 := by
  simp only [depositMain, bind_ok, ensure_ok, pure_ok]
  constructor
  · intro h
    obtain ⟨_, haccount, _, rfl, _, hstorage, _, rfl, _, hlocked, _, hpositive, _, hrecipient,
      rfl⟩ :=
      h
    exact ⟨⟨haccount, hstorage, hlocked, hpositive, hrecipient⟩, rfl⟩
  · intro h
    obtain ⟨⟨haccount, hstorage, hlocked, hpositive, hrecipient⟩, rfl⟩ := h
    exact ⟨true, haccount, (), rfl, true, hstorage, (), rfl, (), hlocked, (), hpositive, (),
      hrecipient, rfl⟩

theorem length_encode_key (key : Bytes32) : (rlpEncodeBytes (0x20 :: key.bytes)).length ≤ 34 := by
  have hkey : (0x20 :: key.bytes).length = 33 := by rw [List.length_cons, key.length_bytes]
  have hlen : (rlpEncodeBytes (0x20 :: key.bytes)).length ≤ (0x20 :: key.bytes).length + 1 :=
    rlpEncodeBytes_length_le (by omega)
  omega

theorem length_encode_hash (hash : Bytes32) : (rlpEncodeBytes hash.bytes).length ≤ 33 := by
  have hlen : (rlpEncodeBytes hash.bytes).length ≤ hash.bytes.length + 1 :=
    rlpEncodeBytes_length_le (by rw [hash.length_bytes]; omega)
  rwa [hash.length_bytes] at hlen

/-- A trie of one leaf proves its value, whatever the key. -/
theorem leafNode_proves (key : Bytes32) {value : Bytes} (h : value.length ≤ 1000) :
    verifyMptProof keccak256 (keccak256 (leafNode key value)) key [leafNode key value] value =
      .ok true := by
  have hkey := length_encode_key key
  have hvalue : (rlpEncodeBytes value).length ≤ 9 + value.length := by
    unfold rlpEncodeBytes
    split
    · omega
    · rw [List.length_append]
      exact Nat.add_le_add_right (rlpHeader_length_le (by omega)) _
  have hpayload : ([0x20 :: key.bytes, value].map rlpEncodeBytes).flatten.length + 9 < 2 ^ 64 := by
    simp only [List.map_cons, List.map_nil, List.flatten_cons, List.flatten_nil, List.length_append,
      List.length_nil]
    omega
  have hread : readPath (bytesToNibbles key) 0 (0x20 :: key.bytes) value = .value value := by
    refine readPath_value.mpr ⟨⟨Nat.zero_le _, ?_⟩, rfl⟩
    rw [List.drop_zero]
    rfl
  exact verifyMptProof_true.mpr (.last [] ⟨Or.inl rfl, _, rlpDecodeList_encode hpayload, hread⟩)

theorem length_encodeAccountRlp (storageRoot codeHash : Bytes32) :
    (encodeAccountRlp 0 0 storageRoot codeHash).length ≤ 1000 := by
  have hroot := length_encode_hash storageRoot
  have hcode := length_encode_hash codeHash
  have hzero : (rlpEncodeUint 0).length = 1 := rfl
  have hitems : [rlpEncodeUint 0, rlpEncodeUint 0, rlpEncodeBytes storageRoot.bytes,
      rlpEncodeBytes codeHash.bytes].flatten.length ≤ 68 := by
    simp only [List.flatten_cons, List.flatten_nil, List.length_append, List.length_nil, hzero]
    omega
  rw [encodeAccountRlp, rlpEncodeList, List.length_append]
  have hheader : (rlpHeader 0xc0 0xf7 [rlpEncodeUint 0, rlpEncodeUint 0,
      rlpEncodeBytes storageRoot.bytes, rlpEncodeBytes codeHash.bytes].flatten.length).length ≤ 9 :=
    rlpHeader_length_le (by omega)
  omega

theorem length_wordOfU64 (x : UInt64) : (wordOfU64 x).length = 32 := by
  rw [wordOfU64, List.length_append, List.length_replicate, length_toBeBytes]

variable (keccak256) in
theorem forgedDeposit_accepted (header : Bytes) (bridgeContract : Bytes20) (depositId : UInt64)
    {recipient : Bytes32} {amount : UInt64} (hrecipient : recipient ≠ FixedBytes.replicate 32 0)
    (hamount : 0 < amount) :
    depositMain keccak256
        (forgedDeposit keccak256 header bridgeContract depositId recipient amount) =
      .ok ⟨keccak256 header, FixedBytes.replicate 32 0, depositId, recipient, amount,
        bridgeContract⟩ := by
  refine depositMain_ok.mpr ⟨⟨?_, ?_, rfl, hamount, hrecipient⟩, rfl⟩
  · exact leafNode_proves _ (length_encodeAccountRlp _ _)
  · refine leafNode_proves _ ?_
    have hword := length_wordOfU64 amount
    have hlen : (rlpEncodeBytes (wordOfU64 amount)).length ≤ (wordOfU64 amount).length + 1 :=
      rlpEncodeBytes_length_le (by omega)
    omega

/-- The recipient of an accepted witness can be replaced by any other: nothing that is hashed
depends on it. -/
theorem redirected_accepted {witness : BridgeDepositWitness} {out : BridgePublicOutputs}
    (h : depositMain keccak256 witness = .ok out) :
    ∃ witness' out', depositMain keccak256 witness' = .ok out' ∧
      (out'.ethBlockHash = out.ethBlockHash ∧ out'.bridgeContract = out.bridgeContract ∧
        out'.depositId = out.depositId) ∧
      DepositHashes keccak256 witness' = DepositHashes keccak256 witness ∧
      out.obscuraRecipient ≠ out'.obscuraRecipient := by
  obtain ⟨haccepted, rfl⟩ := depositMain_ok.mp h
  obtain ⟨other, hother, hne⟩ : ∃ other : Bytes32, other ≠ FixedBytes.replicate 32 0 ∧
      witness.depositData.obscuraRecipient ≠ other := by
    by_cases hone : witness.depositData.obscuraRecipient = FixedBytes.replicate 32 1
    · exact ⟨FixedBytes.replicate 32 2, by decide, hone ▸ by decide⟩
    · exact ⟨FixedBytes.replicate 32 1, by decide, hone⟩
  let witness' : BridgeDepositWitness :=
    { witness with depositData := { witness.depositData with obscuraRecipient := other } }
  have haccepted' : DepositAccepted keccak256 witness' :=
    { account := haccepted.account
      storage := haccepted.storage
      locked := haccepted.locked
      positive := haccepted.positive
      recipient := hother }
  exact ⟨witness', _, depositMain_ok.mpr ⟨haccepted', rfl⟩, ⟨rfl, rfl, rfl⟩, rfl, hne⟩

end Circuit

/-- No block fixes a deposit: every header, contract and deposit id are committed with any recipient
and amount, and no accepted witness is the only one for what it commits. -/
theorem deposit_never_bound (keccak256 : Bytes → Bytes32) :
    (∀ header bridgeContract depositId recipient amount,
      recipient ≠ FixedBytes.replicate 32 0 → 0 < amount →
      ∃ witness out, depositMain keccak256 witness = .ok out ∧
        out.ethBlockHash = keccak256 header ∧ out.bridgeContract = bridgeContract ∧
        out.depositId = depositId ∧ out.obscuraRecipient = recipient ∧ out.amount = amount) ∧
    ∀ witness out, depositMain keccak256 witness = .ok out →
      CollisionFreeOn keccak256 (DepositHashes keccak256 witness) →
      ¬DepositBound keccak256 out.ethBlockHash out.bridgeContract out.depositId := by
  constructor
  · intro header bridgeContract depositId recipient amount hrecipient hamount
    exact ⟨_, _, forgedDeposit_accepted keccak256 header bridgeContract depositId hrecipient
      hamount,
      rfl, rfl, rfl, rfl, rfl⟩
  · intro witness out h cf bound
    obtain ⟨witness', out', h', hsame, hhashes, hne⟩ := redirected_accepted h
    have hcf : CollisionFreeOn keccak256
        (DepositHashes keccak256 witness ∪ DepositHashes keccak256 witness') := by
      rw [hhashes, Set.union_self]
      exact cf
    exact hne (bound witness witness' out out' h h' ⟨rfl, rfl, rfl⟩ hsame hcf).1

/-- Two deposits of one block, contract and id, to different recipients and of different amounts. -/
def mintedDeposit (byte : UInt8) : BridgeDepositWitness :=
  forgedDeposit keccak256 [0xc0] (FixedBytes.replicate 20 1) 7 (FixedBytes.replicate 32 byte)
    (UInt64.ofNat byte.toNat)

def mintedStrings : List Bytes :=
  ([mintedDeposit 1, mintedDeposit 2].flatMap fun witness =>
    [witness.ethBlock.rlpEncoded, witness.bridgeContract.bytes, slotPreimage witness.depositId,
      (depositStorageSlot keccak256 witness.depositId).bytes] ++
    witness.accountProof ++ witness.storageProof).dedup

theorem mintedStrings_distinct : (mintedStrings.map keccak256).Nodup := by decide +kernel

theorem mintedStrings_cover :
    ∀ m ∈ DepositHashes keccak256 (mintedDeposit 1) ∪ DepositHashes keccak256 (mintedDeposit 2),
      m ∈ mintedStrings := by
  intro m hm
  rw [mintedStrings, List.mem_dedup, List.mem_flatMap]
  rcases hm with hm | hm
  · exact ⟨mintedDeposit 1, by simp, hm⟩
  · exact ⟨mintedDeposit 2, by simp, hm⟩

theorem block_mints_two_ways :
    ∃ out out', depositMain keccak256 (mintedDeposit 1) = .ok out ∧
      depositMain keccak256 (mintedDeposit 2) = .ok out' ∧
      out.ethBlockHash = out'.ethBlockHash ∧ out.bridgeContract = out'.bridgeContract ∧
      out.depositId = out'.depositId ∧
      CollisionFreeOn keccak256
        (DepositHashes keccak256 (mintedDeposit 1) ∪ DepositHashes keccak256 (mintedDeposit 2)) ∧
      ¬(out.obscuraRecipient = out'.obscuraRecipient ∧ out.amount = out'.amount) := by
  have hrecipient : FixedBytes.replicate 32 1 ≠ FixedBytes.replicate 32 0 := by decide
  have hrecipient' : FixedBytes.replicate 32 2 ≠ FixedBytes.replicate 32 0 := by decide
  have h := forgedDeposit_accepted keccak256 [0xc0] (FixedBytes.replicate 20 1) 7 hrecipient
    (show (0 : UInt64) < 1 by decide)
  have h' := forgedDeposit_accepted keccak256 [0xc0] (FixedBytes.replicate 20 1) 7 hrecipient'
    (show (0 : UInt64) < 2 by decide)
  refine ⟨_, _, h, h', rfl, rfl, rfl, ?_, fun hsame => absurd hsame.2 (by decide)⟩
  exact collisionFreeOn_of_nodup mintedStrings_cover mintedStrings_distinct

end ObscuraNetwork
