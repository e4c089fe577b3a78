import ObscuraNetwork.EthDeposit
import ObscuraNetwork.MptCompleteness
import Mathlib.Data.List.Induction

namespace ObscuraNetwork

/-- The bytes of a number without leading zeros: what Ethereum writes of a scalar. -/
def scalarBytes (n : Nat) : Bytes := (toBeBytes 32 n).dropWhile (· = 0)

/-- An account of the world state with its storage. -/
structure EthAccount where
  nonce : Nat
  balance : Nat
  storage : Trie
  codeHash : Bytes32

/-- What a storage trie holds for a word: nothing for zero, else its bytes without leading zeros. -/
def storedWord (word : Bytes) : Option Bytes :=
  match word.dropWhile (· = 0) with
  | [] => none
  | trimmed => some (rlpEncodeBytes trimmed)

/-- The slot `offset` words after a struct's base. -/
def slotOffset (base : Bytes32) (offset : Nat) : Bytes32 :=
  ⟨toBeBytes 32 (beValue base.bytes + offset), length_toBeBytes 32 _⟩

/-- The words of a `Deposit` in the order of its fields. The last one packs the timestamp, the
lowest bytes, and the status. -/
def depositWords (data : DepositData) : List Bytes :=
  [List.replicate 12 0 ++ data.sender.bytes, data.obscuraRecipient.bytes, wordOfU64 data.amount,
    List.replicate 23 0 ++ [data.status] ++ toBeBytes 8 data.timestamp.toNat]

section World

variable (keccak256 : Bytes → Bytes32)

def EthAccount.encode (account : EthAccount) : Bytes :=
  rlpEncodeList [rlpEncodeBytes (scalarBytes account.nonce),
    rlpEncodeBytes (scalarBytes account.balance),
    rlpEncodeBytes (account.storage.root keccak256).bytes,
    rlpEncodeBytes account.codeHash.bytes]

/-- The slot the relayer asks an EIP-1186 node for: the first word of the struct. -/
def computeDepositSlot (depositId : UInt64) : Bytes32 := keccak256 (slotPreimage depositId)

def accountPath (bridgeContract : Bytes20) : List UInt8 :=
  bytesToNibbles (accountTrieKey keccak256 bridgeContract)

def storagePath (slot : Bytes32) : List UInt8 := bytesToNibbles (storageTrieKey keccak256 slot)

/-- A world state in which the contract's account holds a locked deposit in the layout of its
mapping at slot 3. The contract keeps amounts under 2^40, so they fit the circuit's `u64`. -/
structure GenuineDeposit (state : Trie) (account : EthAccount) (bridgeContract : Bytes20)
    (depositId : UInt64) (data : DepositData) : Prop where
  state_wellFormed : state.WellFormed 64
  storage_wellFormed : account.storage.WellFormed 64
  account_stored : state.lookup (accountPath keccak256 bridgeContract) =
    some (account.encode keccak256)
  words_stored : ∀ (i : Nat) (word : Bytes), (depositWords data)[i]? = some word →
    account.storage.lookup
        (storagePath keccak256 (slotOffset (computeDepositSlot keccak256 depositId) i)) =
      storedWord word
  nonce_lt : account.nonce < 2 ^ 256
  balance_lt : account.balance < 2 ^ 256
  locked : data.status = 1
  positive : 0 < data.amount
  recipient : data.obscuraRecipient ≠ FixedBytes.replicate 32 0
  state_nodes : ∀ node ∈ state.proof keccak256 (accountPath keccak256 bridgeContract),
    node.length < 2 ^ 63
  storage_nodes : ∀ node ∈ account.storage.proof keccak256
    (storagePath keccak256 (computeDepositSlot keccak256 depositId)), node.length < 2 ^ 63

/-- The witness of an honest prover: the header's own state root, the account's own storage root and
the proofs of `eth_getProof` for the relayer's slot. -/
def honestDeposit (state : Trie) (account : EthAccount) (header : EthBlockHeader)
    (beaconBlockRoot : Bytes32) (bridgeContract : Bytes20) (depositId : UInt64)
    (data : DepositData) : BridgeDepositWitness where
  ethBlock := { header with stateRoot := state.root keccak256 }
  beaconBlockRoot := beaconBlockRoot
  bridgeContract := bridgeContract
  accountProof := state.proof keccak256 (accountPath keccak256 bridgeContract)
  storageRoot := account.storage.root keccak256
  depositId := depositId
  storageProof := account.storage.proof keccak256
    (storagePath keccak256 (computeDepositSlot keccak256 depositId))
  depositData := data

end World

theorem length_dropZeros_le (bs : Bytes) : (bs.dropWhile (· = 0)).length ≤ bs.length :=
  (List.dropWhile_suffix _).length_le

theorem length_scalarBytes_le (n : Nat) : (scalarBytes n).length ≤ 32 := by
  have h := length_dropZeros_le (toBeBytes 32 n)
  rwa [length_toBeBytes] at h

theorem scalarBytes_eq_nil {n : Nat} (h : n < 2 ^ 256) : scalarBytes n = [] ↔ n = 0 := by
  constructor
  · intro hnil
    have hvalue := beValue_dropZeros (toBeBytes 32 n)
    rw [beValue_toBeBytes] at hvalue
    have hmod : n % 256 ^ 32 = n := Nat.mod_eq_of_lt (by omega)
    have hzero : beValue ((toBeBytes 32 n).dropWhile (· = 0)) = 0 := by
      rw [show (toBeBytes 32 n).dropWhile (· = 0) = [] from hnil]
      rfl
    omega
  · intro hzero
    subst hzero
    decide

/-- A storage trie never holds a word with its leading zeros, which the circuit's value keeps. -/
theorem storedWord_ne {word : Bytes} (hword : word.length = 32) (data : DepositData) :
    storedWord word ≠ some (encodeDepositStorageValue data) := by
  intro h
  have htrimmed := length_dropZeros_le word
  have hamount := length_wordOfU64 data.amount
  rw [storedWord] at h
  split at h
  next => cases h
  next =>
    have hsame : word.dropWhile (· = 0) = wordOfU64 data.amount :=
      rlpEncodeBytes_inj (by omega) (by omega) (Option.some.inj h)
    have hhead := List.head?_dropWhile_not (fun b : UInt8 => decide (b = 0)) word
    rw [hsame] at hhead
    have hzero : decide ((0 : UInt8) = 0) = false := hhead
    cases hzero

theorem toBeBytes_beValue (bs : Bytes) : toBeBytes bs.length (beValue bs) = bs := by
  induction bs using List.reverseRecOn with
  | nil => rfl
  | append_singleton bs b ih =>
    have hb := b.toNat_lt
    have hhigh : (beValue bs * 256 + b.toNat) / 256 = beValue bs := by omega
    have hlow : UInt8.ofNat (beValue bs * 256 + b.toNat) = b := by
      apply UInt8.toNat_inj.mp
      rw [UInt8.toNat_ofNat']
      omega
    rw [List.length_append, List.length_singleton, beValue_concat, toBeBytes, hhigh, hlow, ih]

theorem slotOffset_zero (base : Bytes32) : slotOffset base 0 = base := by
  apply FixedBytes.ext_bytes
  have hbase := toBeBytes_beValue base.bytes
  rwa [base.length_bytes] at hbase

/-- The strings of an account value. -/
def accountFields (nonce balance : Bytes) (storageRoot codeHash : Bytes32) : List Bytes :=
  [nonce, balance, storageRoot.bytes, codeHash.bytes]

theorem length_accountFields {nonce balance : Bytes} (hnonce : nonce.length ≤ 32)
    (hbalance : balance.length ≤ 32) (storageRoot codeHash : Bytes32) :
    ((accountFields nonce balance storageRoot codeHash).map rlpEncodeBytes).flatten.length + 9 <
      2 ^ 64 := by
  have h₁ : (rlpEncodeBytes nonce).length ≤ nonce.length + 1 := rlpEncodeBytes_length_le (by omega)
  have h₂ : (rlpEncodeBytes balance).length ≤ balance.length + 1 :=
    rlpEncodeBytes_length_le (by omega)
  have h₃ := length_encode_hash storageRoot
  have h₄ := length_encode_hash codeHash
  simp only [accountFields, List.map_cons, List.map_nil, List.flatten_cons, List.flatten_nil,
    List.length_append, List.length_nil]
  omega

/-- The account value has the circuit's fields only for an account that was never used. -/
theorem account_encode_eq {keccak256 : Bytes → Bytes32} {account : EthAccount}
    (hnonce : account.nonce < 2 ^ 256) (hbalance : account.balance < 2 ^ 256) :
    account.encode keccak256 =
        encodeAccountRlp 0 0 (account.storage.root keccak256) (FixedBytes.replicate 32 0) ↔
      account.nonce = 0 ∧ account.balance = 0 ∧ account.codeHash = FixedBytes.replicate 32 0 := by
  constructor
  · intro h
    have hempty : ([] : Bytes).length ≤ 32 := Nat.zero_le 32
    have hgenuine := length_accountFields (length_scalarBytes_le account.nonce)
      (length_scalarBytes_le account.balance) (account.storage.root keccak256) account.codeHash
    have hexpected := length_accountFields hempty hempty (account.storage.root keccak256)
      (FixedBytes.replicate 32 0)
    have hfields := rlpEncodeList_strings_inj hgenuine hexpected h
    simp only [accountFields, List.cons.injEq, and_true, true_and] at hfields
    obtain ⟨h₁, h₂, h₃⟩ := hfields
    exact ⟨(scalarBytes_eq_nil hnonce).mp h₁, (scalarBytes_eq_nil hbalance).mp h₂,
      FixedBytes.ext_bytes h₃⟩
  · intro h
    obtain ⟨h₁, h₂, h₃⟩ := h
    rw [EthAccount.encode, (scalarBytes_eq_nil hnonce).mpr h₁, (scalarBytes_eq_nil hbalance).mpr h₂,
      h₃]
    rfl

section Honest

variable {keccak256 : Bytes → Bytes32} {state : Trie} {account : EthAccount}
  {bridgeContract : Bytes20} {depositId : UInt64} {data : DepositData}

theorem honest_account_check
    (h : GenuineDeposit keccak256 state account bridgeContract depositId data) :
    verifyMptProof keccak256 (state.root keccak256) (accountTrieKey keccak256 bridgeContract)
        (state.proof keccak256 (accountPath keccak256 bridgeContract))
        (encodeAccountRlp 0 0 (account.storage.root keccak256) (FixedBytes.replicate 32 0)) =
      .ok (decide (state.hashedPath keccak256 (accountPath keccak256 bridgeContract) = true ∧
        account.nonce = 0 ∧ account.balance = 0 ∧
        account.codeHash = FixedBytes.replicate 32 0)) := by
  have hstored := h.account_stored
  have hpresent :
      state.lookup (bytesToNibbles (accountTrieKey keccak256 bridgeContract)) ≠ none := by
    intro hnone
    cases hnone.symm.trans hstored
  refine (verifyMptProof_proof h.state_wellFormed _ (Or.inr hpresent) h.state_nodes).trans ?_
  refine congrArg Except.ok (decide_eq_decide.mpr (and_congr_right fun _ => ?_))
  rw [accountPath] at hstored
  rw [hstored, Option.some.injEq, account_encode_eq h.nonce_lt h.balance_lt]

/-- The relayer's slot holds the sender, and the sender's word is not the amount's. -/
theorem honest_storage_check
    (h : GenuineDeposit keccak256 state account bridgeContract depositId data) :
    verifyMptProof keccak256 (account.storage.root keccak256)
        (storageTrieKey keccak256 (depositStorageSlot keccak256 depositId))
        (account.storage.proof keccak256
          (storagePath keccak256 (computeDepositSlot keccak256 depositId)))
        (encodeDepositStorageValue data) = .ok false := by
  have hsender := h.words_stored 0 _ rfl
  rw [slotOffset_zero] at hsender
  have hne : encodeDepositStorageValue data ≠ [] := rlpEncodeBytes_ne_nil (wordOfU64 data.amount)
  have hcheck := verifyMptProof_proof h.storage_wellFormed
    (storageTrieKey keccak256 (depositStorageSlot keccak256 depositId)) (Or.inl hne) h.storage_nodes
  have hword : (List.replicate 12 0 ++ data.sender.bytes).length = 32 := by
    rw [List.length_append, List.length_replicate, data.sender.length_bytes]
  have hlookup : account.storage.lookup
      (bytesToNibbles (storageTrieKey keccak256 (depositStorageSlot keccak256 depositId))) ≠
        some (encodeDepositStorageValue data) := by
    have hstored := storedWord_ne hword data
    rw [← hsender] at hstored
    exact hstored
  rw [decide_eq_false (fun hboth => hlookup hboth.2)] at hcheck
  exact hcheck

end Honest

/-- No genuine deposit is proved, and which check stops its witness. -/
theorem genuine_deposit_refused (keccak256 : Bytes → Bytes32) {state : Trie} {account : EthAccount}
    {bridgeContract : Bytes20} {depositId : UInt64} {data : DepositData}
    (h : GenuineDeposit keccak256 state account bridgeContract depositId data)
    (header : EthBlockHeader) (beaconBlockRoot : Bytes32) :
    depositMain keccak256 (honestDeposit keccak256 state account header beaconBlockRoot
        bridgeContract depositId data) =
      .error (.panic
        (if state.hashedPath keccak256 (accountPath keccak256 bridgeContract) = true ∧
            account.nonce = 0 ∧ account.balance = 0 ∧ account.codeHash = FixedBytes.replicate 32 0
        then "storage proof invalid: deposit not found in bridge storage"
        else "account proof invalid: bridge contract not in state trie")) := by
  have haccount := honest_account_check h
  have hstorage := honest_storage_check h
  rw [depositMain]
  simp only [honestDeposit]
  rw [haccount, ok_bind]
  by_cases hunused : state.hashedPath keccak256 (accountPath keccak256 bridgeContract) = true ∧
      account.nonce = 0 ∧ account.balance = 0 ∧ account.codeHash = FixedBytes.replicate 32 0
  · rw [decide_eq_true hunused, if_pos hunused, hstorage]
    rfl
  · rw [decide_eq_false hunused, if_neg hunused]
    rfl

/-- A trie whose entries part at their first nibble. -/
def fanTrie (entries : List (Bytes32 × Bytes)) : Trie :=
  .branch (fun i =>
    match entries.find? fun entry => (bytesToNibbles entry.1).headD 0 = UInt8.ofNat i.val with
    | some (key, value) => .leaf ((bytesToNibbles key).drop 1) value
    | none => .empty) []

theorem fanTrie_wellFormed (entries : List (Bytes32 × Bytes)) :
    (fanTrie entries).WellFormed 64 := by
  refine .branch [] fun i => ?_
  split
  next key value _ =>
    obtain ⟨hlen, hlow⟩ := bytesToNibbles_spec key
    refine .leaf value ?_ fun x hx => hlow x (List.mem_of_mem_drop hx)
    rw [List.length_drop, hlen]
  next => exact .empty 63

def lockedData : DepositData where
  sender := FixedBytes.replicate 20 0xaa
  obscuraRecipient := FixedBytes.replicate 32 0xbb
  amount := 5000000
  timestamp := 1700000000
  status := 1

/-- The storage of a contract with one deposit, the four words of id 0. -/
def lockedStorage : Trie :=
  fanTrie ((depositWords lockedData).zipIdx.filterMap fun (word, i) =>
    (storedWord word).map fun value =>
      (storageTrieKey keccak256 (slotOffset (computeDepositSlot keccak256 0) i), value))

/-- A deployed contract: its first nonce, some wei and the hash of its code. -/
def lockedAccount : EthAccount where
  nonce := 1
  balance := 7
  storage := lockedStorage
  codeHash := keccak256 [0x60, 0x80]

def lockedState : Trie :=
  fanTrie [(accountTrieKey keccak256 (FixedBytes.replicate 20 1), lockedAccount.encode keccak256)]

def lockedHeader : EthBlockHeader where
  parentHash := FixedBytes.replicate 32 0
  stateRoot := FixedBytes.replicate 32 0
  number := 1
  timestamp := 1700000000
  rlpEncoded := [0xc0]

theorem lockedStorage_words : ∀ (i : Nat) (word : Bytes),
    (depositWords lockedData)[i]? = some word →
    lockedStorage.lookup
        (storagePath keccak256 (slotOffset (computeDepositSlot keccak256 0) i)) =
      storedWord word := by
  have hall : ∀ i : Fin 4, lockedStorage.lookup
      (storagePath keccak256 (slotOffset (computeDepositSlot keccak256 0) i.val)) =
      storedWord ((depositWords lockedData).getD i.val []) := by
    decide +kernel
  intro i word hword
  obtain ⟨hi, rfl⟩ := List.getElem?_eq_some_iff.mp hword
  rw [← List.getD_eq_getElem _ [] hi]
  exact hall ⟨i, hi⟩

theorem lockedDeposit_genuine : GenuineDeposit keccak256 lockedState lockedAccount
    (FixedBytes.replicate 20 1) 0 lockedData where
  state_wellFormed := fanTrie_wellFormed _
  storage_wellFormed := fanTrie_wellFormed _
  account_stored := by decide +kernel
  words_stored := lockedStorage_words
  nonce_lt := by decide
  balance_lt := by decide
  locked := rfl
  positive := by decide
  recipient := by decide
  state_nodes := by decide +kernel
  storage_nodes := by decide +kernel

theorem genuine_deposit_refused_locked : ∃ message,
    depositMain keccak256 (honestDeposit keccak256 lockedState lockedAccount lockedHeader
        (FixedBytes.replicate 32 0) (FixedBytes.replicate 20 1) 0 lockedData) =
      .error (.panic message) :=
  ⟨_, genuine_deposit_refused keccak256 lockedDeposit_genuine lockedHeader _⟩

/-- Five locked USDC: the honest witness already fails the account proof. -/
theorem locked_deposit_unprovable :
    GenuineDeposit keccak256 lockedState lockedAccount (FixedBytes.replicate 20 1) 0 lockedData ∧
      ∀ out, depositMain keccak256 (honestDeposit keccak256 lockedState lockedAccount lockedHeader
        (FixedBytes.replicate 32 0) (FixedBytes.replicate 20 1) 0 lockedData) ≠ .ok out := by
  refine ⟨lockedDeposit_genuine, fun out hout => ?_⟩
  have haccepted := (depositMain_ok.mp hout).1
  have hrefused : verifyMptProof keccak256 (lockedState.root keccak256)
      (accountTrieKey keccak256 (FixedBytes.replicate 20 1))
      (lockedState.proof keccak256 (accountPath keccak256 (FixedBytes.replicate 20 1)))
      (encodeAccountRlp 0 0 (lockedStorage.root keccak256) (FixedBytes.replicate 32 0)) =
        .ok false := by
    decide +kernel
  cases hrefused.symm.trans haccepted.account

end ObscuraNetwork
