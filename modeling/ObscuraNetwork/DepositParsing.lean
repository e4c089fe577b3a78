import ObscuraNetwork.HexWords
import ObscuraNetwork.NodeJson

namespace ObscuraNetwork

namespace LogJson

/-- The topic at a place writes out a word. -/
def TopicSpells (log : LogJson) (i : Nat) (word : Bytes) : Prop :=
  ∃ topics text, log.topics = some topics ∧ topics[i]? = some (some text) ∧
    EthClient.Spells text word

def DataSpells (log : LogJson) (bytes : Bytes) : Prop :=
  ∃ text, log.data = some text ∧ EthClient.Spells text bytes

/-- The deposit is what the indexed topics and the first data word stand for. -/
structure ExactWords (log : LogJson) (l : EthLog) : Prop where
  depositId : ∃ word, log.TopicSpells 1 word ∧ word.length = 32 ∧ beValue word = l.depositId.toNat
  sender : log.TopicSpells 2 (BridgeEvent.addressWord l.sender)
  obscuraRecipient : log.TopicSpells 3 l.obscuraRecipient.bytes
  amount : ∃ bytes, log.DataSpells bytes ∧ 32 ≤ bytes.length ∧
    beValue (bytes.take 32) = l.amount.toNat

/-- The fields behind the words are those of the deposit. -/
structure RestIs (log : LogJson) (l : EthLog) : Prop where
  blockNumber : EthClient.hexToU64 (log.blockNumber.getD "0x0") = .ok l.blockNumber
  blockHash : EthClient.Spells (log.blockHash.getD "") l.blockHash.bytes
  txHash : EthClient.Spells (log.transactionHash.getD "") l.txHash.bytes
  logIndex : EthClient.hexToU64 (log.logIndex.getD "0x0") = .ok l.logIndex

/-- A well-formed log of this deposit. -/
structure WellFormed (log : LogJson) (l : EthLog) : Prop where
  words : log.ExactWords l
  rest : log.RestIs l

/-- What the parser takes for a topic. -/
def topicAt (topics : List (Option String)) (i : Nat) : String := (topics[i]?.join).getD ""

/-- The first two indexed topics are whole words, an address in the second, and the first data word
is below `2 ^ 64`. -/
structure Padded (log : LogJson) : Prop where
  depositId : ∃ word, log.TopicSpells 1 word ∧ word.length = 32
  sender : ∃ address, log.TopicSpells 2 (BridgeEvent.addressWord address)
  amount : ∃ bytes, log.DataSpells bytes ∧ bytes.take 24 = List.replicate 24 0

def RestParses (log : LogJson) : Prop := ∃ l, log.RestIs l

/-- Every topic and the data are long enough where the parser gets to them, and a log that parses
to its end is padded. -/
def Clean (log : LogJson) : Prop :=
  ∀ topics, log.topics = some topics →
    1 < topics.length ∧ ((∃ depositId, EthClient.hexToU64 (topicAt topics 1) = .ok depositId) →
    2 < topics.length ∧ ((∃ bytes, EthClient.Spells (topicAt topics 2) bytes ∧
      20 ≤ bytes.length) →
    3 < topics.length ∧ ∀ recipient : Bytes32,
      EthClient.Spells (topicAt topics 3) recipient.bytes →
    ∀ data, EthClient.Spells (log.data.getD "0x") data →
    32 ≤ data.length ∧ (log.RestParses → log.Padded)))

end LogJson

namespace EthClient

open LogJson

variable {b : Build} {log : LogJson}

section Rules

variable {Q : String → Prop}

theorem returns_topicText {topics : List (Option String)} {i : Nat} :
    Returns (topicText topics i) Q ↔ i < topics.length ∧ Q (topicAt topics i) := by
  unfold topicText topicAt
  cases h : topics[i]? with
  | some text =>
    have hi := (List.getElem?_eq_some_iff.mp h).1
    exact returns_ok.trans (and_iff_right hi).symm
  | none =>
    have hi := List.getElem?_eq_none_iff.mp h
    exact iff_of_false not_returns_panic fun hinside => by omega

theorem returns_slice {data : Bytes} {R : Bytes → Prop} :
    Returns (slice data 24 32) R ↔ 32 ≤ data.length ∧ R ((data.drop 24).take 8) := by
  by_cases h : 32 ≤ data.length
  · have hslice : slice data 24 32 = .ok ((data.drop 24).take 8) :=
      slice_ok.mpr ⟨by omega, h, rfl⟩
    rw [hslice, returns_ok, and_iff_right h]
  · refine iff_of_false ?_ fun hinside => h hinside.1
    unfold slice
    rw [if_neg (by omega), if_pos (by omega)]
    exact not_returns_panic

end Rules

section Words

variable {topics : List (Option String)} {data : Bytes} {l : EthLog}

theorem topicAt_of_spells {i : Nat} {word : Bytes} (htopics : log.topics = some topics)
    (h : log.TopicSpells i word) : Spells (topicAt topics i) word := by
  obtain ⟨topics', text, htopics', htext, hspells⟩ := h
  cases Option.some.inj (htopics.symm.trans htopics')
  rw [topicAt, htext]
  exact hspells

/-- A text that a word was read from is there. -/
theorem spells_of_topicAt {i : Nat} {word : Bytes} (htopics : log.topics = some topics)
    (hne : word ≠ []) (h : Spells (topicAt topics i) word) : log.TopicSpells i word := by
  cases htext : topics[i]?.join with
  | some text =>
    rw [topicAt, htext] at h
    exact ⟨topics, text, htopics, Option.join_eq_some_iff.mp htext, h⟩
  | none =>
    rw [topicAt, htext] at h
    have hempty : Spells "" [] := rfl
    exact absurd (h.unique hempty) hne

theorem data_of_spells {bytes : Bytes} (h : log.DataSpells bytes)
    (hdata : Spells (log.data.getD "0x") data) : data = bytes := by
  obtain ⟨text, htext, hspells⟩ := h
  rw [htext] at hdata
  exact hdata.unique hspells

theorem beValue_first_word (h : 32 ≤ data.length) :
    beValue (data.take 32) =
      beValue (data.take 24) * 256 ^ 8 + beValue ((data.drop 24).take 8) := by
  have hsplit : data.take (24 + 8) = data.take 24 ++ (data.drop 24).take 8 := List.take_add
  have hlen : ((data.drop 24).take 8).length = 8 := by
    rw [List.length_take, List.length_drop]
    omega
  rw [show 32 = 24 + 8 from rfl, hsplit, beValue_append, hlen]

/-- Of a log with these words the parser reads what they stand for exactly when they are padded. -/
theorem exactWords_iff (htopics : log.topics = some topics)
    (hid : hexToU64 (topicAt topics 1) = .ok l.depositId)
    (hsender : hexToAddress b (topicAt topics 2) = .ok l.sender)
    (hrecipient : Spells (topicAt topics 3) l.obscuraRecipient.bytes)
    (hdata : Spells (log.data.getD "0x") data) (hlen : 32 ≤ data.length)
    (hamount : l.amount = UInt64.ofNat (beValue ((data.drop 24).take 8))) :
    log.ExactWords l ↔ log.Padded := by
  have hlow := beValue_lt ((data.drop 24).take 8)
  have hlow8 : ((data.drop 24).take 8).length = 8 := by
    rw [List.length_take, List.length_drop]
    omega
  rw [hlow8] at hlow
  have hread : l.amount.toNat = beValue ((data.drop 24).take 8) := by
    rw [hamount, UInt64.toNat_ofNat']
    omega
  have hfirst := beValue_first_word hlen
  constructor
  · intro h
    obtain ⟨word, hword, hword32, _⟩ := h.depositId
    obtain ⟨bytes, hbytes, _, hvalue⟩ := h.amount
    refine ⟨⟨word, hword, hword32⟩, ⟨l.sender, h.sender⟩, bytes, hbytes, ?_⟩
    rw [← data_of_spells hbytes hdata] at hvalue ⊢
    have hzero : beValue (data.take 24) = 0 := by omega
    have hzeros := beValue_eq_zero hzero
    rw [List.length_take_of_le (by omega)] at hzeros
    exact hzeros
  · intro h
    obtain ⟨word, hword, hword32⟩ := h.depositId
    obtain ⟨address, haddress⟩ := h.sender
    obtain ⟨bytes, hbytes, hzeros⟩ := h.amount
    have hne : word ≠ [] := List.ne_nil_of_length_eq_add_one hword32
    have hvalue := (hexToU64_word (topicAt_of_spells htopics hword) hne).mp hid
    have hsame := (hexToAddress_word (topicAt_of_spells htopics haddress)).mp hsender
    have hrecipient_ne : l.obscuraRecipient.bytes ≠ [] :=
      List.ne_nil_of_length_eq_add_one l.obscuraRecipient.size
    refine ⟨⟨word, hword, hword32, hvalue⟩, ?_, spells_of_topicAt htopics hrecipient_ne hrecipient,
      bytes, hbytes, ?_, ?_⟩
    · rw [hsame]
      exact haddress
    · rw [← data_of_spells hbytes hdata]
      exact hlen
    · rw [← data_of_spells hbytes hdata] at hzeros ⊢
      rw [hfirst, hzeros, beValue_replicate_zero, hread]
      omega

end Words

section Parsing

/-- The parser does not panic, and what it reads is exact. -/
theorem returns_parseDepositLog_iff :
    Returns (parseDepositLog b log) log.ExactWords ↔ log.Clean := by
  unfold parseDepositLog Clean
  cases htopics : log.topics with
  | none => exact iff_of_true returns_bail fun topics h => by cases h
  | some topics =>
    simp only [pure_bind, returns_bind, returns_topicText, returns_slice,
      returns_of_noPanic (noPanic_hexToU64 _), returns_of_noPanic (noPanic_hexToAddress b _),
      returns_of_noPanic (noPanic_hexToBytes32 b _), returns_of_noPanic (noPanic_hexDecode b _)]
    simp only [Option.some.injEq, forall_eq', ← hexToAddress_some b, forall_exists_index,
      hexToBytes32_ok, hexDecode_ok]
    refine and_congr_right fun _ => forall₂_congr fun depositId hid => and_congr_right fun _ =>
      forall₂_congr fun sender hsender => and_congr_right fun _ =>
      forall₂_congr fun recipient hrecipient => forall₂_congr fun data hdata =>
      and_congr_right fun hlen => ?_
    constructor
    · rintro h ⟨l, hrest⟩
      have hexact := returns_ok.mp (h _ hrest.blockNumber _ hrest.blockHash _ hrest.txHash _
        hrest.logIndex)
      exact (exactWords_iff htopics hid hsender hrecipient hdata hlen rfl).mp hexact
    · intro h n hn hash hhash hash' hhash' n' hn'
      have hpadded := h ⟨⟨n, hash, hash', n', depositId, sender, recipient, 0⟩, hn, hhash, hhash',
        hn'⟩
      refine returns_ok.mpr ?_
      exact (exactWords_iff htopics hid hsender hrecipient hdata hlen rfl).mpr hpadded

theorem topicText_inside {topics : List (Option String)} {i : Nat} (hi : i < topics.length) :
    topicText topics i = .ok (topicAt topics i) := by
  unfold topicText topicAt
  rw [List.getElem?_eq_getElem hi]
  rfl

/-- A log of which every part that is read parses. -/
theorem parseDepositLog_ok {topics : List (Option String)} {data : Bytes} {l : EthLog}
    (htopics : log.topics = some topics) (hinside : 3 < topics.length)
    (hid : hexToU64 (topicAt topics 1) = .ok l.depositId)
    (hsender : hexToAddress b (topicAt topics 2) = .ok l.sender)
    (hrecipient : Spells (topicAt topics 3) l.obscuraRecipient.bytes)
    (hdata : Spells (log.data.getD "0x") data) (hlen : 32 ≤ data.length)
    (hamount : UInt64.ofNat (beValue ((data.drop 24).take 8)) = l.amount)
    (hrest : log.RestIs l) : parseDepositLog b log = .ok l := by
  have hslice : slice data 24 32 = .ok ((data.drop 24).take 8) :=
    slice_ok.mpr ⟨by omega, hlen, rfl⟩
  have h1 : 1 < topics.length := by omega
  have h2 : 2 < topics.length := by omega
  have hrecipient' := (hexToBytes32_ok (b := b)).mpr hrecipient
  have hdata' := (hexDecode_ok (b := b)).mpr hdata
  have hhash := (hexToBytes32_ok (b := b)).mpr hrest.blockHash
  have htxHash := (hexToBytes32_ok (b := b)).mpr hrest.txHash
  unfold parseDepositLog
  simp only [htopics, pure_bind, topicText_inside h1, topicText_inside h2,
    topicText_inside hinside, ok_bind, hid, hsender, hrecipient', hdata', hslice,
    hamount, hrest.blockNumber, hhash, htxHash, hrest.logIndex]
  rfl

/-- A well-formed log is parsed to its deposit. -/
theorem parseDepositLog_wellFormed {l : EthLog} (h : log.WellFormed l) :
    parseDepositLog b log = .ok l := by
  obtain ⟨word, hword, hword32, hvalue⟩ := h.words.depositId
  have hrecipient := h.words.obscuraRecipient
  obtain ⟨bytes, ⟨text, htext, hbytes⟩, hlen, hamount⟩ := h.words.amount
  obtain ⟨topics, htopics, hinside⟩ : ∃ topics, log.topics = some topics ∧ 3 < topics.length := by
    obtain ⟨topics, _, htopics, htext, _⟩ := hrecipient
    exact ⟨topics, htopics, (List.getElem?_eq_some_iff.mp htext).1⟩
  have hne : word ≠ [] := List.ne_nil_of_length_eq_add_one hword32
  refine parseDepositLog_ok htopics hinside ?_ ?_ ?_ ?_ hlen ?_ h.rest
  · exact (hexToU64_word (topicAt_of_spells htopics hword) hne).mpr hvalue
  · exact (hexToAddress_word (topicAt_of_spells htopics h.words.sender)).mpr rfl
  · exact topicAt_of_spells htopics hrecipient
  · rw [htext]
    exact hbytes
  · have hfirst := beValue_first_word hlen
    have hbound := l.amount.toNat_lt
    have hsame : beValue ((bytes.drop 24).take 8) = l.amount.toNat := by omega
    rw [hsame, UInt64.ofNat_toNat]

end Parsing

/-- Every log of an answer parses without a panic and to what its words stand for, and the scan
returns every deposit of which the answer has a well-formed log. -/
structure DepositLogsExact (b : Build) (logs : List JsonValue) : Prop where
  parses : ∀ log ∈ logs, Returns (parseDepositValue b log) (LogJson.ofValue log).ExactWords
  events : ∃ parsed, depositEvents b (.ok (.array logs)) = .ok parsed ∧
    ∀ log ∈ logs, ∀ l, (LogJson.ofValue log).WellFormed l → l ∈ parsed

theorem depositEvents_returns {logs : List JsonValue}
    (h : ∀ log ∈ logs, NoPanic (parseDepositValue b log)) :
    ∃ parsed, depositEvents b (.ok (.array logs)) = .ok parsed ∧
      ∀ log ∈ logs, ∀ l, (LogJson.ofValue log).WellFormed l → l ∈ parsed := by
  have hquiet : ∀ log ∈ logs.map LogJson.ofValue, NoPanic (parseDepositLog b log) := by
    intro log hlog
    obtain ⟨value, hvalue, rfl⟩ := List.mem_map.mp hlog
    exact h value hvalue
  refine ⟨_, parseDepositLogs_ok hquiet, fun log hlog l hformed => ?_⟩
  refine List.mem_filterMap.mpr ⟨_, List.mem_map_of_mem hlog, ?_⟩
  rw [parseDepositLog_wellFormed hformed]
  rfl

end EthClient

open EthClient in
/-- Whatever JSON the logs of an answer are, they are parsed as they should be exactly when each of
them is clean. -/
theorem deposit_logs_exact_iff (b : Build) (logs : List JsonValue) :
    DepositLogsExact b logs ↔ ∀ log ∈ logs, (LogJson.ofValue log).Clean := by
  constructor
  · intro h log hlog
    exact returns_parseDepositLog_iff.mp (h.parses log hlog)
  · intro h
    have hparses : ∀ log ∈ logs,
        Returns (parseDepositValue b log) (LogJson.ofValue log).ExactWords :=
      fun log hlog => returns_parseDepositLog_iff.mpr (h log hlog)
    exact ⟨hparses, depositEvents_returns fun log hlog => (hparses log hlog).1⟩

section ContractLogs

/-- What the parser makes of a deposit that the contract has logged. -/
def ChainLog.read (log : ChainLog) (depositId : UInt64) (sender : Bytes20)
    (obscuraRecipient : Bytes32) (amount : UInt64) : EthLog where
  blockNumber := log.blockNumber
  blockHash := log.blockHash
  txHash := log.transactionHash
  logIndex := log.logIndex
  depositId := depositId
  sender := sender
  obscuraRecipient := obscuraRecipient
  amount := amount

variable {b : Build} {log : ChainLog} {depositId : UInt64} {amount : Nat} {sender : Bytes20}
  {recipient : Bytes32} {timestamp : UInt64}

theorem amount_read : UInt64.ofNat (beValue (((toBeBytes 32 amount ++
    toBeBytes 32 timestamp.toNat).drop 24).take 8)) = UInt64.ofNat amount := by
  have hlen : (toBeBytes 32 amount).length = 32 := length_toBeBytes 32 amount
  have hlong : 32 ≤ (toBeBytes 32 amount ++ toBeBytes 32 timestamp.toNat).length := by
    rw [List.length_append, hlen]
    omega
  have hfirst := EthClient.beValue_first_word hlong
  rw [List.take_left' hlen, beValue_toBeBytes] at hfirst
  apply UInt64.toNat_inj.mp
  rw [UInt64.toNat_ofNat', UInt64.toNat_ofNat']
  omega

/-- Of a log of the contract everything is read as it is, but only the low eight bytes of the
amount. -/
theorem parse_depositLocked
    (h : log.event = .depositLocked depositId.toNat sender recipient amount timestamp) :
    EthClient.parseDepositLog b log.json =
      .ok (log.read depositId sender recipient (UInt64.ofNat amount)) := by
  have hwords := EthClient.spells_hexText
  have hne : toBeBytes 32 depositId.toNat ≠ [] :=
    List.ne_nil_of_length_eq_add_one (length_toBeBytes 32 _)
  have hvalue : beValue (toBeBytes 32 depositId.toNat) = depositId.toNat := by
    have hid := depositId.toNat_lt
    rw [beValue_toBeBytes]
    omega
  have htopics : log.json.topics = some ((log.event.topic.bytes :: log.event.indexed).map
      fun word => some (BeaconApi.hexText word)) := rfl
  have hdata : log.json.data = some (BeaconApi.hexText log.event.data) := rfl
  rw [h] at htopics hdata
  have hread := @amount_read amount timestamp
  refine EthClient.parseDepositLog_ok htopics ?_ ?_ ?_ ?_ ?_ ?_ hread ⟨?_, ?_, ?_, ?_⟩
  · show 3 < 4
    omega
  · exact (EthClient.hexToU64_word (hwords (toBeBytes 32 depositId.toNat)) hne).mpr hvalue
  · exact (EthClient.hexToAddress_word (hwords (BridgeEvent.addressWord sender))).mpr rfl
  · exact hwords recipient.bytes
  · rw [hdata]
    exact hwords _
  · rw [List.length_append, length_toBeBytes, length_toBeBytes]
    omega
  · exact EthClient.hexToU64_quantityText log.blockNumber
  · exact hwords log.blockHash.bytes
  · exact hwords log.transactionHash.bytes
  · exact EthClient.hexToU64_quantityText log.logIndex

end ContractLogs

section Sample

/-- A deposit of an amount as a node logs it. -/
def sampleLocked (amount : Nat) : ChainLog where
  event := .depositLocked 1 (FixedBytes.replicate 20 1) (FixedBytes.replicate 32 2) amount 1000
  blockNumber := 1
  blockHash := FixedBytes.replicate 32 3
  transactionHash := FixedBytes.replicate 32 4
  logIndex := 0

/-- A log without indexed topics panics, and of a deposit of `2 ^ 64 + 5` an amount of 5 is read. -/
theorem deposit_log_panics_or_truncates :
    ¬EthClient.DepositLogsExact Build.default [.object [("topics", .array [])]] ∧
      (∃ l, EthClient.parseDepositValue Build.default (sampleLocked (2 ^ 64 + 5)).json.toValue =
        .ok l ∧ l.amount = 5) ∧
      ¬EthClient.DepositLogsExact Build.default [(sampleLocked (2 ^ 64 + 5)).json.toValue] := by
  obtain ⟨l, hparsed, hread⟩ : ∃ l, EthClient.parseDepositValue Build.default
      (sampleLocked (2 ^ 64 + 5)).json.toValue = .ok l ∧ l.amount = 5 := by
    rw [EthClient.parseDepositValue, LogJson.ofValue_toValue]
    have hlogged : (sampleLocked (2 ^ 64 + 5)).event = .depositLocked (1 : UInt64).toNat
        (FixedBytes.replicate 20 1) (FixedBytes.replicate 32 2) (2 ^ 64 + 5) 1000 := rfl
    exact ⟨_, parse_depositLocked hlogged, by decide⟩
  refine ⟨?_, ⟨l, hparsed, hread⟩, ?_⟩
  · intro h
    have hclean := EthClient.returns_parseDepositLog_iff.mp (h.parses _ List.mem_cons_self)
    exact absurd (hclean [] rfl).1 (by decide)
  · intro h
    have hexact := (h.parses _ List.mem_cons_self).2 _ hparsed
    rw [LogJson.ofValue_toValue] at hexact
    obtain ⟨bytes, ⟨text, htext, hspells⟩, _, hvalue⟩ := hexact.amount
    have hwords := EthClient.spells_hexText (sampleLocked (2 ^ 64 + 5)).event.data
    cases Option.some.inj htext
    rw [hspells.unique hwords, hread] at hvalue
    exact absurd hvalue (by decide +kernel)

end Sample

end ObscuraNetwork
