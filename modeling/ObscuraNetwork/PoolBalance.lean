import ObscuraNetwork.ExactPool
import ObscuraNetwork.NoteLedger
import ObscuraNetwork.PendingSpend
import ObscuraNetwork.PlantedLeaf
import ObscuraNetwork.UnshieldMembership

namespace ObscuraNetwork

open ObscuraPrivacy ObscuraBridge

/-- The secrets behind a run: the witnesses of its proofs, the notes that its claims pay for, and
the key that spends a note. -/
structure PoolSecrets where
  transfer : TransferMessage → TransferWitness
  unshield : UnshieldMessage → UnshieldWitness
  claim : ClaimDeposit → Option NoteData
  spendingKey : NoteData → Bytes32

namespace PoolSecrets

/-- The notes that a transaction consumes and creates. -/
def move (o : PoolSecrets) (tx : Tx) : NoteMove NoteData :=
  match tx.call with
  | .obscuraPrivacy (.shield msg) => ⟨[], [msg.note.toData]⟩
  | .obscuraPrivacy (.transfer msg) => ⟨(o.transfer msg).inputs, (o.transfer msg).outputs⟩
  | .obscuraPrivacy (.unshield msg) => ⟨[(o.unshield msg).note], []⟩
  | .obscuraBridge (.claimDeposit claim) => ⟨[], (o.claim claim).toList⟩
  | _ => ⟨[], []⟩

def nullifier (o : PoolSecrets) (sha256 : Bytes → Bytes32) (note : NoteData) : Nullifier :=
  ⟨hashNullifier sha256 (o.spendingKey note) (hashNote sha256 note)⟩

end PoolSecrets

/-- A transfer of an honest wallet: an ideal proof under a root of the tree, with paths of the
tree's depth, different inputs and the one key of each, none of them a padding leaf. -/
structure WalletTransfer (b : Build) (o : PoolSecrets) (messages : Set Bytes) (s : ObscuraPrivacy)
    (msg : TransferMessage) : Prop where
  proved : ∃ out, transferMain b.sha256 (o.transfer msg) = .ok out ∧ CarriesTransfer msg out
  rooted : msg.publicInputs.merkleRoot ≠ zeroBytes
  paths : ∀ path ∈ (o.transfer msg).merklePaths, path.length ≤ treeDepth
  keys : (o.transfer msg).spendingKeys = (o.transfer msg).inputs.map o.spendingKey
  distinct : msg.nullifiers.Nodup
  leaves : ∀ note ∈ (o.transfer msg).inputs, hashNote b.sha256 note ≠ zeroValue b.sha256 0
  hashed : TransferHashes b.sha256 (o.transfer msg) ⊆ messages
  tree : ∀ n, 0 < n → treeMessages b.sha256 (s.tree.leaves.take n) ⊆ messages

/-- An unshield of an honest wallet: an ideal proof for a note of the pool, under its key. -/
structure WalletUnshield (b : Build) (o : PoolSecrets) (messages : Set Bytes) (s : ObscuraPrivacy)
    (msg : UnshieldMessage) : Prop where
  proved : msg.Attests b.sha256 (o.unshield msg)
  key : (o.unshield msg).spendingKey = o.spendingKey (o.unshield msg).note
  hashed : (o.unshield msg).note.message ∈ messages
  inserted : ⟨hashNote b.sha256 (o.unshield msg).note⟩ ∈ s.commitments

/-- The leaf of a claim opens to a note of the claimed amount, or to none that is known. -/
def WalletClaim (b : Build) (o : PoolSecrets) (messages : Set Bytes) (claim : ClaimDeposit) :
    Prop :=
  match o.claim claim with
  | some note => note.message ∈ messages ∧
      hashNote b.sha256 note = claim.publicInputs.obscuraRecipient ∧
      note.amount = claim.publicInputs.amount ∧ note.assetId = bridgedUsdcAsset.id
  | none => ∀ note : NoteData, note.message ∈ messages →
      hashNote b.sha256 note ≠ claim.publicInputs.obscuraRecipient

/-- What honest wallets see to and the handlers do not check, for the transactions that are
accepted. The messages are those that are hashed in the run. -/
def FromWallet (b : Build) (o : PoolSecrets) (messages : Set Bytes) (s : Runtime) (tx : Tx) :
    Prop :=
  (Runtime.call b tx s).isOk = true → match tx.call with
    | .obscuraPrivacy (.shield msg) => msg.note.toData.message ∈ messages
    | .obscuraPrivacy (.transfer msg) => WalletTransfer b o messages s.obscuraPrivacy msg
    | .obscuraPrivacy (.unshield msg) => WalletUnshield b o messages s.obscuraPrivacy msg
    | .obscuraBridge (.claimDeposit claim) => WalletClaim b o messages claim
    | _ => True

def NoteData.value (asset : AssetId) (note : NoteData) : Nat :=
  if note.assetId = asset.id then note.amount.toNat else 0

/-- The pool as a ledger of notes: every leaf that opens is a created note, no note is consumed
twice, the nullifiers of the consumed ones are spent, and no value is made. -/
structure PoolInvariant (b : Build) (o : PoolSecrets) (messages : Set Bytes) (s : Runtime)
    (done : List Tx) : Prop where
  opened : ∀ note : NoteData, note.message ∈ messages →
    ⟨hashNote b.sha256 note⟩ ∈ s.obscuraPrivacy.commitments → note ∈ createdNotes o.move done
  once : ConsumedOnce o.move done
  spent : ∀ note ∈ consumedNotes o.move done,
    s.obscuraPrivacy.isSpent (o.nullifier b.sha256 note) = true
  value : ∀ asset, ∀ tx ∈ done,
    KeepsValue o.move (NoteData.value asset) (Tx.putIn asset) (Tx.paidOut asset) tx

section PoolBalance

variable {b : Build} {config : BridgeConfig} {o : PoolSecrets} {messages : Set Bytes}
  {s s' : Runtime} {tx : Tx} {done txs : List Tx} {msg : TransferMessage}

/-- The encoding of a note is injective: its length tells how long the owner key is. -/
theorem NoteData.message_inj {note note' : NoteData} (h : note.message = note'.message) :
    note = note' := by
  have hlen := congrArg List.length h
  simp only [NoteData.message, length_noteMessage] at hlen
  obtain ⟨hamount, hasset, howner, hsalt⟩ := noteMessage_inj (by omega) h
  cases note
  cases note'
  simp_all

theorem hashNote_inj (cf : CollisionFreeOn b.sha256 messages) {note note' : NoteData}
    (hnote : note.message ∈ messages) (hnote' : note'.message ∈ messages)
    (h : hashNote b.sha256 note = hashNote b.sha256 note') : note = note' :=
  NoteData.message_inj (cf hnote hnote' h)

theorem WalletTransfer.nullifiers (h : WalletTransfer b o messages s.obscuraPrivacy msg) :
    msg.nullifiers = (o.transfer msg).inputs.map (o.nullifier b.sha256) := by
  obtain ⟨out, hout, hcarries⟩ := h.proved
  have hnull := (transferMain_ok.mp hout).nullifiers
  have hpairs := List.zip_map' (f := id) (g := o.spendingKey) (l := (o.transfer msg).inputs)
  rw [List.map_id] at hpairs
  rw [h.keys, hpairs, List.map_map, ← hcarries.nullifiers] at hnull
  have hwrapped := congrArg (List.map Nullifier.mk) hnull
  rw [List.map_map, List.map_map] at hwrapped
  have hid : Nullifier.mk ∘ Nullifier.hash = id := rfl
  rw [hid, List.map_id] at hwrapped
  exact hwrapped

theorem WalletTransfer.outputCommitments
    (h : WalletTransfer b o messages s.obscuraPrivacy msg) :
    msg.outputCommitments.map Commitment.hash =
      (o.transfer msg).outputs.map (hashNote b.sha256) := by
  obtain ⟨out, hout, hcarries⟩ := h.proved
  rw [hcarries.outputCommitments, (transferMain_ok.mp hout).outputCommitments]

/-- The inputs of an accepted transfer are leaves of the pool. -/
theorem WalletTransfer.inserted (cf : CollisionFreeOn b.sha256 messages)
    (h : WalletTransfer b o messages s.obscuraPrivacy msg)
    (hgate : RecentRoot b s.obscuraPrivacy.tree.leaves msg.publicInputs.merkleRoot)
    {note : NoteData} (hnote : note ∈ (o.transfer msg).inputs) :
    ⟨hashNote b.sha256 note⟩ ∈ s.obscuraPrivacy.commitments := by
  obtain ⟨out, hout, hcarries⟩ := h.proved
  have haccepted := transferMain_ok.mp hout
  obtain ⟨n, hpos, _, _, hroot⟩ := hgate
  rw [hcarries.publicInputs] at hroot
  obtain ⟨index, path, hentry⟩ := input_has_path haccepted.indices haccepted.paths hnote
  have hfold := (haccepted.inclusion _ hentry).trans (haccepted.merkleRoot.symm.trans hroot)
  have hsound := path_to_root_sound cf (h.tree n hpos)
    (h.hashed (.note note (List.mem_append_left _ hnote)))
    (fun p hp => h.hashed (.node _ p hentry hp)) (h.paths path (List.of_mem_zip hentry).2) hfold
  have hleaf := hsound.resolve_right fun hzero => h.leaves note hnote hzero.2
  obtain ⟨commitment, hcommitment, hhash⟩ := List.mem_map.mp (List.mem_of_mem_take hleaf)
  rw [← hhash]
  exact hcommitment

/-- A transaction consumes the nullifiers of its notes. -/
theorem fromWallet_nullifiers (h : FromWallet b o messages s tx)
    (hok : (Runtime.call b tx s).isOk = true) :
    tx.consumedNullifiers = (o.move tx).consumed.map (o.nullifier b.sha256) ∧
      tx.consumedNullifiers.Nodup := by
  have hwallet := h hok
  obtain ⟨ctx, call⟩ := tx
  cases call with
  | obscuraPrivacy msg =>
    cases msg with
    | shield msg => exact ⟨rfl, List.nodup_nil⟩
    | transfer msg => exact ⟨hwallet.nullifiers, hwallet.distinct⟩
    | unshield msg =>
      obtain ⟨_, _, hout⟩ := unshieldMain_ok.mp hwallet.proved
      have hnull : msg.nullifier.hash = _ := congrArg UnshieldPublicOutputs.nullifier hout
      rw [hwallet.key] at hnull
      exact ⟨congrArg (fun hash => [Nullifier.mk hash]) hnull, List.nodup_singleton _⟩
    | updateSanctionsRoot msg => exact ⟨rfl, List.nodup_nil⟩
  | obscuraBridge msg =>
    cases msg with
    | claimDeposit claim => exact ⟨rfl, List.nodup_nil⟩
    | withdrawBridge msg => exact ⟨rfl, List.nodup_nil⟩
    | updateHeliosHead update => exact ⟨rfl, List.nodup_nil⟩

/-- The leaves that a transaction adds open to no other notes than those it creates. -/
theorem fromWallet_created (cf : CollisionFreeOn b.sha256 messages)
    (h : FromWallet b o messages s tx) (hok : (Runtime.call b tx s).isOk = true) {note : NoteData}
    (hnote : note.message ∈ messages)
    (hinserted : ⟨hashNote b.sha256 note⟩ ∈ insertedCommitments b tx) :
    note ∈ (o.move tx).created := by
  have hwallet := h hok
  obtain ⟨ctx, call⟩ := tx
  cases call with
  | obscuraPrivacy msg =>
    cases msg with
    | shield msg =>
      simp only [insertedCommitments] at hinserted
      split at hinserted
      next commitment hcommitment =>
        have hhash := congrArg Commitment.hash (List.mem_singleton.mp hinserted)
        rw [fromNote_hash hcommitment] at hhash
        exact List.mem_singleton.mpr (hashNote_inj cf hnote hwallet hhash)
      next => exact absurd hinserted List.not_mem_nil
    | transfer msg =>
      have hhash := List.mem_map_of_mem (f := Commitment.hash) hinserted
      rw [show insertedCommitments b _ = msg.outputCommitments from rfl,
        WalletTransfer.outputCommitments hwallet] at hhash
      obtain ⟨output, houtput, hsame⟩ := List.mem_map.mp hhash
      have hcovered := hwallet.hashed (.note output (List.mem_append_right _ houtput))
      rw [← hashNote_inj cf hcovered hnote hsame]
      exact houtput
    | unshield msg => exact absurd hinserted List.not_mem_nil
    | updateSanctionsRoot msg => exact absurd hinserted List.not_mem_nil
  | obscuraBridge msg =>
    cases msg with
    | claimDeposit claim =>
      have hhash := congrArg Commitment.hash (List.mem_singleton.mp hinserted)
      simp only [WalletClaim] at hwallet
      split at hwallet
      next opening hopening =>
        obtain ⟨hcovered, hleaf, _⟩ := hwallet
        have hsame := hashNote_inj cf hnote hcovered (hhash.trans hleaf.symm)
        rw [hsame]
        simp [PoolSecrets.move, hopening]
      next => exact absurd hhash (hwallet note hnote)
    | withdrawBridge msg => exact absurd hinserted List.not_mem_nil
    | updateHeliosHead update => exact absurd hinserted List.not_mem_nil

/-- An accepted transfer is under a root of the list's, or under the zero root. -/
theorem transfer_known_root {ctx : TxContext} {msg : TransferMessage}
    (hcall : Runtime.call b ⟨ctx, .obscuraPrivacy (.transfer msg)⟩ (Runtime.run b config txs) =
      .ok s') :
    msg.publicInputs.merkleRoot = zeroBytes ∨
      RecentRoot b (Runtime.run b config txs).obscuraPrivacy.tree.leaves
        msg.publicInputs.merkleRoot := by
  obtain ⟨hs, hroots⟩ := run_keepsRoots b config txs
  cases Runtime.step_of_call_ok hcall with
  | transfer ctx msg privacy hp =>
    obtain ⟨hchecks, _⟩ := handleTransfer_ok.mp hp
    exact (transferChecks_gate hs hroots hchecks).merkleRoot

/-- What a transaction consumes was created before it. -/
theorem fromWallet_consumed (cf : CollisionFreeOn b.sha256 messages)
    (hs : PoolInvariant b o messages (Runtime.run b config txs) done)
    (h : FromWallet b o messages (Runtime.run b config txs) tx)
    (hcall : Runtime.call b tx (Runtime.run b config txs) = .ok s') :
    ∀ note ∈ (o.move tx).consumed, note ∈ createdNotes o.move done := by
  have hwallet := h (isOk_iff.mpr ⟨s', hcall⟩)
  intro note hnote
  obtain ⟨ctx, call⟩ := tx
  cases call with
  | obscuraPrivacy msg =>
    cases msg with
    | shield msg => exact absurd hnote List.not_mem_nil
    | transfer msg =>
      have hrecent := (transfer_known_root hcall).resolve_left hwallet.rooted
      exact hs.opened note (hwallet.hashed (.note note (List.mem_append_left _ hnote)))
        (WalletTransfer.inserted cf hwallet hrecent hnote)
    | unshield msg =>
      rw [List.mem_singleton.mp hnote]
      exact hs.opened _ hwallet.hashed hwallet.inserted
    | updateSanctionsRoot msg => exact absurd hnote List.not_mem_nil
  | obscuraBridge msg =>
    cases msg with
    | claimDeposit claim => exact absurd hnote List.not_mem_nil
    | withdrawBridge msg => exact absurd hnote List.not_mem_nil
    | updateHeliosHead update => exact absurd hnote List.not_mem_nil

/-- An accepted transaction is a valid move of the ledger. -/
theorem fromWallet_valid (cf : CollisionFreeOn b.sha256 messages)
    (hs : PoolInvariant b o messages (Runtime.run b config txs) done)
    (h : FromWallet b o messages (Runtime.run b config txs) tx)
    (hcall : Runtime.call b tx (Runtime.run b config txs) = .ok s') :
    ValidAfter o.move done tx := by
  obtain ⟨hnull, hdistinct⟩ := fromWallet_nullifiers h (isOk_iff.mpr ⟨s', hcall⟩)
  obtain ⟨hfresh, _⟩ := step_marks_spent (Runtime.step_of_call_ok hcall)
  rw [hnull] at hdistinct hfresh
  refine ⟨hdistinct.of_map, fromWallet_consumed cf hs h hcall, ?_⟩
  intro note hnote hconsumed
  have hspent := hs.spent note hconsumed
  rw [hfresh _ (List.mem_map_of_mem hnote)] at hspent
  exact Bool.noConfusion hspent

theorem AssetId.id_inj {asset asset' : AssetId} : asset.id = asset'.id ↔ asset = asset' := by
  cases asset
  cases asset'
  simp

/-- Notes of one asset are worth their amounts in it, and nothing in any other. -/
theorem noteValue_oneAsset {assetId : Bytes32} {notes : List NoteData}
    (h : ∀ note ∈ notes, note.assetId = assetId) (asset : AssetId) :
    noteValue (NoteData.value asset) notes =
      if assetId = asset.id then (notes.map fun note => note.amount.toNat).sum else 0 := by
  induction notes with
  | nil => simp [noteValue]
  | cons note rest ih =>
    have hrest := ih fun other hother => h other (List.mem_cons_of_mem note hother)
    unfold noteValue at hrest ⊢
    rw [List.map_cons, List.sum_cons, hrest, NoteData.value, h note List.mem_cons_self]
    split <;> simp

theorem WalletTransfer.value_eq (h : WalletTransfer b o messages s.obscuraPrivacy msg)
    (asset : AssetId) :
    noteValue (NoteData.value asset) (o.transfer msg).outputs =
      noteValue (NoteData.value asset) (o.transfer msg).inputs := by
  obtain ⟨out, hout, _⟩ := h.proved
  have haccepted := transferMain_ok.mp hout
  have hinput := checkedSum_ok haccepted.inputSum
  have houtput := checkedSum_ok haccepted.outputSum
  rw [noteValue_oneAsset haccepted.outputAssets, noteValue_oneAsset haccepted.inputAssets]
  split
  next => omega
  next => rfl

/-- Only shields and claims bring value in, and only unshields take it out. -/
theorem fromWallet_keepsValue (h : FromWallet b o messages s tx)
    (hok : (Runtime.call b tx s).isOk = true) (asset : AssetId) :
    KeepsValue o.move (NoteData.value asset) (Tx.putIn asset) (Tx.paidOut asset) tx := by
  have hwallet := h hok
  obtain ⟨ctx, call⟩ := tx
  cases call with
  | obscuraPrivacy msg =>
    cases msg with
    | shield msg =>
      simp [KeepsValue, PoolSecrets.move, noteValue, NoteData.value, Note.toData, Tx.putIn,
        Tx.paidOut, AssetId.id_inj]
    | transfer msg => exact (WalletTransfer.value_eq hwallet asset).le
    | unshield msg =>
      obtain ⟨_, _, hout⟩ := unshieldMain_ok.mp hwallet.proved
      obtain ⟨_, hamount, hasset⟩ := UnshieldPublicOutputs.mk.inj hout
      simp [KeepsValue, PoolSecrets.move, noteValue, NoteData.value, ← hamount, ← hasset,
        Tx.putIn, Tx.paidOut, AssetId.id_inj]
    | updateSanctionsRoot msg => exact le_rfl
  | obscuraBridge msg =>
    cases msg with
    | claimDeposit claim =>
      simp only [WalletClaim] at hwallet
      split at hwallet
      next opening hopening =>
        obtain ⟨_, _, hamount, hasset⟩ := hwallet
        simp [KeepsValue, PoolSecrets.move, noteValue, NoteData.value, hopening, hamount, hasset,
          Tx.putIn, Tx.paidOut, AssetId.id_inj]
      next hopening =>
        simp [KeepsValue, PoolSecrets.move, noteValue, hopening, Tx.paidOut]
    | withdrawBridge msg => exact le_rfl
    | updateHeliosHead update => exact le_rfl

theorem poolInvariant_genesis (b : Build) (config : BridgeConfig) (o : PoolSecrets)
    (messages : Set Bytes) : PoolInvariant b o messages (Runtime.genesis b config) [] :=
  ⟨fun _ _ h => absurd h List.not_mem_nil, consumedOnce_nil, fun _ h => absurd h List.not_mem_nil,
    fun _ _ h => absurd h List.not_mem_nil⟩

/-- A transaction of the run is a move of the ledger. -/
theorem poolInvariant_step (cf : CollisionFreeOn b.sha256 messages)
    (hs : PoolInvariant b o messages (Runtime.run b config txs) done)
    (h : FromWallet b o messages (Runtime.run b config txs) tx)
    (hcall : Runtime.call b tx (Runtime.run b config txs) = .ok s') :
    PoolInvariant b o messages s' (done ++ [tx]) := by
  have hstep := Runtime.step_of_call_ok hcall
  have hok : (Runtime.call b tx (Runtime.run b config txs)).isOk = true := isOk_iff.mpr ⟨s', hcall⟩
  obtain ⟨hnull, _⟩ := fromWallet_nullifiers h hok
  obtain ⟨_, hmarks⟩ := step_marks_spent hstep
  refine ⟨?_, hs.once.concat (fromWallet_valid cf hs h hcall), ?_, ?_⟩
  · intro note hnote hleaf
    rw [step_commitments hstep, List.mem_append] at hleaf
    rw [createdNotes_concat, List.mem_append]
    rcases hleaf with hold | hnew
    · exact Or.inl (hs.opened note hnote hold)
    · exact Or.inr (fromWallet_created cf h hok hnote hnew)
  · intro note hnote
    rw [consumedNotes_concat, List.mem_append] at hnote
    rw [hmarks, hnull]
    rcases hnote with hold | hnew
    · exact Or.inl (hs.spent note hold)
    · exact Or.inr (List.mem_map_of_mem hnew)
  · intro asset later hlater
    rcases List.mem_append.mp hlater with hold | hnew
    · exact hs.value asset later hold
    · rw [List.mem_singleton.mp hnew]
      exact fromWallet_keepsValue h hok asset

theorem run_poolInvariant (cf : CollisionFreeOn b.sha256 messages)
    (h : EveryStep (settle (Runtime.call b)) (FromWallet b o messages) (Runtime.genesis b config)
      txs) :
    PoolInvariant b o messages (Runtime.run b config txs) (Runtime.acceptedTxs b config txs) := by
  induction txs using List.reverseRecOn with
  | nil => exact poolInvariant_genesis b config o messages
  | append_singleton txs tx ih =>
    obtain ⟨hearlier, hlast⟩ := everyStep_concat.mp h
    have hs := ih hearlier
    cases hcall : Runtime.call b tx (Runtime.run b config txs) with
    | error e =>
      obtain ⟨hrun, haccepted⟩ := acceptedTxs_concat_error hcall
      rw [hrun, haccepted]
      exact hs
    | ok s' =>
      obtain ⟨hrun, haccepted⟩ := acceptedTxs_concat_ok hcall
      rw [hrun, haccepted]
      exact poolInvariant_step cf hs hlast hcall

end PoolBalance

/-- As long as the accepted transactions come from honest wallets, the pool pays out notes that were
put in, each of them once, and never more of an asset than was put in. -/
theorem wallet_pool_solvent (b : Build) (config : BridgeConfig) (txs : List Tx) (o : PoolSecrets)
    (messages : Set Bytes) (cf : CollisionFreeOn b.sha256 messages)
    (h : EveryStep (settle (Runtime.call b)) (FromWallet b o messages) (Runtime.genesis b config)
      txs) :
    let done := Runtime.acceptedTxs b config txs
    (consumedNotes o.move done).Nodup ∧
      (∀ note ∈ consumedNotes o.move done, note ∈ createdNotes o.move done) ∧
      ∀ asset, total (Tx.paidOut asset) done ≤ total (Tx.putIn asset) done := by
  have hs := run_poolInvariant cf h
  refine ⟨hs.once.distinct, hs.once.created, ?_⟩
  intro asset
  exact hs.once.outflow_le (hs.value asset)

section Sample

/-- The unit that the sample transfer turns the first one into. -/
def changeNote : NoteData := ⟨1, zeroBytes, List.replicate 32 1, FixedBytes.replicate 32 1⟩

def changeWitness : TransferWitness where
  spendingKeys := [zeroBytes]
  inputs := [plantedNote]
  outputs := [changeNote]
  merkleRoot := fullRoot sha256 [hashNote sha256 plantedNote]
  leafIndices := [0]
  merklePaths := [(List.range treeDepth).map (zeroValue sha256)]

def changeOutputs : TransferPublicOutputs where
  nullifiers := [hashNullifier sha256 zeroBytes (hashNote sha256 plantedNote)]
  outputCommitments := [hashNote sha256 changeNote]
  transferAmount := 1
  assetId := zeroBytes
  merkleRoot := fullRoot sha256 [hashNote sha256 plantedNote]

theorem changeWitness_accepted : transferMain sha256 changeWitness = .ok changeOutputs := by
  refine transferMain_ok.mpr ⟨⟨plantedNote, rfl, rfl⟩, by simp [changeWitness], rfl, ?_, ?_, rfl, rfl,
    rfl, rfl, ?_, ?_, rfl, rfl, rfl⟩
  · simp [changeWitness, changeOutputs, plantedNote]
  · simp [changeWitness, changeOutputs, changeNote]
  · intro entry hentry
    obtain rfl : entry = ((plantedNote, 0), (List.range treeDepth).map (zeroValue sha256)) := by
      simpa [changeWitness] using hentry
    have hwalk := walk_zeroValues sha256 (hashNote sha256 plantedNote) 0 treeDepth
    rw [Nat.zero_add, spineNode_eq_fullRoot, ← List.range_eq_range'] at hwalk
    rw [foldSiblings_eq_walk]
    exact hwalk
  · simp [changeWitness, changeNote]

def changeTx : Tx := ⟨⟨[], 0⟩, .obscuraPrivacy (.transfer (carryingMessage changeOutputs))⟩

def cashOutTx : Tx :=
  ⟨⟨[], 0⟩, .obscuraPrivacy (.unshield (cashOut .default mockHeader ⟨zeroBytes, changeNote⟩))⟩

def changeMessages : List Bytes :=
  plantedNote.message :: changeNote.message ::
    nullifierMessage zeroBytes (hashNote sha256 plantedNote) ::
      spineMessages sha256 (hashNote sha256 plantedNote) 0 treeDepth

def changeDigests (commitment : Nat) : List Nat :=
  Sha256.eager commitment fun commitment =>
  Sha256.eager (Sha256.digest changeNote.message) fun change =>
  Sha256.eager (Sha256.digest (nullifierMessage zeroBytes (Sha256.toBytes32 commitment)))
    fun nullifier =>
  0 :: commitment :: change :: nullifier :: spineDigests treeDepth commitment 0

theorem changeDigests_distinct :
    ((changeDigests (Sha256.digest plantedNote.message)).map Sha256.toBytes32).Nodup := by
  decide +kernel

theorem change_digests : zeroBytes :: changeMessages.map sha256 =
    (changeDigests (Sha256.digest plantedNote.message)).map Sha256.toBytes32 := by
  have hzero : Sha256.toBytes32 0 = zeroBytes := by decide
  have hc : Sha256.toBytes32 (Sha256.digest plantedNote.message) =
      hashNote sha256 plantedNote := (sha256_eq _).symm
  have hspine := spineDigests_eq (hashNote sha256 plantedNote) treeDepth 0 hc hzero
  simp only [changeDigests, Sha256.eager_eq, List.map_cons, changeMessages, hspine, hc, hzero,
    sha256_eq (nullifierMessage _ _)]
  rw [sha256_eq, hc, sha256_eq changeNote.message]

theorem change_distinct : (zeroBytes :: changeMessages.map sha256).Nodup := by
  rw [change_digests]
  exact changeDigests_distinct

theorem change_collisionFree : CollisionFreeOn sha256 {m | m ∈ changeMessages} :=
  collisionFreeOn_of_nodup (fun _ hm => hm) (List.nodup_cons.mp change_distinct).2

theorem change_ne_zero {m : Bytes} (hm : m ∈ changeMessages) : sha256 m ≠ zeroBytes := by
  intro h
  exact (List.nodup_cons.mp change_distinct).1 (h ▸ List.mem_map_of_mem hm)

theorem change_spine {k : Nat} (hk : k < treeDepth) :
    pairMessage (spineNode sha256 (hashNote sha256 plantedNote) k) (zeroValue sha256 k) ∈
      changeMessages := by
  have hspine : pairMessage (spineNode sha256 (hashNote sha256 plantedNote) k)
      (zeroValue sha256 k) ∈ spineMessages sha256 (hashNote sha256 plantedNote) 0 treeDepth :=
    List.mem_flatMap.mpr ⟨k, by simpa using hk, by simp⟩
  simp [changeMessages, hspine]

theorem changeWitness_hashed :
    TransferHashes sha256 changeWitness ⊆ {m | m ∈ changeMessages} := by
  intro m hm
  cases hm with
  | note note h =>
    have hnote : note = plantedNote ∨ note = changeNote := by simpa [changeWitness] using h
    rcases hnote with rfl | rfl <;> simp [changeMessages]
  | node entry p h hp =>
    obtain rfl : entry = ((plantedNote, 0), (List.range treeDepth).map (zeroValue sha256)) := by
      simpa [changeWitness] using h
    have hpairs := walkPairs_zeroValues sha256 (hashNote sha256 plantedNote) 0 treeDepth
    rw [← List.range_eq_range'] at hpairs
    have hp' := hpairs ▸ hp
    obtain ⟨k, hk, rfl⟩ := List.mem_map.mp hp'
    exact change_spine (List.mem_range.mp hk)
  | nullifier entry h =>
    obtain rfl : entry = (plantedNote, zeroBytes) := by simpa [changeWitness] using h
    simp [changeMessages]

def changeSecrets : PoolSecrets where
  transfer _ := changeWitness
  unshield _ := ⟨zeroBytes, changeNote⟩
  claim _ := none
  spendingKey _ := zeroBytes

theorem change_terms :
    TransferTerms .default 0 (carryingMessage changeOutputs)
      (Runtime.run .default .default [unitShield]).obscuraPrivacy
      (Runtime.acceptedTxs .default .default [unitShield]) where
  proof := verifyProof_mockHeader _ _
  sanctionsProof := verifyProof_mockHeader _ _
  sanctionsRoot := Or.inl rfl
  fresh := rfl
  unspent := by
    intro nullifier _
    exact List.not_mem_nil
  room := by decide
  counters := by
    intro h
    exact Bool.noConfusion h

theorem changeTx_accepted :
    ∃ s', Runtime.call .default changeTx (Runtime.run .default .default [unitShield]) = .ok s' := by
  have hrecent : RecentRoot .default
      (Runtime.run .default .default [unitShield]).obscuraPrivacy.tree.leaves
      (carryingMessage changeOutputs).publicInputs.merkleRoot := by
    refine ⟨1, by decide, by decide, by decide, ?_⟩
    rfl
  obtain ⟨privacy, hprivacy⟩ := (transfer_accepted_iff hrecent).mpr change_terms
  exact ⟨_, bind_ok.mpr ⟨privacy, hprivacy, rfl⟩⟩

/-- A unit is shielded, transferred and unshielded. -/
theorem change_fromWallet :
    EveryStep (settle (Runtime.call .default))
      (FromWallet .default changeSecrets {m | m ∈ changeMessages})
      (Runtime.genesis .default .default) [unitShield, changeTx, cashOutTx] := by
  refine ⟨?_, ?_, ?_, trivial⟩
  · intro _
    show plantedNote.message ∈ changeMessages
    simp [changeMessages]
  · intro _
    refine ⟨⟨changeOutputs, changeWitness_accepted, carryingMessage_carries _⟩, ?_, ?_, rfl, ?_, ?_,
      changeWitness_hashed, ?_⟩
    · show fullRoot sha256 [hashNote sha256 plantedNote] ≠ zeroBytes
      rw [← spineNode_eq_fullRoot]
      exact change_ne_zero (change_spine (by decide))
    · intro path hpath
      obtain rfl := List.mem_singleton.mp hpath
      simp
    · exact List.nodup_singleton _
    · intro note hnote
      obtain rfl := List.mem_singleton.mp hnote
      exact planted_not_padding
    · intro n hpos m hm
      have htake : [hashNote sha256 plantedNote].take n = [hashNote sha256 plantedNote] :=
        List.take_of_length_le hpos
      have hspine : m ∈ spineMessages sha256 (hashNote sha256 plantedNote) 0 treeDepth :=
        treeMessages_single (hashNote sha256 plantedNote) (htake ▸ hm)
      show m ∈ changeMessages
      simp [changeMessages, hspine]
  · intro _
    obtain ⟨s', hs'⟩ := changeTx_accepted
    have hafter := step_commitments (Runtime.step_of_call_ok hs')
    refine ⟨cashOut_attests (s := ObscuraPrivacy.genesis .default) ⟨by decide, by decide, rfl⟩, rfl,
      ?_, ?_⟩
    · show changeNote.message ∈ changeMessages
      simp [changeMessages]
    · have hsettled : settle (Runtime.call .default)
          (settle (Runtime.call .default) (Runtime.genesis .default .default) unitShield) changeTx =
          s' := settle_ok hs'
      rw [hsettled, hafter]
      exact List.mem_append_right _ (List.mem_singleton.mpr rfl)

theorem wallet_pool_solvent_change :
    let done := Runtime.acceptedTxs .default .default [unitShield, changeTx, cashOutTx]
    (consumedNotes changeSecrets.move done).Nodup ∧
      (∀ note ∈ consumedNotes changeSecrets.move done,
        note ∈ createdNotes changeSecrets.move done) ∧
      ∀ asset, total (Tx.paidOut asset) done ≤ total (Tx.putIn asset) done :=
  wallet_pool_solvent .default .default [unitShield, changeTx, cashOutTx] changeSecrets
    {m | m ∈ changeMessages} change_collisionFree change_fromWallet

end Sample

end ObscuraNetwork
