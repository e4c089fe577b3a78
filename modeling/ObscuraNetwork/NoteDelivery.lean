import ObscuraNetwork.EncryptedNoteCodec
import ObscuraNetwork.EncryptedNotes
import ObscuraNetwork.PendingSpend

namespace ObscuraNetwork

namespace Encryption

structure ViewingKeypair where
  secret : Bytes32
  publicKey : Bytes32
  deriving DecidableEq

/-- The public key that every note is encrypted with besides its reader's. -/
def complianceOraclePubkey : Bytes32 :=
  ⟨[0xd4, 0x7e, 0xe5, 0xdb, 0xcc, 0xed, 0x12, 0x9e, 0x12, 0x6c, 0x8a, 0x6e, 0x54, 0xd3, 0x69, 0xea,
    0xad, 0x01, 0x25, 0xe5, 0x80, 0xf7, 0x45, 0xef, 0x94, 0xd7, 0x4e, 0xd2, 0x43, 0xb2, 0x36,
    0x78], rfl⟩

section Keys

variable (sha256 : Bytes → Bytes32) (dh : X25519)

/-- A `StaticSecret` with its public key. -/
def ViewingKeypair.ofSecret (secret : Bytes32) : ViewingKeypair := ⟨secret, dh.publicKey secret⟩

/-- `ViewingKeypair::from_spending_key`. -/
def ViewingKeypair.fromSpendingKey (spendingKey : Bytes32) : ViewingKeypair :=
  .ofSecret dh (sha256 ("obscura-viewing-key-v1".toList.flatMap String.utf8EncodeChar ++
    spendingKey.bytes))

/-- `compliance_oracle_keypair`; the constant is compared in a build with debug assertions. -/
def complianceOracleKeypair (debugAssertions : Bool) : Outcome ViewingKeypair := do
  let keypair := ViewingKeypair.ofSecret dh
    (sha256 ("obscura-compliance-oracle-testnet-v1-secret".toList.flatMap String.utf8EncodeChar))
  ensure (debugAssertions = true → keypair.publicKey = complianceOraclePubkey)
    (.panic "Compliance oracle pubkey mismatch — update COMPLIANCE_ORACLE_PUBKEY constant")
  pure keypair

end Keys

/-- The constant is the public key of the seed's secret key. -/
theorem oracle_key_matches (debugAssertions : Bool) :
    ∃ secret, complianceOracleKeypair ObscuraNetwork.sha256 Curve25519.dalek debugAssertions =
      .ok ⟨secret, complianceOraclePubkey⟩ := by
  have hkey : Curve25519.dalek.publicKey (ObscuraNetwork.sha256
      ("obscura-compliance-oracle-testnet-v1-secret".toList.flatMap String.utf8EncodeChar)) =
      complianceOraclePubkey := by
    decide +kernel
  refine ⟨ObscuraNetwork.sha256
    ("obscura-compliance-oracle-testnet-v1-secret".toList.flatMap String.utf8EncodeChar), ?_⟩
  rw [complianceOracleKeypair, ViewingKeypair.ofSecret, hkey, ensure_true (fun _ => rfl), ok_bind]
  rfl

theorem oracleKeypair_checked {sha256 : Bytes → Bytes32} {dh : X25519} {oracle : ViewingKeypair}
    (h : complianceOracleKeypair sha256 dh true = .ok oracle) :
    dh.publicKey oracle.secret = complianceOraclePubkey := by
  obtain ⟨_, hmatches, h⟩ := bind_ok.mp h
  obtain rfl := pure_ok.mp h
  exact ensure_ok.mp hmatches rfl

/-- What the content says of the note. -/
structure Describes (content : NoteContent) (note : Note) : Prop where
  amount : content.amount = note.amount
  assetId : content.assetId = note.assetId.id
  salt : content.salt = note.salt

/-- The note that its owner puts together again from the content. -/
def NoteContent.toNote (content : NoteContent) (ownerPubkey : Bytes) : Note :=
  ⟨content.amount, ⟨content.assetId⟩, ownerPubkey, content.salt⟩

theorem Describes.toNote_eq {content : NoteContent} {note : Note} (h : Describes content note) :
    content.toNote note.ownerPubkey = note := by
  rw [NoteContent.toNote, h.amount, h.assetId, h.salt]

theorem length_encryptNote (sha256 : Bytes → Bytes32) (dh : X25519) (ephSk recipientPk : Bytes32)
    (plaintext : Bytes) :
    (encryptNote sha256 dh ephSk plaintext recipientPk).length =
      encryptionOverhead + plaintext.length := by
  simp only [encryptNote, List.length_append, FixedBytes.length_bytes, length_streamXor,
    encryptionOverhead]

/-- A created note is read back from the bytes that it is stored as. -/
theorem created_read_back (sha256 : Bytes → Bytes32) (dh : X25519) (content : NoteContent)
    (recipientPk oraclePk ephSk ephSk' : Bytes32) :
    let e := EncryptedNote.create sha256 dh content recipientPk oraclePk ephSk ephSk'
    EncryptedNote.fromBytes e.toBytes = .ok e := by
  intro e
  have hrecipient : e.encForRecipient.length < 65536 := by
    rw [show e.encForRecipient = encryptNote sha256 dh ephSk content.toBytes recipientPk from rfl,
      length_encryptNote, length_toBytes, encryptionOverhead]
    omega
  have hcompliance : e.encForCompliance.length < 65536 := by
    rw [show e.encForCompliance = encryptNote sha256 dh ephSk' content.toBytes oraclePk from rfl,
      length_encryptNote, length_toBytes, encryptionOverhead]
    omega
  rw [← List.append_nil e.toBytes]
  exact fromBytes_written hrecipient hcompliance []

section Readers

variable (sha256 : Bytes → Bytes32) {dh : X25519} (content : NoteContent) {ephSk sk : Bytes32}

theorem recipient_reads (h : dh.Commutes ephSk sk) (oraclePk ephSk' : Bytes32) :
    (EncryptedNote.create sha256 dh content (dh.publicKey sk) oraclePk ephSk
      ephSk').decryptAsRecipient sha256 dh sk = .ok content := by
  have hread : decryptNote sha256 dh (EncryptedNote.create sha256 dh content (dh.publicKey sk)
      oraclePk ephSk ephSk').encForRecipient sk = .ok content.toBytes :=
    decrypt_own h content.toBytes
  rw [EncryptedNote.decryptAsRecipient, hread, ok_bind, fromBytes_toBytes]

theorem oracle_reads (h : dh.Commutes ephSk sk) (recipientPk ephSk' : Bytes32) :
    (EncryptedNote.create sha256 dh content recipientPk (dh.publicKey sk) ephSk'
      ephSk).decryptAsOracle sha256 dh sk = .ok content := by
  have hread : decryptNote sha256 dh (EncryptedNote.create sha256 dh content recipientPk
      (dh.publicKey sk) ephSk' ephSk).encForCompliance sk = .ok content.toBytes :=
    decrypt_own h content.toBytes
  rw [EncryptedNote.decryptAsOracle, hread, ok_bind, fromBytes_toBytes]

end Readers

end Encryption

section Stored

variable {b : Build} {commitment : Commitment} {blob : Bytes} {tx : Tx}

theorem lastBlob_mem {pairs : List (Commitment × Bytes)}
    (h : lastBlob commitment pairs = some blob) :
    (commitment, blob) ∈ pairs := by
  obtain ⟨pair, hpair, hblob⟩ := Option.map_eq_some_iff.mp h
  obtain ⟨hmem, hcommitment⟩ := List.mem_filter.mp (List.mem_of_getLast? hpair)
  have hfields : pair = (commitment, blob) :=
    Prod.ext (of_decide_eq_true hcommitment).1 hblob
  exact hfields ▸ hmem

/-- A transaction stores blobs for commitments that it adds. -/
theorem pairedBlobs_inserted (h : (commitment, blob) ∈ pairedBlobs b tx) :
    commitment ∈ insertedCommitments b tx := by
  obtain ⟨ctx, call⟩ := tx
  cases call with
  | obscuraBridge msg => exact absurd h List.not_mem_nil
  | obscuraPrivacy msg =>
    cases msg with
    | shield msg =>
      simp only [pairedBlobs] at h
      simp only [insertedCommitments]
      cases hnote : Commitment.fromNote b.sha256 msg.note with
      | error e =>
        rw [hnote] at h
        exact absurd h List.not_mem_nil
      | ok c =>
        rw [hnote] at h
        obtain ⟨rfl, _⟩ := Prod.mk.inj (List.mem_singleton.mp h)
        exact List.mem_singleton.mpr rfl
    | transfer msg => exact (List.of_mem_zip h).1
    | unshield msg => exact absurd h List.not_mem_nil
    | updateSanctionsRoot msg => exact absurd h List.not_mem_nil

variable {config : BridgeConfig} {txs : List Tx} {s' : Runtime}

theorem accepted_stores (haccepted : Runtime.call b tx (Runtime.run b config txs) = .ok s')
    (hblob : lastBlob commitment (pairedBlobs b tx) = some blob) :
    (Runtime.run b config (txs ++ [tx])).obscuraPrivacy.encryptedNotes (noteKey commitment) =
        some blob ∧
      commitment ∈ (Runtime.run b config (txs ++ [tx])).obscuraPrivacy.commitments := by
  have hstep := Runtime.step_of_call_ok haccepted
  rw [Runtime.run_concat, settle_ok haccepted]
  refine ⟨?_, ?_⟩
  · rw [step_notes hstep, writeNotes_lookup, hblob]
    rfl
  · rw [step_commitments hstep]
    exact List.mem_append_right _ (pairedBlobs_inserted (lastBlob_mem hblob))

/-- A blob that every accepted transaction repeats stays stored. -/
theorem blob_kept {later : List Tx}
    (hstored : (Runtime.run b config txs).obscuraPrivacy.encryptedNotes (noteKey commitment) =
      some blob)
    (hkept : EveryStep (settle (Runtime.call b)) (RepeatsBlob b commitment blob)
      (Runtime.run b config txs) later) :
    (Runtime.run b config (txs ++ later)).obscuraPrivacy.encryptedNotes (noteKey commitment) =
      some blob := by
  have hrun : Runtime.run b config (txs ++ later) =
      later.foldl (settle (Runtime.call b)) (Runtime.run b config txs) :=
    settleAll_append _ txs later
  rw [hrun]
  exact (everyStep_iff_forall_initial (settle_keeps_note_iff b commitment blob) hstored).mp hkept
    later List.prefix_rfl

end Stored

open Encryption ObscuraPrivacy

/-- The owner finds the note, reads it and proves that it spends it, all with one key; the oracle
reads it too. -/
structure Recovered (b : Build) (dh : X25519) (spendingKey : Bytes32) (oracle : ViewingKeypair)
    (note : Note) (commitment : Commitment) (content : NoteContent) (s : ObscuraPrivacy) :
    Prop where
  inserted : commitment ∈ s.commitments
  read : ∃ blob e, s.encryptedNotes (noteKey commitment) = some blob ∧
    EncryptedNote.fromBytes blob = .ok e ∧
    e.decryptAsRecipient b.sha256 dh
      (ViewingKeypair.fromSpendingKey b.sha256 dh spendingKey).secret = .ok content ∧
    e.decryptAsOracle b.sha256 dh oracle.secret = .ok content
  rebuilt : Commitment.fromNote b.sha256 (content.toNote note.ownerPubkey) = .ok commitment
  proved : unshieldMain b.sha256 ⟨spendingKey, (content.toNote note.ownerPubkey).toData⟩ =
    .ok ⟨(Nullifier.compute b.sha256 spendingKey commitment).hash, note.amount, note.assetId.id⟩

/-- In a reachable state an unshield with a valid proof is refused only for its nullifier. -/
theorem unshield_accepted_iff (b : Build) (config : BridgeConfig) (txs : List Tx)
    {msg : UnshieldMessage} (hproof : verifyUnshieldProof b msg.proof msg.publicInputs = .ok ()) :
    (∃ s', handleUnshield b msg (Runtime.run b config txs).obscuraPrivacy = .ok s') ↔
      msg.nullifier ∉ consumedNullifiers (Runtime.acceptedTxs b config txs) := by
  obtain ⟨hspent, _⟩ := run_nullifiers b config txs
  rw [← hspent msg.nullifier, Bool.not_eq_true]
  constructor
  · intro h
    obtain ⟨s', hs'⟩ := h
    exact (handleUnshield_ok.mp hs').2.1
  · intro h
    exact ⟨_, handleUnshield_ok.mpr ⟨hproof, h, rfl⟩⟩

/-- A note that an accepted transaction pays out with a blob made for its owner is found, read and
spent with the spending key alone in every later state, as long as no transaction stores another
blob for its commitment and its nullifier has not been used. -/
theorem paid_note_recovered (b : Build) (config : BridgeConfig) (dh : X25519) (txs later : List Tx)
    {tx : Tx} {s' : Runtime} (haccepted : Runtime.call b tx (Runtime.run b config txs) = .ok s')
    {note : Note} {commitment : Commitment} {content : NoteContent}
    {spendingKey ephSk ephSk' : Bytes32} {oracle : ViewingKeypair} {blob : Bytes}
    (hnote : Commitment.fromNote b.sha256 note = .ok commitment) (hcontent : Describes content note)
    (horacle : complianceOracleKeypair b.sha256 dh true = .ok oracle)
    (hcreated : blob = (EncryptedNote.create b.sha256 dh content
      (ViewingKeypair.fromSpendingKey b.sha256 dh spendingKey).publicKey complianceOraclePubkey
      ephSk ephSk').toBytes)
    (hblob : lastBlob commitment (pairedBlobs b tx) = some blob)
    (hviewing : dh.Commutes ephSk
      (ViewingKeypair.fromSpendingKey b.sha256 dh spendingKey).secret)
    (hcommutes : dh.Commutes ephSk' oracle.secret)
    (hkept : EveryStep (settle (Runtime.call b)) (RepeatsBlob b commitment blob)
      (Runtime.run b config (txs ++ [tx])) later) :
    let s := (Runtime.run b config (txs ++ [tx] ++ later)).obscuraPrivacy
    Recovered b dh spendingKey oracle note commitment content s ∧
      ∀ msg, verifyUnshieldProof b msg.proof msg.publicInputs = .ok () →
        msg.nullifier = Nullifier.compute b.sha256 spendingKey commitment →
        ((∃ s'', handleUnshield b msg s = .ok s'') ↔
          Nullifier.compute b.sha256 spendingKey commitment ∉
            consumedNullifiers (Runtime.acceptedTxs b config (txs ++ [tx] ++ later))) := by
  intro s
  obtain ⟨hstored, hinserted⟩ := accepted_stores haccepted hblob
  have hlater := blob_kept hstored hkept
  have hmem := (run_commitments_kept b config (txs ++ [tx]) later).subset hinserted
  have hpubkey := oracleKeypair_checked horacle
  have hrecipient := recipient_reads b.sha256 content hviewing complianceOraclePubkey ephSk'
  have hcompliance := oracle_reads b.sha256 content hcommutes
    (ViewingKeypair.fromSpendingKey b.sha256 dh spendingKey).publicKey ephSk
  rw [hpubkey] at hcompliance
  obtain ⟨hamount, hkey, hhash⟩ := Commitment.fromNote_ok.mp hnote
  refine ⟨⟨hmem, ⟨blob, _, hlater, ?_, hrecipient, hcompliance⟩, ?_, ?_⟩, ?_⟩
  · rw [hcreated]
    exact created_read_back b.sha256 dh content _ _ ephSk ephSk'
  · rw [hcontent.toNote_eq, hnote]
  · rw [hcontent.toNote_eq, hhash]
    exact unshieldMain_ok.mpr ⟨UInt64.pos_iff_ne_zero.mpr hamount, hkey, rfl⟩
  · intro msg hproof hnullifier
    rw [← hnullifier]
    exact unshield_accepted_iff b config _ hproof

section Sample

def paidContent : NoteContent := ⟨1, zeroBytes, zeroBytes, FixedBytes.replicate 64 0⟩

def paidKey : ViewingKeypair := .fromSpendingKey sha256 Curve25519.dalek zeroBytes

def paidBlob : Bytes :=
  (EncryptedNote.create sha256 Curve25519.dalek paidContent paidKey.publicKey
    complianceOraclePubkey (FixedBytes.replicate 32 6) (FixedBytes.replicate 32 7)).toBytes

def paidTx : Tx := ⟨⟨[], 0⟩, .obscuraPrivacy (.shield ⟨unitNote unitOwner, paidBlob⟩)⟩

theorem paidTx_accepted : ∃ s', Runtime.call .default paidTx (Runtime.run .default .default []) =
    .ok s' := by
  have hchecks : ShieldChecks ⟨unitNote unitOwner, paidBlob⟩ (ObscuraPrivacy.genesis .default) :=
    ⟨by decide, by decide, by decide⟩
  obtain ⟨hno, _⟩ | ⟨_, t, _, hshield⟩ :=
    handleShield_spec (genesis_tree_faithful .default) ⟨unitNote unitOwner, paidBlob⟩
  · exact absurd hchecks hno
  · exact ⟨_, bind_ok.mpr ⟨_, hshield, rfl⟩⟩

def paidCommitment : Commitment := ⟨sha256 (noteMessage 1 zeroBytes unitOwner zeroBytes)⟩

/-- A transfer pays someone else, and the same note is paid again. -/
def paidLater : List Tx :=
  [⟨⟨[], 0⟩, .obscuraPrivacy (.transfer { idleTransfer with
      nullifiers := [⟨FixedBytes.replicate 32 9⟩]
      outputCommitments := [⟨FixedBytes.replicate 32 8⟩]
      encryptedOutputs := [[1]] })⟩,
    paidTx]

theorem paidTx_lastBlob :
    lastBlob paidCommitment (pairedBlobs .default paidTx) = some paidBlob := by
  have hnote : Commitment.fromNote Build.default.sha256 (unitNote unitOwner) =
      .ok paidCommitment := Commitment.fromNote_ok.mpr ⟨by decide, by decide, rfl⟩
  have hne : paidBlob ≠ [] := List.append_ne_nil_of_left_ne_nil
    (List.append_ne_nil_of_left_ne_nil (List.append_ne_nil_of_left_ne_nil (by simp [toLeBytes16])
      _) _) _
  simp only [pairedBlobs, paidTx, hnote, lastBlob]
  rw [List.filter_singleton, decide_eq_true ⟨rfl, hne⟩]
  rfl

theorem paidLater_repeats (s : Runtime) :
    EveryStep (settle (Runtime.call .default)) (RepeatsBlob .default paidCommitment paidBlob) s
      paidLater := by
  refine ⟨fun _ blob hblob => ?_, fun _ blob hblob => ?_, trivial⟩
  · have hother : (⟨FixedBytes.replicate 32 8⟩ : Commitment) ≠ paidCommitment := by decide +kernel
    obtain ⟨heq, _⟩ := Prod.mk.inj (List.mem_singleton.mp (lastBlob_mem hblob))
    exact absurd heq.symm hother
  · rw [paidTx_lastBlob] at hblob
    exact (Option.some.inj hblob).symm

theorem paid_unspent : Nullifier.compute sha256 zeroBytes paidCommitment ∉
    consumedNullifiers (Runtime.acceptedTxs .default .default ([] ++ [paidTx] ++ paidLater)) := by
  intro h
  obtain ⟨tx, htx, hconsumed⟩ := List.mem_flatMap.mp h
  have hsubmitted := (accepted_sublist _ _).subset htx
  have hnullifier : ∀ tx ∈ [] ++ [paidTx] ++ paidLater, ∀ nullifier ∈ tx.consumedNullifiers,
      nullifier = ⟨FixedBytes.replicate 32 9⟩ := by
    simp [paidTx, paidLater, Tx.consumedNullifiers]
  have hother : Nullifier.compute sha256 zeroBytes paidCommitment ≠
      ⟨FixedBytes.replicate 32 9⟩ := by decide +kernel
  exact hother (hnullifier tx hsubmitted _ hconsumed)

/-- After three accepted transactions the owner recovers the note, and any valid unshield of it is
accepted. -/
theorem paid_note_recovered_later :
    let s := (Runtime.run .default .default ([] ++ [paidTx] ++ paidLater)).obscuraPrivacy
    s.commitments.length = 3 ∧
      (∃ oracle, Recovered .default Curve25519.dalek zeroBytes oracle (unitNote unitOwner)
        paidCommitment paidContent s) ∧
      ∀ msg, verifyUnshieldProof .default msg.proof msg.publicInputs = .ok () →
        msg.nullifier = Nullifier.compute sha256 zeroBytes paidCommitment →
        ∃ s'', handleUnshield .default msg s = .ok s'' := by
  intro s
  obtain ⟨s', hs'⟩ := paidTx_accepted
  obtain ⟨secret, horacle⟩ := oracle_key_matches true
  have hsecret : secret = sha256
      ("obscura-compliance-oracle-testnet-v1-secret".toList.flatMap String.utf8EncodeChar) := by
    obtain ⟨_, _, h⟩ := bind_ok.mp horacle
    exact (congrArg ViewingKeypair.secret (pure_ok.mp h)).symm
  have hnote : Commitment.fromNote Build.default.sha256 (unitNote unitOwner) =
      .ok paidCommitment := Commitment.fromNote_ok.mpr ⟨by decide, by decide, rfl⟩
  have hviewing : Curve25519.dalek.Commutes (FixedBytes.replicate 32 6)
      (ViewingKeypair.fromSpendingKey sha256 Curve25519.dalek zeroBytes).secret := by
    rw [X25519.Commutes]
    decide +kernel
  have hcommutes : Curve25519.dalek.Commutes (FixedBytes.replicate 32 7) secret := by
    rw [X25519.Commutes, hsecret]
    decide +kernel
  obtain ⟨hrecovered, hspend⟩ := paid_note_recovered .default .default Curve25519.dalek []
    paidLater hs' hnote ⟨rfl, rfl, rfl⟩ horacle rfl paidTx_lastBlob hviewing hcommutes
    (paidLater_repeats _)
  refine ⟨by decide +kernel, ⟨_, hrecovered⟩, ?_⟩
  intro msg hproof hnullifier
  exact (hspend msg hproof hnullifier).mpr paid_unspent

end Sample

end ObscuraNetwork
