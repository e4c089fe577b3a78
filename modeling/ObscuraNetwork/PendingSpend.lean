import ObscuraNetwork.AccountingSteps
import ObscuraNetwork.HonestTransfer
import ObscuraNetwork.NullifierSet
import ObscuraNetwork.RecipientLink
import ObscuraNetwork.TransferGate

namespace ObscuraNetwork

open ObscuraPrivacy

/-- `note_to_data`: the owner key is cut or padded to 32 bytes. -/
def noteToData (note : Note) : NoteData where
  amount := note.amount
  assetId := note.assetId.id
  ownerPubkey := note.ownerPubkey.take 32 ++ List.replicate (32 - note.ownerPubkey.length) 0
  salt := note.salt

/-- `prove_transfer`, with the setup and the proving of the SP1 client as its prover. -/
def proveTransfer (prover : TransferWitness → Outcome Bytes) (spendingKeys : List Bytes32)
    (inputNotes outputNotes : List Note) (merkleRoot : Bytes32) (leafIndices : List UInt64)
    (merklePaths : List (List Bytes32)) : Outcome Bytes := do
  ensure (leafIndices.length = inputNotes.length)
    (.bail "leaf_indices length must match input_notes length")
  ensure (merklePaths.length = inputNotes.length)
    (.bail "merkle_paths length must match input_notes length")
  prover
    { spendingKeys, inputs := inputNotes.map noteToData, outputs := outputNotes.map noteToData
      merkleRoot, leafIndices, merklePaths }

/-- The note with the owner key that the prover is given for it. -/
def Note.keyed (note : Note) : Note := { note with ownerPubkey := (noteToData note).ownerPubkey }

/-- What the handler asks of a transfer under a known root. -/
structure TransferTerms (b : Build) (nowSecs : UInt64) (msg : TransferMessage) (s : ObscuraPrivacy)
    (done : List Tx) : Prop where
  proof : verifyTransferProof b msg.proof msg.publicInputs = .ok ()
  sanctionsProof : verifySanctionsProof b msg.sanctionsProof msg.sanctionsPublicInputs = .ok ()
  sanctionsRoot : s.currentSanctionsRoot = zeroBytes ∨
    msg.sanctionsPublicInputs.sanctionsRoot = s.currentSanctionsRoot
  fresh : tooOld nowSecs msg.sanctionsPublicInputs.proofTimestamp = false
  unspent : ∀ nullifier ∈ msg.nullifiers, nullifier ∉ consumedNullifiers done
  room : s.commitments.length + msg.outputCommitments.length ≤ 2 ^ treeDepth
  counters : b.overflowChecks = true → s.txCount.toNat + 1 < 2 ^ 64 ∧
    s.volume.toNat + msg.publicInputs.transferAmount.toNat < 2 ^ 64

section PendingSpend

variable {b : Build} {config : BridgeConfig} {s : ObscuraPrivacy} {txs later : List Tx}
  {nowSecs : UInt64} {msg : TransferMessage} {note : Note}

theorem noteToData_of_length (h : note.ownerPubkey.length = 32) : noteToData note = note.toData := by
  unfold noteToData Note.toData
  rw [h, Nat.sub_self, List.replicate_zero, List.append_nil, List.take_of_length_le (by omega)]

theorem noteToData_keyed (note : Note) : noteToData note = note.keyed.toData := rfl

theorem addU64_isOk {x y : UInt64} :
    (∃ z, addU64 b x y = .ok z) ↔ (b.overflowChecks = true → x.toNat + y.toNat < 2 ^ 64) := by
  unfold addU64
  split
  next h =>
    have hlarge := h.2
    simp [h.1]
    omega
  next h =>
    have hsmall : b.overflowChecks = true → x.toNat + y.toNat < 2 ^ 64 := by
      intro hchecks
      by_contra hlarge
      exact h ⟨hchecks, by omega⟩
    exact iff_of_true ⟨_, rfl⟩ hsmall

theorem updateCompliance_isOk {amount : UInt64} :
    (∃ s', updateCompliance b amount s = .ok s') ↔ (b.overflowChecks = true →
      s.txCount.toNat + 1 < 2 ^ 64 ∧ s.volume.toNat + amount.toNat < 2 ^ 64) := by
  have hcount := addU64_isOk (b := b) (x := s.txCount) (y := 1)
  have hvolume := addU64_isOk (b := b) (x := s.volume) (y := amount)
  rw [UInt64.toNat_one] at hcount
  rw [forall_and, ← hcount, ← hvolume]
  simp only [updateCompliance, bind_ok, pure_ok, txCount, volume]
  constructor
  · intro h
    obtain ⟨_, count, hc, total, hv, _⟩ := h
    exact ⟨⟨count, hc⟩, ⟨total, hv⟩⟩
  · intro h
    obtain ⟨⟨count, hc⟩, ⟨total, hv⟩⟩ := h
    exact ⟨_, count, hc, total, hv, rfl⟩

/-- In every reachable state a transfer under a recent root is accepted exactly on the terms. -/
theorem transfer_accepted_iff
    (hroot : RecentRoot b (Runtime.run b config txs).obscuraPrivacy.tree.leaves
      msg.publicInputs.merkleRoot) :
    (∃ s', handleTransfer b nowSecs msg (Runtime.run b config txs).obscuraPrivacy = .ok s') ↔
      TransferTerms b nowSecs msg (Runtime.run b config txs).obscuraPrivacy
        (Runtime.acceptedTxs b config txs) := by
  obtain ⟨hs, hroots⟩ := run_keepsRoots b config txs
  obtain ⟨hspent, _⟩ := run_nullifiers b config txs
  generalize Runtime.acceptedTxs b config txs = done at hspent ⊢
  generalize (Runtime.run b config txs).obscuraPrivacy = s at hroot hs hroots hspent ⊢
  have hknown : s.isKnownRoot msg.publicInputs.merkleRoot = true :=
    (isKnownRoot_iff hs hroots _).mpr hroot
  have hunspent : ∀ n, s.isSpent n = false ↔ n ∉ consumedNullifiers done := by
    intro n
    rw [← hspent n, Bool.not_eq_true]
  rcases handleTransfer_spec hs nowSecs msg with ⟨hno, hrefused⟩ | ⟨hyes, t, ht, heq⟩
  · refine iff_of_false (fun h => ?_) (fun h => hno ⟨⟨?_, h.fresh, h.sanctionsProof, ?_⟩, h.room⟩)
    · obtain ⟨s', hs'⟩ := h
      exact hrefused.ne_ok s' hs'
    · simp only [transferRootChecks, bind_ok, ensure_ok]
      exact ⟨(), Or.inr hknown, (), h.proof, h.sanctionsRoot⟩
    · intro n hn
      exact (hunspent n).mpr (h.unspent n hn)
  · rw [heq, updateCompliance_isOk, ht.txCount, ht.volume]
    obtain ⟨checks, hroom⟩ := hyes
    have hchecks := checks.roots
    simp only [transferRootChecks, bind_ok, ensure_ok] at hchecks
    obtain ⟨_, _, _, hproof, hsanctions⟩ := hchecks
    constructor
    · intro hcounters
      exact ⟨hproof, checks.sanctions, hsanctions, checks.fresh,
        fun n hn => (hunspent n).mp (checks.unspent n hn), hroom, hcounters⟩
    · intro h
      exact h.counters

variable (b config txs) in
/-- A run only appends leaves. -/
theorem run_commitments_kept (later : List Tx) :
    (Runtime.run b config txs).obscuraPrivacy.commitments <+:
      (Runtime.run b config (txs ++ later)).obscuraPrivacy.commitments := by
  induction later using List.reverseRecOn with
  | nil => exact (List.append_nil txs).symm ▸ List.prefix_refl _
  | append_singleton later tx ih =>
    rw [← List.append_assoc, Runtime.run_concat]
    cases h : Runtime.call b tx (Runtime.run b config (txs ++ later)) with
    | error e =>
      rw [settle_error h]
      exact ih
    | ok s' =>
      rw [settle_ok h, step_commitments (Runtime.step_of_call_ok h)]
      exact ih.trans (List.prefix_append _ _)

/-- The root over the leaves of a state is known for the next 99 insertions. -/
theorem recentRoot_later (hne : (Runtime.run b config txs).obscuraPrivacy.commitments ≠ [])
    (hrecent : (Runtime.run b config (txs ++ later)).obscuraPrivacy.commitments.length <
      (Runtime.run b config txs).obscuraPrivacy.commitments.length + 100) :
    RecentRoot b (Runtime.run b config (txs ++ later)).obscuraPrivacy.tree.leaves
      (fullRoot b.sha256
        ((Runtime.run b config txs).obscuraPrivacy.commitments.map Commitment.hash)) := by
  have hprefix := run_commitments_kept b config txs later
  have hle := hprefix.length_le
  have hleaves : (Runtime.run b config (txs ++ later)).obscuraPrivacy.tree.leaves =
      (Runtime.run b config (txs ++ later)).obscuraPrivacy.commitments.map Commitment.hash := rfl
  refine ⟨(Runtime.run b config txs).obscuraPrivacy.commitments.length,
    List.length_pos_iff.mpr hne, ?_, ?_, ?_⟩
  · rwa [hleaves, List.length_map]
  · rwa [hleaves, List.length_map]
  · rw [hleaves, ← List.map_take, ← List.prefix_iff_eq_take.mp hprefix]

/-- The prover is given the witness of honest spends to the keyed outputs. -/
theorem proveTransfer_eq (prover : TransferWitness → Outcome Bytes) {leaves : List Commitment}
    {spends : List Spend} {outputs : List Note}
    (honest : HonestSpends b.sha256 leaves spends outputs)
    (paths : List (List Bytes32)) (root : Bytes32) :
    proveTransfer prover (spends.map Spend.spendingKey) (spends.map Spend.note) outputs root
        (spends.map Spend.leafIndex) (spends.map fun spend => paths.getD spend.leafIndex.toNat []) =
      prover (honestWitness paths root spends (outputs.map Note.keyed)) := by
  have hinputs : (spends.map Spend.note).map noteToData =
      spends.map fun spend => spend.note.toData := by
    rw [List.map_map]
    apply List.map_congr_left
    intro spend hspend
    obtain ⟨commitment, hcommitment, _⟩ := honest.inserted spend hspend
    exact noteToData_of_length (Commitment.fromNote_ok.mp hcommitment).2.1
  have houtputs : outputs.map noteToData = (outputs.map Note.keyed).map Note.toData := by
    rw [List.map_map]
    exact List.map_congr_left fun note _ => noteToData_keyed note
  unfold proveTransfer
  rw [ensure_true (by simp), ensure_true (by simp), ok_bind, ok_bind, hinputs, houtputs]
  rfl

/-- The owner keys of the outputs play no part in what makes spends honest. -/
theorem HonestSpends.keyed {leaves : List Commitment} {spends : List Spend} {outputs : List Note}
    (h : HonestSpends b.sha256 leaves spends outputs) :
    HonestSpends b.sha256 leaves spends (outputs.map Note.keyed) where
  someInput := h.someInput
  someOutput := by simpa using h.someOutput
  inserted := h.inserted
  oneAsset := by
    obtain ⟨asset, hinputs, houtputs⟩ := h.oneAsset
    refine ⟨asset, hinputs, ?_⟩
    intro note hnote
    obtain ⟨output, houtput, rfl⟩ := List.mem_map.mp hnote
    exact houtputs output houtput
  nonzero := by
    intro note hnote
    obtain ⟨output, houtput, rfl⟩ := List.mem_map.mp hnote
    exact h.nonzero output houtput
  balance := by
    rw [h.balance, List.map_map]
    rfl
  fits := h.fits

end PendingSpend

/-- A transfer that is proved against the leaves of one state is accepted by every later state with
fewer than 100 more leaves exactly when its nullifiers are unused and the other terms hold. -/
theorem spend_accepted_later (b : Build) (config : BridgeConfig) (txs later : List Tx)
    {spends : List Spend} {outputs : List Note}
    (honest : HonestSpends b.sha256 (Runtime.run b config txs).obscuraPrivacy.commitments spends
      outputs)
    (hrecent : (Runtime.run b config (txs ++ later)).obscuraPrivacy.commitments.length <
      (Runtime.run b config txs).obscuraPrivacy.commitments.length + 100) :
    let leaves := (Runtime.run b config txs).obscuraPrivacy.commitments.map Commitment.hash
    let root := fullRoot b.sha256 leaves
    let s := (Runtime.run b config (txs ++ later)).obscuraPrivacy
    ∃ paths witness out, buildProofPaths b.sha256 leaves = .ok paths ∧
      (∀ prover, proveTransfer prover (spends.map Spend.spendingKey) (spends.map Spend.note) outputs
        root (spends.map Spend.leafIndex)
        (spends.map fun spend => paths.getD spend.leafIndex.toNat []) = prover witness) ∧
      transferMain b.sha256 witness = .ok out ∧
      HonestOutputs b.sha256 spends (outputs.map Note.keyed) root out ∧
      ∀ nowSecs msg, CarriesTransfer msg out →
        ((∃ s', handleTransfer b nowSecs msg s = .ok s') ↔
          TransferTerms b nowSecs msg s (Runtime.acceptedTxs b config (txs ++ later))) := by
  intro leaves root s
  have hfits := (run_faithful b config txs).fits
  have hroom : (Runtime.run b config txs).obscuraPrivacy.commitments.length ≤ 2 ^ treeDepth := hfits
  have hlen : leaves.length ≤ 2 ^ treeDepth := by rwa [List.length_map]
  obtain ⟨paths, hpaths, _, hspec⟩ := buildProofPaths_spec b.sha256 hlen
  have hsiblings : ∀ i < (Runtime.run b config txs).obscuraPrivacy.commitments.length,
      paths.getD i [] = siblingsFrom (hashPair b.sha256) (treeLeaf leaves) 0 i treeDepth := by
    intro i hi
    exact hspec i (by rwa [List.length_map])
  obtain ⟨out, hout, hhonest⟩ := honest_accepted hroom hsiblings honest.keyed
  have hne : (Runtime.run b config txs).obscuraPrivacy.commitments ≠ [] := by
    obtain ⟨spend, hspend⟩ := List.exists_mem_of_ne_nil _ honest.someInput
    obtain ⟨_, _, hleaf⟩ := honest.inserted spend hspend
    exact List.ne_nil_of_mem (List.mem_of_getElem? hleaf)
  refine ⟨paths, _, out, hpaths, fun prover => proveTransfer_eq prover honest paths root, hout,
    hhonest, ?_⟩
  intro nowSecs msg hcarries
  apply transfer_accepted_iff
  rw [hcarries.publicInputs, hhonest.merkleRoot]
  exact recentRoot_later hne hrecent

def unitShield : Tx := ⟨⟨[], 0⟩, .obscuraPrivacy (.shield ⟨unitNote unitOwner, []⟩)⟩

theorem unitShield_commitments :
    (Runtime.run .default .default [unitShield]).obscuraPrivacy.commitments =
      [⟨sha256 (noteMessage 1 zeroBytes unitOwner zeroBytes)⟩] := rfl

/-- The shielded unit is spent after the same note is shielded once more. -/
theorem spend_accepted_later_unit :
    ∃ out, HonestOutputs sha256 [⟨unitNote unitOwner, 0, zeroBytes⟩] [(unitNote unitOwner).keyed]
        (fullRoot sha256 [sha256 (noteMessage 1 zeroBytes unitOwner zeroBytes)]) out ∧
      ∀ nowSecs msg, CarriesTransfer msg out →
        let s := (Runtime.run .default .default ([unitShield] ++ [unitShield])).obscuraPrivacy
        ((∃ s', handleTransfer .default nowSecs msg s = .ok s') ↔
          TransferTerms .default nowSecs msg s
            (Runtime.acceptedTxs .default .default ([unitShield] ++ [unitShield]))) := by
  have honest := unit_honest sha256 unitOwner
  rw [← unitShield_commitments] at honest
  obtain ⟨_, _, out, _, _, _, hhonest, haccepted⟩ :=
    spend_accepted_later .default .default [unitShield] [unitShield] honest (by decide)
  exact ⟨out, hhonest, haccepted⟩

end ObscuraNetwork
