import ObscuraNetwork.BridgeKeys
import ObscuraNetwork.InsertedLeaves

namespace ObscuraNetwork

open ObscuraPrivacy

def noteKey (commitment : Commitment) : String := "0x" ++ hexEncode commitment.hash.bytes

theorem noteKey_injective : Function.Injective noteKey := by
  intro c c' h
  have hhash : c.hash = c'.hash := blockKey_injective h
  cases c
  cases c'
  exact congrArg Commitment.mk hhash

/-- The commitments of a transaction with the blobs that come with them. -/
def pairedBlobs (b : Build) (tx : Tx) : List (Commitment × Bytes) :=
  match tx.call with
  | .obscuraPrivacy (.shield msg) =>
    match Commitment.fromNote b.sha256 msg.note with
    | .ok commitment => [(commitment, msg.encryptedNote)]
    | .error _ => []
  | .obscuraPrivacy (.transfer msg) => msg.outputCommitments.zip msg.encryptedOutputs
  | _ => []

/-- The last blob that comes with the commitment and is not empty. -/
def lastBlob (commitment : Commitment) (pairs : List (Commitment × Bytes)) : Option Bytes :=
  (pairs.filter fun p => p.1 = commitment ∧ p.2 ≠ []).getLast?.map Prod.snd

section Steps

def writeNote (notes : StateMap String Bytes) (p : Commitment × Bytes) : StateMap String Bytes :=
  if p.2 = [] then notes else notes.set (noteKey p.1) p.2

theorem storeEncryptedNote_notes (commitment : Commitment) (blob : Bytes) (s : ObscuraPrivacy) :
    (s.storeEncryptedNote commitment blob).encryptedNotes =
      writeNote s.encryptedNotes (commitment, blob) := by
  unfold storeEncryptedNote writeNote
  split <;> rfl

theorem writeNotes_lookup (commitment : Commitment) (pairs : List (Commitment × Bytes))
    (notes : StateMap String Bytes) :
    pairs.foldl writeNote notes (noteKey commitment) =
      (lastBlob commitment pairs).or (notes (noteKey commitment)) := by
  induction pairs using List.reverseRecOn with
  | nil => rfl
  | append_singleton pairs p ih =>
    rw [List.foldl_append, List.foldl_cons, List.foldl_nil, writeNote, lastBlob, List.filter_append]
    by_cases hempty : p.2 = []
    · have hskip : ¬(p.1 = commitment ∧ p.2 ≠ []) := fun h => h.2 hempty
      rw [if_pos hempty, ih, List.filter_singleton, decide_eq_false hskip, lastBlob]
      simp
    · rw [if_neg hempty]
      by_cases hother : p.1 = commitment
      · rw [hother, StateMap.set_self, List.filter_singleton, decide_eq_true ⟨hother, hempty⟩]
        simp
      · have hskip : ¬(p.1 = commitment ∧ p.2 ≠ []) := fun h => hother h.1
        have hkey : noteKey commitment ≠ noteKey p.1 :=
          fun h => hother (noteKey_injective h).symm
        rw [StateMap.set_of_ne _ _ hkey, ih, List.filter_singleton, decide_eq_false hskip, lastBlob]
        simp

variable {b : Build}

theorem insertCommitment_notes {commitment : Commitment} {s s' : ObscuraPrivacy}
    (h : insertCommitment b commitment (s.pushCommitment commitment) = .ok s') :
    s'.encryptedNotes = s.encryptedNotes := by
  obtain ⟨_, rfl⟩ := insertCommitment_ok h
  rfl

theorem storeOutputs_notes {encryptedOutputs : List Bytes} {i : Nat} {outputs : List Commitment}
    {s s' : ObscuraPrivacy} (h : storeOutputs b encryptedOutputs i outputs s = .ok s') :
    s'.encryptedNotes =
      (outputs.zip (encryptedOutputs.drop i)).foldl writeNote s.encryptedNotes := by
  induction outputs generalizing i s with
  | nil =>
    simp only [storeOutputs, pure_ok] at h
    rw [h]
    rfl
  | cons commitment rest ih =>
    obtain ⟨t, u, ht, _, _, hu, hrest⟩ := storeOutputs_cons_ok.mp h
    rw [ih hrest, hu]
    cases hblob : encryptedOutputs[i]? with
    | none =>
      have hend : encryptedOutputs.length ≤ i := List.getElem?_eq_none_iff.mp hblob
      rw [List.drop_eq_nil_of_le hend, List.drop_eq_nil_of_le (by omega), List.zip_nil_right,
        List.zip_nil_right]
      exact insertCommitment_notes ht
    | some blob =>
      obtain ⟨hi, hget⟩ := List.getElem?_eq_some_iff.mp hblob
      rw [List.drop_eq_getElem_cons hi, hget, List.zip_cons_cons, List.foldl_cons,
        ← insertCommitment_notes ht, ← storeEncryptedNote_notes]

theorem step_notes {s s' : Runtime} {tx : Tx} (h : Runtime.Step b s tx s') :
    s'.obscuraPrivacy.encryptedNotes =
      (pairedBlobs b tx).foldl writeNote s.obscuraPrivacy.encryptedNotes := by
  cases h with
  | shield ctx msg privacy h =>
    obtain ⟨commitment, t, total, hnote, ht, _, rfl⟩ := handleShield_ok.mp h
    have hpairs : pairedBlobs b ⟨ctx, .obscuraPrivacy (.shield msg)⟩ =
        [(commitment, msg.encryptedNote)] := by
      simp only [pairedBlobs, hnote]
    rw [hpairs, List.foldl_cons, List.foldl_nil, ← insertCommitment_notes ht,
      ← storeEncryptedNote_notes]
    rfl
  | transfer ctx msg privacy h =>
    obtain ⟨_, t, ht, hc⟩ := handleTransfer_ok.mp h
    have hmarked : (s.obscuraPrivacy.markAllSpent msg.nullifiers).encryptedNotes =
        s.obscuraPrivacy.encryptedNotes := by
      rw [markAllSpent_eq]
    rw [updateCompliance_ok hc, pairedBlobs, ← hmarked]
    exact storeOutputs_notes ht
  | unshield ctx msg privacy h =>
    obtain ⟨_, _, rfl⟩ := handleUnshield_ok.mp h
    rfl
  | updateSanctionsRoot ctx msg privacy h =>
    rw [handleUpdateSanctionsRoot_ok h]
    rfl
  | claimDeposit ctx claim s' h =>
    obtain ⟨_, privacy, _, _, _, hp, _, _, _, rfl⟩ := ObscuraBridge.handleClaimDeposit_ok.mp h
    have hkept : privacy.encryptedNotes = _ := insertCommitment_notes hp
    exact hkept
  | withdrawBridge ctx msg bridge h => rfl
  | updateHeliosHead ctx update bridge h => rfl

end Steps

/-- If the transaction is accepted, the last blob it stores for the commitment is the old one. -/
def RepeatsBlob (b : Build) (commitment : Commitment) (blob : Bytes) (s : Runtime) (tx : Tx) :
    Prop :=
  (Runtime.call b tx s).isOk = true →
    ∀ blob', lastBlob commitment (pairedBlobs b tx) = some blob' → blob' = blob

theorem settle_keeps_note_iff (b : Build) (commitment : Commitment) (blob : Bytes) (s : Runtime)
    (tx : Tx) (h : s.obscuraPrivacy.encryptedNotes (noteKey commitment) = some blob) :
    (settle (Runtime.call b) s tx).obscuraPrivacy.encryptedNotes (noteKey commitment) = some blob ↔
      RepeatsBlob b commitment blob s tx := by
  cases hcall : Runtime.call b tx s with
  | error e =>
    rw [settle_error hcall]
    refine iff_of_true h fun hok => ?_
    rw [hcall] at hok
    exact absurd hok Bool.false_ne_true
  | ok s' =>
    have hok : (Runtime.call b tx s).isOk = true := isOk_iff.mpr ⟨s', hcall⟩
    rw [settle_ok hcall, step_notes (Runtime.step_of_call_ok hcall), writeNotes_lookup, h,
      RepeatsBlob]
    cases lastBlob commitment (pairedBlobs b tx) with
    | none => exact iff_of_true rfl fun _ _ hnone => nomatch hnone
    | some last =>
      constructor
      · intro hsame _ blob' hblob'
        rw [← Option.some.inj hblob']
        exact Option.some.inj hsame
      · intro hsame
        exact congrArg some (hsame hok last rfl)

/-- From a reachable state on an encrypted note keeps its value exactly when no accepted transaction
comes with another blob for its commitment. -/
theorem encrypted_note_kept_iff (b : Build) (config : BridgeConfig) (txs : List Tx)
    (commitment : Commitment) (blob : Bytes)
    (h : (Runtime.run b config txs).obscuraPrivacy.encryptedNotes (noteKey commitment) = some blob)
    (later : List Tx) :
    (∀ done, done <+: later →
      (Runtime.run b config (txs ++ done)).obscuraPrivacy.encryptedNotes (noteKey commitment) =
        some blob) ↔
      EveryStep (settle (Runtime.call b)) (RepeatsBlob b commitment blob)
        (Runtime.run b config txs) later := by
  have hrun : ∀ done, Runtime.run b config (txs ++ done) =
      done.foldl (settle (Runtime.call b)) (Runtime.run b config txs) :=
    fun done => settleAll_append _ txs done
  simp only [hrun]
  exact (everyStep_iff_forall_initial (I := fun s : Runtime =>
    s.obscuraPrivacy.encryptedNotes (noteKey commitment) = some blob)
    (settle_keeps_note_iff b commitment blob) h).symm

section Sample

def sampleCommitment : Commitment :=
  ⟨sha256 (noteMessage sampleNote.amount sampleNote.assetId.id sampleNote.ownerPubkey
    sampleNote.salt)⟩

theorem note_kept_when_repeated :
    (Runtime.run .default .default
      ([sampleShield [1]] ++ [sampleShield [1]])).obscuraPrivacy.encryptedNotes
        (noteKey sampleCommitment) = some [1] := by
  have hstored : (Runtime.run .default .default
      [sampleShield [1]]).obscuraPrivacy.encryptedNotes (noteKey sampleCommitment) = some [1] := by
    decide +kernel
  have hlast : lastBlob sampleCommitment (pairedBlobs .default (sampleShield [1])) = some [1] := by
    decide +kernel
  refine (encrypted_note_kept_iff .default .default [sampleShield [1]] sampleCommitment [1] hstored
    [sampleShield [1]]).mpr ⟨fun _ blob' hblob' => ?_, trivial⟩ _ List.prefix_rfl
  rw [hlast] at hblob'
  exact (Option.some.inj hblob').symm

/-- Anybody who knows the note shields it again with another blob. -/
theorem note_replaced :
    (Runtime.run .default .default [sampleShield [1]]).obscuraPrivacy.encryptedNotes
        (noteKey sampleCommitment) = some [1] ∧
      (Runtime.run .default .default
        ([sampleShield [1]] ++ [sampleShield [2]])).obscuraPrivacy.encryptedNotes
          (noteKey sampleCommitment) = some [2] :=
  ⟨by decide +kernel, by decide +kernel⟩

end Sample

end ObscuraNetwork
