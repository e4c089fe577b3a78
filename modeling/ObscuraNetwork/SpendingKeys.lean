import ObscuraNetwork.GuestPrivacy
import ObscuraNetwork.CollisionFree

namespace ObscuraNetwork

/-- An accepted run of a spending circuit, seen at one of the notes it consumes: the key its witness
gives for the note and the nullifier it commits for it. -/
inductive SpendRun (sha256 : Bytes → Bytes32) (note : NoteData) (key nullifier : Bytes32) : Prop
  | transfer (witness : TransferWitness) (out : TransferPublicOutputs) (i : Nat)
      (h : transferMain sha256 witness = .ok out) (hnote : witness.inputs[i]? = some note)
      (hkey : witness.spendingKeys[i]? = some key) (hnull : out.nullifiers[i]? = some nullifier)
  | unshield (witness : UnshieldWitness) (out : UnshieldPublicOutputs)
      (h : unshieldMain sha256 witness = .ok out) (hnote : witness.note = note)
      (hkey : witness.spendingKey = key) (hnull : out.nullifier = nullifier)

theorem spendRun_nullifier {sha256 : Bytes → Bytes32} {note : NoteData} {key nullifier : Bytes32}
    (run : SpendRun sha256 note key nullifier) :
    nullifier = hashNullifier sha256 key (hashNote sha256 note) := by
  cases run with
  | transfer witness out i h hnote hkey hnull =>
    have acc := transferMain_ok.mp h
    have hzip : (witness.inputs.zip witness.spendingKeys)[i]? = some (note, key) :=
      List.getElem?_zip_eq_some.mpr ⟨hnote, hkey⟩
    rw [acc.nullifiers, List.getElem?_map, hzip] at hnull
    exact (Option.some.inj hnull).symm
  | unshield witness out h hnote hkey hnull =>
    obtain ⟨_, _, rfl⟩ := unshieldMain_ok.mp h
    rw [← hnull, ← hkey, ← hnote]

/-- Two runs that consume the same note commit the same nullifier exactly when their witnesses give
the same spending key for it. -/
theorem nullifiers_agree_iff {sha256 : Bytes → Bytes32} {note : NoteData}
    {key key' nullifier nullifier' : Bytes32} (run : SpendRun sha256 note key nullifier)
    (run' : SpendRun sha256 note key' nullifier')
    (cf : CollisionFreeOn sha256 {nullifierMessage key (hashNote sha256 note),
      nullifierMessage key' (hashNote sha256 note)}) :
    nullifier = nullifier' ↔ key = key' := by
  rw [spendRun_nullifier run, spendRun_nullifier run']
  constructor
  · intro h
    exact (nullifierMessage_inj (cf (by simp) (by simp) h)).1
  · intro h
    rw [h]

def sharedNote : NoteData := ⟨1, zeroBytes, List.replicate 32 1, zeroBytes⟩

def unitKey (i : UInt8) : Bytes32 := FixedBytes.replicate 32 i

theorem unitKey_unshield (sha256 : Bytes → Bytes32) (i : UInt8) :
    unshieldMain sha256 ⟨unitKey i, sharedNote⟩ =
      .ok ⟨hashNullifier sha256 (unitKey i) (hashNote sha256 sharedNote), 1, zeroBytes⟩ :=
  unshieldMain_ok.mpr ⟨by simp [sharedNote], by simp [sharedNote], rfl⟩

theorem shared_digests_distinct :
    (([sharedNote.message, nullifierMessage (unitKey 1) (hashNote sha256 sharedNote),
      nullifierMessage (unitKey 2) (hashNote sha256 sharedNote)]).map sha256).Nodup := by
  decide +kernel

theorem nullifiers_agree_iff_shared :
    hashNullifier sha256 (unitKey 1) (hashNote sha256 sharedNote) =
      hashNullifier sha256 (unitKey 2) (hashNote sha256 sharedNote) ↔ unitKey 1 = unitKey 2 :=
  nullifiers_agree_iff (.unshield _ _ (unitKey_unshield sha256 1) rfl rfl rfl)
    (.unshield _ _ (unitKey_unshield sha256 2) rfl rfl rfl)
    (collisionFreeOn_of_nodup (fun m hm => by rcases hm with rfl | rfl <;> simp)
      shared_digests_distinct)

/-- Two unshield runs accept the same note under two keys and commit two nullifiers. -/
theorem shared_note_two_nullifiers :
    ∃ out out' : UnshieldPublicOutputs,
      unshieldMain sha256 ⟨unitKey 1, sharedNote⟩ = .ok out ∧
      unshieldMain sha256 ⟨unitKey 2, sharedNote⟩ = .ok out' ∧
      CollisionFreeOn sha256 {sharedNote.message,
        nullifierMessage (unitKey 1) (hashNote sha256 sharedNote),
        nullifierMessage (unitKey 2) (hashNote sha256 sharedNote)} ∧
      out.nullifier ≠ out'.nullifier := by
  refine ⟨_, _, unitKey_unshield sha256 1, unitKey_unshield sha256 2,
    collisionFreeOn_of_nodup (fun m hm => by simpa using hm) shared_digests_distinct, ?_⟩
  have hdistinct := shared_digests_distinct
  simp only [List.map_cons, List.map_nil, List.nodup_cons, List.mem_cons] at hdistinct
  exact fun h => hdistinct.2.1 (Or.inl h)

end ObscuraNetwork
