import ObscuraNetwork.InclusionSoundness
import Mathlib.Data.List.Nodup

namespace ObscuraNetwork

section PlantedLeaf

variable (sha256 : Bytes → Bytes32)

def spineNode (leaf : Bytes32) : Nat → Bytes32
  | 0 => leaf
  | level + 1 => hashPair sha256 (spineNode leaf level) (zeroValue sha256 level)

/-- A leaf that is itself the parent of a note's commitment and the padding value. -/
def plantedLeaf (note : NoteData) : Bytes32 := hashPair sha256 (hashNote sha256 note) zeroBytes

/-- A witness that opens the planted leaf one level below the tree. -/
def plantedWitness (note : NoteData) (spendingKey : Bytes32) : TransferWitness where
  spendingKeys := [spendingKey]
  inputs := [note]
  outputs := [note]
  merkleRoot := fullRoot sha256 [plantedLeaf sha256 note]
  leafIndices := [0]
  merklePaths := [zeroBytes :: (List.range treeDepth).map (zeroValue sha256)]

def spineMessages (leaf : Bytes32) (level n : Nat) : List Bytes :=
  (List.range' level n).flatMap fun k =>
    [pairMessage (spineNode sha256 leaf k) (zeroValue sha256 k),
      pairMessage (zeroValue sha256 k) (zeroValue sha256 k)]

def plantedMessages (note : NoteData) (key : Bytes32) : List Bytes :=
  note.message :: nullifierMessage key (hashNote sha256 note) ::
    pairMessage (hashNote sha256 note) zeroBytes ::
      spineMessages sha256 (plantedLeaf sha256 note) 0 treeDepth

variable {sha256}

theorem plantedWitness_merkleRoot (note : NoteData) (key : Bytes32) :
    (plantedWitness sha256 note key).merkleRoot = fullRoot sha256 [plantedLeaf sha256 note] := rfl

theorem treeNode_single (leaf : Bytes32) (level i : Nat) :
    treeNode (hashPair sha256) (treeLeaf [leaf]) level i =
      if i = 0 then spineNode sha256 leaf level else zeroValue sha256 level := by
  induction level generalizing i with
  | zero =>
    cases i with
    | zero => rfl
    | succ i => rfl
  | succ level ih =>
    rw [treeNode, ih, ih]
    by_cases hi : i = 0
    · simp [hi, spineNode]
    · simp [hi, zeroValue]

theorem spineNode_eq_fullRoot (leaf : Bytes32) :
    spineNode sha256 leaf treeDepth = fullRoot sha256 [leaf] := by
  rw [fullRoot, treeNode_single, if_pos rfl]

variable (sha256) in
theorem walk_zeroValues (leaf : Bytes32) (level n : Nat) :
    walk (hashPair sha256) 0 (spineNode sha256 leaf level)
      ((List.range' level n).map (zeroValue sha256)) = spineNode sha256 leaf (level + n) := by
  induction n generalizing level with
  | zero => rfl
  | succ n ih =>
    rw [List.range'_succ, List.map_cons, walk]
    have := ih (level + 1)
    simpa [spineNode, Nat.add_assoc, Nat.add_comm 1 n] using this

variable (sha256) in
theorem walkPairs_zeroValues (leaf : Bytes32) (level n : Nat) :
    walkPairs (hashPair sha256) 0 (spineNode sha256 leaf level)
      ((List.range' level n).map (zeroValue sha256)) =
        (List.range' level n).map fun k => (spineNode sha256 leaf k, zeroValue sha256 k) := by
  induction n generalizing level with
  | zero => rfl
  | succ n ih =>
    rw [List.range'_succ, List.map_cons, walkPairs]
    have := ih (level + 1)
    simpa [spineNode] using this

variable (sha256) in
theorem plantedWitness_accepted {note : NoteData} (hamount : 0 < note.amount) (key : Bytes32) :
    TransferAccepted sha256 (plantedWitness sha256 note key)
      { nullifiers := [hashNullifier sha256 key (hashNote sha256 note)]
        outputCommitments := [hashNote sha256 note]
        transferAmount := 0 + note.amount
        assetId := note.assetId
        merkleRoot := fullRoot sha256 [plantedLeaf sha256 note] } := by
  have hsmall : (0 : UInt64).toNat + note.amount.toNat < 2 ^ 64 := by
    have := note.amount.toNat_lt
    simpa using this
  have hsum : ∀ text, checkedSum text 0 [note] = .ok (0 + note.amount) := by
    intro text
    rw [checkedSum, if_pos hsmall]
    rfl
  refine ⟨⟨note, rfl, rfl⟩, by simp [plantedWitness], rfl, by simp [plantedWitness],
    by simp [plantedWitness], hsum _, hsum _, rfl, rfl, ?_, by simpa [plantedWitness] using hamount,
    rfl, rfl, rfl⟩
  intro entry hentry
  have he : entry = ((note, 0), zeroBytes :: (List.range treeDepth).map (zeroValue sha256)) := by
    simpa [plantedWitness] using hentry
  subst he
  rw [foldSiblings_eq_walk]
  have := walk_zeroValues sha256 (plantedLeaf sha256 note) 0 treeDepth
  rw [Nat.zero_add, spineNode_eq_fullRoot] at this
  simpa [walk, plantedWitness, List.range_eq_range', spineNode, plantedLeaf] using this

theorem treeMessages_single (leaf : Bytes32) {m : Bytes} (hm : m ∈ treeMessages sha256 [leaf]) :
    m ∈ spineMessages sha256 leaf 0 treeDepth := by
  obtain ⟨p, ⟨k, i, hk, _, rfl⟩, rfl⟩ := hm
  rw [spineMessages, List.mem_flatMap]
  refine ⟨k, by simpa using hk, ?_⟩
  simp only [treeNode_single]
  by_cases hi : i = 0
  · simp [hi]
  · simp [hi]

theorem plantedMessages_cover (note : NoteData) (key : Bytes32) :
    ∀ m ∈ treeMessages sha256 [plantedLeaf sha256 note] ∪
      TransferHashes sha256 (plantedWitness sha256 note key),
      m ∈ plantedMessages sha256 note key := by
  intro m hm
  rcases hm with hm | hm
  · simp [plantedMessages, treeMessages_single _ hm]
  · cases hm with
    | note other h =>
      have : other = note := by simpa [plantedWitness] using h
      simp [plantedMessages, this]
    | node entry p h hp =>
      have he : entry =
          ((note, 0), zeroBytes :: (List.range treeDepth).map (zeroValue sha256)) := by
        simpa [plantedWitness] using h
      subst he
      have hpairs := walkPairs_zeroValues sha256 (plantedLeaf sha256 note) 0 treeDepth
      simp only [walkPairs, List.mem_cons] at hp
      rcases hp with rfl | hp
      · simp [plantedMessages]
      · have hp' : p ∈ (List.range' 0 treeDepth).map fun k =>
            (spineNode sha256 (plantedLeaf sha256 note) k, zeroValue sha256 k) := by
          rw [← hpairs]
          simpa [List.range_eq_range', spineNode, plantedLeaf] using hp
        obtain ⟨k, hk, rfl⟩ := List.mem_map.mp hp'
        have : pairMessage (spineNode sha256 (plantedLeaf sha256 note) k) (zeroValue sha256 k) ∈
            spineMessages sha256 (plantedLeaf sha256 note) 0 treeDepth :=
          List.mem_flatMap.mpr ⟨k, hk, by simp⟩
        simp [plantedMessages, this]
    | nullifier entry h =>
      have : entry = (note, key) := by simpa [plantedWitness] using h
      simp [plantedMessages, this]

end PlantedLeaf

/-- The digests of the strings of `spineMessages`, packed and each computed once. -/
def spineDigests : Nat → Nat → Nat → List Nat
  | 0, _, _ => []
  | n + 1, node, empty =>
    Sha256.eager (Sha256.digest (pairMessage (Sha256.toBytes32 node) (Sha256.toBytes32 empty)))
      fun node' =>
    Sha256.eager (Sha256.digest (pairMessage (Sha256.toBytes32 empty) (Sha256.toBytes32 empty)))
      fun empty' => node' :: empty' :: spineDigests n node' empty'

theorem spineDigests_eq (leaf : Bytes32) (n level : Nat) {node empty : Nat}
    (hnode : Sha256.toBytes32 node = spineNode sha256 leaf level)
    (hempty : Sha256.toBytes32 empty = zeroValue sha256 level) :
    (spineMessages sha256 leaf level n).map sha256 =
      (spineDigests n node empty).map Sha256.toBytes32 := by
  induction n generalizing level node empty with
  | zero => rfl
  | succ n ih =>
    have hnode' : Sha256.toBytes32 (Sha256.digest (pairMessage (Sha256.toBytes32 node)
        (Sha256.toBytes32 empty))) = spineNode sha256 leaf (level + 1) := by
      rw [← sha256_eq, hnode, hempty]
      rfl
    have hempty' : Sha256.toBytes32 (Sha256.digest (pairMessage (Sha256.toBytes32 empty)
        (Sha256.toBytes32 empty))) = zeroValue sha256 (level + 1) := by
      rw [← sha256_eq, hempty]
      rfl
    have hrest := ih (level + 1) hnode' hempty'
    simp only [spineMessages] at hrest ⊢
    rw [List.range'_succ, List.flatMap_cons, List.map_append, hrest]
    simp only [spineDigests, Sha256.eager_eq, List.map_cons, List.map_nil, List.cons_append,
      List.nil_append, hnode', hempty']
    rfl

/-- The root over one leaf is the last but one of the digests. -/
theorem fullRoot_single_ne_zero {leaf : Bytes32} {node : Nat} (hnode : Sha256.toBytes32 node = leaf)
    (hdigests : zeroBytes ∉ (spineDigests treeDepth node 0).map Sha256.toBytes32) :
    fullRoot sha256 [leaf] ≠ zeroBytes := by
  have hzero : Sha256.toBytes32 0 = zeroBytes := by decide
  rw [← spineDigests_eq leaf treeDepth 0 hnode hzero] at hdigests
  intro hroot
  have hlast : pairMessage (spineNode sha256 leaf 19) (zeroValue sha256 19) ∈
      spineMessages sha256 leaf 0 treeDepth :=
    List.mem_flatMap.mpr ⟨19, by simp [treeDepth], by simp⟩
  rw [← spineNode_eq_fullRoot] at hroot
  exact hdigests (hroot ▸ List.mem_map_of_mem hlast)

def plantedNote : NoteData := ⟨1, zeroBytes, List.replicate 32 1, zeroBytes⟩

theorem plantedNote_amount : 0 < plantedNote.amount := by decide

/-- The digests of everything hashed for the planted note, from its commitment on. -/
def plantedDigests (commitment : Nat) : List Nat :=
  Sha256.eager commitment fun commitment =>
  Sha256.eager (Sha256.digest (nullifierMessage zeroBytes (Sha256.toBytes32 commitment)))
    fun nullifier =>
  Sha256.eager (Sha256.digest (pairMessage (Sha256.toBytes32 commitment) zeroBytes)) fun leaf =>
  0 :: commitment :: nullifier :: leaf :: spineDigests treeDepth leaf 0

theorem plantedDigests_distinct :
    ((plantedDigests (Sha256.digest plantedNote.message)).map Sha256.toBytes32).Nodup := by
  decide +kernel

theorem planted_digests :
    zeroBytes :: (plantedMessages sha256 plantedNote zeroBytes).map sha256 =
      (plantedDigests (Sha256.digest plantedNote.message)).map Sha256.toBytes32 := by
  have hzero : Sha256.toBytes32 0 = zeroBytes := by decide
  have hc : Sha256.toBytes32 (Sha256.digest plantedNote.message) =
      hashNote sha256 plantedNote := (sha256_eq _).symm
  have hleaf : Sha256.toBytes32 (Sha256.digest (pairMessage (hashNote sha256 plantedNote)
      zeroBytes)) = plantedLeaf sha256 plantedNote := (sha256_eq _).symm
  have hspine := spineDigests_eq (plantedLeaf sha256 plantedNote) treeDepth 0 hleaf hzero
  simp only [plantedDigests, Sha256.eager_eq, List.map_cons, plantedMessages, hspine, hc, hzero,
    sha256_eq (nullifierMessage _ _), sha256_eq (pairMessage _ _)]
  rw [sha256_eq, hc]

theorem planted_distinct :
    (zeroBytes :: (plantedMessages sha256 plantedNote zeroBytes).map sha256).Nodup := by
  rw [planted_digests]
  exact plantedDigests_distinct

theorem planted_message_mem :
    plantedNote.message ∈ plantedMessages sha256 plantedNote zeroBytes := by
  simp [plantedMessages]

theorem planted_collisionFree :
    CollisionFreeOn sha256 (treeMessages sha256 [plantedLeaf sha256 plantedNote] ∪
      TransferHashes sha256 (plantedWitness sha256 plantedNote zeroBytes)) :=
  collisionFreeOn_of_nodup (plantedMessages_cover plantedNote zeroBytes)
    (List.nodup_cons.mp planted_distinct).2

theorem planted_not_padding : hashNote sha256 plantedNote ≠ zeroValue sha256 0 := fun h =>
  (List.nodup_cons.mp planted_distinct).1 (List.mem_map.mpr ⟨_, planted_message_mem, h⟩)

theorem planted_not_inserted : hashNote sha256 plantedNote ∉ [plantedLeaf sha256 plantedNote] := by
  intro h
  have inj := List.inj_on_of_nodup_map (List.nodup_cons.mp planted_distinct).2 planted_message_mem
    (y := pairMessage (hashNote sha256 plantedNote) zeroBytes) (by simp [plantedMessages])
    (List.mem_singleton.mp h)
  exact message_ne_pairMessage _ _ _ inj

theorem planted_inserted :
    ∃ s, ObscuraPrivacy.storeOutputs .default [] 0
        ([plantedLeaf sha256 plantedNote].map Commitment.mk)
        (ObscuraPrivacy.genesis .default) = .ok s ∧
      s.merkleRoot = some (plantedWitness sha256 plantedNote zeroBytes).merkleRoot := by
  obtain ⟨s, hs⟩ : ∃ s, ObscuraPrivacy.storeOutputs .default [] 0
      ([plantedLeaf sha256 plantedNote].map Commitment.mk) (ObscuraPrivacy.genesis .default) =
      .ok s := ⟨_, rfl⟩
  have hroot := inserted_root hs
  rw [Build.default_sha256] at hroot
  refine ⟨s, hs, ?_⟩
  rw [plantedWitness_merkleRoot]
  exact hroot

/-- The inclusion constraint is sound exactly for paths of at most `TREE_DEPTH` siblings. -/
theorem inclusion_sound_iff (d : Nat) : InclusionSoundUpTo d ↔ d ≤ treeDepth := by
  refine ⟨fun sound => ?_, inclusion_sound_of_le⟩
  by_contra hd
  obtain ⟨s, hs, hroot⟩ := planted_inserted
  have hmain := transferMain_ok.mpr (plantedWitness_accepted sha256 plantedNote_amount zeroBytes)
  refine planted_not_inserted (sound .default _ s _ _ hs hroot hmain planted_collisionFree
    (fun _ note hn => ?_) (fun path hp => ?_) plantedNote (by simp [plantedWitness]))
  · have : note = plantedNote := by simpa [plantedWitness] using hn
    exact this ▸ planted_not_padding
  · have : path = zeroBytes :: (List.range treeDepth).map (zeroValue sha256) := by
      simpa [plantedWitness] using hp
    simp only [this, List.length_cons, List.length_map, List.length_range]
    omega

/-- A note that was never inserted is spent: the only leaf is the hash of its commitment and the
padding value, and its path has one sibling too many. -/
theorem uninserted_note_spent :
    ∃ (s : ObscuraPrivacy) (out : TransferPublicOutputs),
      let leaves := [plantedLeaf sha256 plantedNote]
      let witness := plantedWitness sha256 plantedNote zeroBytes
      ObscuraPrivacy.storeOutputs .default [] 0 (leaves.map Commitment.mk)
        (ObscuraPrivacy.genesis .default) = .ok s ∧
      s.merkleRoot = some witness.merkleRoot ∧
      transferMain sha256 witness = .ok out ∧
      CollisionFreeOn sha256 (treeMessages sha256 leaves ∪ TransferHashes sha256 witness) ∧
      ¬∀ note ∈ witness.inputs, hashNote sha256 note ∈ leaves := by
  obtain ⟨s, hs, hroot⟩ := planted_inserted
  have hmain := transferMain_ok.mpr (plantedWitness_accepted sha256 plantedNote_amount zeroBytes)
  exact ⟨s, _, hs, hroot, hmain, planted_collisionFree,
    fun sound => planted_not_inserted (sound plantedNote (by simp [plantedWitness]))⟩

end ObscuraNetwork
