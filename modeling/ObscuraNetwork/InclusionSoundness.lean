import ObscuraNetwork.GuestPrivacy
import ObscuraNetwork.TreeInvariant

namespace ObscuraNetwork

theorem message_ne_pairMessage (note : NoteData) (l r : Bytes32) :
    note.message ≠ pairMessage l r := by
  intro h
  have hlen := congrArg List.length h
  simp only [NoteData.message, length_noteMessage, pairMessage, List.length_append,
    FixedBytes.length_bytes] at hlen
  omega

/-- The strings hashed to build the commitment tree over a list of leaves. -/
def treeMessages (sha256 : Bytes → Bytes32) (leaves : List Bytes32) : Set Bytes :=
  {m | ∃ p ∈ treePairs (hashPair sha256) (treeLeaf leaves) treeDepth, m = pairMessage p.1 p.2}

inductive TransferHashes (sha256 : Bytes → Bytes32) (witness : TransferWitness) : Set Bytes
  | note (note : NoteData) (h : note ∈ witness.inputs ++ witness.outputs) :
      TransferHashes sha256 witness note.message
  | node (entry : (NoteData × UInt64) × List Bytes32) (p : Bytes32 × Bytes32)
      (h : entry ∈ (witness.inputs.zip witness.leafIndices).zip witness.merklePaths)
      (hp : p ∈ walkPairs (hashPair sha256) entry.1.2.toNat (hashNote sha256 entry.1.1) entry.2) :
      TransferHashes sha256 witness (pairMessage p.1 p.2)
  | nullifier (entry : NoteData × Bytes32) (h : entry ∈ witness.inputs.zip witness.spendingKeys) :
      TransferHashes sha256 witness (nullifierMessage entry.2 (hashNote sha256 entry.1))

/-- A path of at most `TREE_DEPTH` siblings from a note to the root ends at a leaf of the tree:
a shorter one would make the note an inner node. -/
theorem path_to_root_sound {sha256 : Bytes → Bytes32} {leaves : List Bytes32} {note : NoteData}
    {index : UInt64} {siblings : List Bytes32} {messages : Set Bytes}
    (cf : CollisionFreeOn sha256 messages) (tree : treeMessages sha256 leaves ⊆ messages)
    (hnote : note.message ∈ messages)
    (path : ∀ p ∈ walkPairs (hashPair sha256) index.toNat (hashNote sha256 note) siblings,
      pairMessage p.1 p.2 ∈ messages)
    (hlen : siblings.length ≤ treeDepth)
    (h : foldSiblings sha256 (hashNote sha256 note) index siblings = fullRoot sha256 leaves) :
    hashNote sha256 note ∈ leaves ∨
      leaves.length < 2 ^ treeDepth ∧ hashNote sha256 note = zeroValue sha256 0 := by
  let S := {p : Bytes32 × Bytes32 | pairMessage p.1 p.2 ∈ messages}
  have inj : PairInjOn (hashPair sha256) S :=
    pairInjOn_of_collisionFree cf pairMessage_inj
  have htree : treePairs (hashPair sha256) (treeLeaf leaves) treeDepth ⊆ S :=
    fun p hp => tree ⟨p, hp, rfl⟩
  rw [foldSiblings_eq_walk] at h
  have start := walk_sound inj htree path le_rfl (by simp) hlen h
  rw [Nat.zero_mul, Nat.zero_add] at start
  have hplace := Nat.mod_lt index.toNat (Nat.two_pow_pos siblings.length)
  cases hd : treeDepth - siblings.length with
  | zero =>
    rw [hd] at start
    rcases padded_mem_or (z := zeroBytes) leaves (index.toNat % 2 ^ siblings.length) with
      hm | ⟨hle, hz⟩
    · exact Or.inl (start ▸ hm)
    · have : siblings.length = treeDepth := by omega
      exact Or.inr ⟨Nat.lt_of_le_of_lt hle (this ▸ hplace), start.trans hz⟩
  | succ k =>
    rw [hd] at start
    have hchildren := tree ⟨_, ⟨k, _, by omega, by
      rwa [show treeDepth - (k + 1) = siblings.length by omega], rfl⟩, rfl⟩
    exact absurd (cf hnote hchildren start) (message_ne_pairMessage note _ _)

/-- Soundness of the inclusion constraint for the witnesses whose paths have at most `d` siblings:
the leaves are inserted raw into the on-chain tree, the witness is accepted against its root, and
no two of the strings hashed on either side collide. While the tree has padding leaves, none of them
is an input's commitment. -/
def InclusionSoundUpTo (d : Nat) : Prop :=
  ∀ (b : Build) (leaves : List Bytes32) (s : ObscuraPrivacy) (witness : TransferWitness)
    (out : TransferPublicOutputs),
    ObscuraPrivacy.storeOutputs b [] 0 (leaves.map Commitment.mk) (ObscuraPrivacy.genesis b) =
      .ok s →
    s.merkleRoot = some witness.merkleRoot →
    transferMain b.sha256 witness = .ok out →
    CollisionFreeOn b.sha256 (treeMessages b.sha256 leaves ∪ TransferHashes b.sha256 witness) →
    (leaves.length < 2 ^ treeDepth →
      ∀ note ∈ witness.inputs, hashNote b.sha256 note ≠ zeroValue b.sha256 0) →
    (∀ path ∈ witness.merklePaths, path.length ≤ d) →
    ∀ note ∈ witness.inputs, hashNote b.sha256 note ∈ leaves

theorem inserted_root {b : Build} {leaves : List Bytes32} {s : ObscuraPrivacy}
    (h : ObscuraPrivacy.storeOutputs b [] 0 (leaves.map Commitment.mk) (ObscuraPrivacy.genesis b) =
      .ok s) : s.merkleRoot = some (fullRoot b.sha256 leaves) := by
  obtain ⟨hs, hc⟩ := ObscuraPrivacy.storeOutputs_faithful (genesis_tree_faithful b) h
  have hleaves : s.tree.leaves = leaves := by
    have : (ObscuraPrivacy.genesis b).commitments = [] := rfl
    simp [CommitmentTree.leaves, ObscuraPrivacy.tree, hc, this, Function.comp_def]
  exact hleaves ▸ hs.root

theorem input_has_path {witness : TransferWitness} {note : NoteData}
    (indices : witness.leafIndices.length = witness.inputs.length)
    (paths : witness.merklePaths.length = witness.inputs.length) (hn : note ∈ witness.inputs) :
    ∃ index path, ((note, index), path) ∈
      (witness.inputs.zip witness.leafIndices).zip witness.merklePaths := by
  obtain ⟨i, hi, rfl⟩ := List.mem_iff_getElem.mp hn
  refine ⟨witness.leafIndices[i], witness.merklePaths[i], List.mem_iff_getElem.mpr ⟨i, ?_, ?_⟩⟩
  · simp only [List.length_zip]
    omega
  · simp

theorem inclusion_sound_of_le {d : Nat} (hd : d ≤ treeDepth) : InclusionSoundUpTo d := by
  intro b leaves s witness out hs hroot hmain cf hzero hpaths note hn
  have acc := transferMain_ok.mp hmain
  have hr : fullRoot b.sha256 leaves = witness.merkleRoot :=
    Option.some.inj ((inserted_root hs).symm.trans hroot)
  obtain ⟨index, path, hentry⟩ := input_has_path acc.indices acc.paths hn
  have hlen := hpaths path (List.of_mem_zip hentry).2
  have sound := path_to_root_sound cf Set.subset_union_left
    (Or.inr (.note note (List.mem_append_left _ hn)))
    (fun p hp => Or.inr (.node _ p hentry hp)) (hlen.trans hd)
    ((acc.inclusion _ hentry).trans hr.symm)
  exact sound.resolve_right fun ⟨hroom, hz⟩ => hzero hroom note hn hz

end ObscuraNetwork
