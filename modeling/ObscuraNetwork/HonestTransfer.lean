import ObscuraNetwork.GuestPrivacy
import ObscuraNetwork.TreeCapacity

namespace ObscuraNetwork

open ObscuraPrivacy

section Paths

variable {sha256 : Bytes → Bytes32}

/-- The sibling loop on a heap that holds the tree reads the tree's own siblings. -/
theorem heapSiblings_eq {nodes : Nat → Bytes32} {leaf : Nat → Bytes32} {d : Nat}
    (heap : ∀ k ≤ d, ∀ i < 2 ^ (d - k),
      nodes (2 ^ (d - k) + i) = treeNode (hashPair sha256) leaf k i)
    {k n i : Nat} (hlevel : k + n = d) (hi : i < 2 ^ n) :
    heapSiblings nodes n (2 ^ n + i) = siblingsFrom (hashPair sha256) leaf k i n := by
  induction n generalizing k i with
  | zero => rfl
  | succ n ih =>
    have hpow : 2 ^ (n + 1) = 2 * 2 ^ n := pow_succ' 2 n
    have hrow : d - k = n + 1 := by omega
    have hentry := heap k (by omega)
    rw [hrow] at hentry
    have hhalf : (2 ^ (n + 1) + i) / 2 = 2 ^ n + i / 2 := by omega
    have hrest := ih (k := k + 1) (i := i / 2) (by omega) (by omega)
    rw [heapSiblings, siblingsFrom, hhalf, hrest]
    congr 1
    by_cases heven : i % 2 = 0
    · have hpos : (2 ^ (n + 1) + i) % 2 = 0 := by omega
      rw [if_pos hpos, if_pos heven, Nat.add_assoc]
      exact hentry (i + 1) (by omega)
    · have hpos : ¬(2 ^ (n + 1) + i) % 2 = 0 := by omega
      have hleft : 2 ^ (n + 1) + i - 1 = 2 ^ (n + 1) + (i - 1) := by omega
      rw [if_neg hpos, if_neg heven, hleft]
      exact hentry (i - 1) (by omega)

variable (sha256) in
theorem buildProofPaths_spec {leaves : List Bytes32} (h : leaves.length ≤ 2 ^ treeDepth) :
    ∃ paths, buildProofPaths sha256 leaves = .ok paths ∧ paths.length = leaves.length ∧
      ∀ i < leaves.length, paths.getD i [] =
        siblingsFrom (hashPair sha256) (treeLeaf leaves) 0 i treeDepth := by
  obtain ⟨nodes, hnodes, hspec⟩ := buildNodes_spec sha256 h
  refine ⟨_, by rw [buildProofPaths, hnodes, ok_bind]; rfl, by simp, ?_⟩
  intro i hi
  have hlt : i < 2 ^ treeDepth := by omega
  rw [List.getD_eq_getElem _ _ (by simpa using hi), List.getElem_map, List.getElem_range]
  exact heapSiblings_eq hspec (Nat.zero_add _) hlt

/-- The path built for a leaf folds up from it to the root. -/
theorem foldSiblings_path {leaves : List Bytes32} {leaf : Bytes32} {index : UInt64}
    (hroom : leaves.length ≤ 2 ^ treeDepth) (hleaf : leaves[index.toNat]? = some leaf) :
    foldSiblings sha256 leaf index
        (siblingsFrom (hashPair sha256) (treeLeaf leaves) 0 index.toNat treeDepth) =
      fullRoot sha256 leaves := by
  obtain ⟨hlt, rfl⟩ := List.getElem?_eq_some_iff.mp hleaf
  have hnode : leaves[index.toNat] =
      treeNode (hashPair sha256) (treeLeaf leaves) 0 index.toNat := by
    rw [treeNode, treeLeaf, padded, List.getD_eq_getElem _ _ hlt]
  have htop : index.toNat / 2 ^ treeDepth = 0 := Nat.div_eq_of_lt (by omega)
  rw [foldSiblings_eq_walk, hnode, walk_siblings, Nat.zero_add, htop, fullRoot]

end Paths

section KnownRoot

variable {b : Build} {s s' : ObscuraPrivacy}

/-- The root an insertion stores is in the ring buffer. -/
theorem insertCommitment_known (hs : s.tree.Faithful b) {commitment : Commitment}
    (h : insertCommitment b commitment (s.pushCommitment commitment) = .ok s') :
    ∃ root, s'.merkleRoot = some root ∧ s'.isKnownRoot root = true := by
  obtain ⟨_, hcount, hsmall⟩ := faithful_counters hs
  obtain ⟨_, rfl⟩ := insertCommitment_ok h
  refine ⟨_, rfl, ?_⟩
  generalize hc : s.merkleRootsCount.getD 0 = count at hcount
  have hpush : (s.pushCommitment commitment).merkleRootsCount.getD 0 = count := hc
  have hsum : (count + 1).toNat = count.toNat + 1 :=
    toNat_add_of_lt (by simp only [UInt64.toNat_one]; omega)
  have hne : count + 1 ≠ 0 := by
    intro hzero
    rw [hzero, UInt64.toNat_zero] at hsum
    omega
  have hslot : (count % rootsHistorySize).toNat = count.toNat % 100 := UInt64.toNat_mod _ _
  have hkey : UInt64.ofNat (count % rootsHistorySize).toNat % rootsHistorySize =
      count % rootsHistorySize := by
    rw [UInt64.ofNat_toNat]
    apply UInt64.toNat_inj.mp
    rw [UInt64.toNat_mod, hslot]
    show count.toNat % 100 % 100 = _
    omega
  simp only [isKnownRoot, Option.getD_some, hpush, if_neg hne]
  refine List.any_eq_true.mpr ⟨(count % rootsHistorySize).toNat, ?_, ?_⟩
  · rw [List.mem_range, hsum, hslot]
    show _ < min _ 100
    omega
  · rw [hkey, StateMap.set_self]
    exact beq_self_eq_true _

theorem storeOutputs_known (hs : s.tree.Faithful b) {i : Nat} {outputs : List Commitment}
    (hne : outputs ≠ []) (h : storeOutputs b [] i outputs s = .ok s') :
    ∃ root, s'.merkleRoot = some root ∧ s'.isKnownRoot root = true := by
  induction outputs generalizing i s with
  | nil => exact absurd rfl hne
  | cons commitment rest ih =>
    simp only [storeOutputs, bind_ok, List.getElem?_nil] at h
    obtain ⟨t, ht, h⟩ := h
    cases rest with
    | nil =>
      simp only [storeOutputs, pure_ok] at h
      exact h ▸ insertCommitment_known hs ht
    | cons next rest => exact ih (insertCommitment_faithful hs ht).1 (by simp) h

end KnownRoot

theorem checkedSum_eq (overflow : String) (notes : List NoteData) (acc : UInt64)
    (h : acc.toNat + (notes.map fun note => note.amount.toNat).sum < 2 ^ 64) :
    ∃ sum, checkedSum overflow acc notes = .ok sum ∧
      sum.toNat = acc.toNat + (notes.map fun note => note.amount.toNat).sum := by
  induction notes generalizing acc with
  | nil => exact ⟨acc, rfl, rfl⟩
  | cons note rest ih =>
    simp only [List.map_cons, List.sum_cons] at h ⊢
    have hlt : acc.toNat + note.amount.toNat < 2 ^ 64 := by omega
    have hsum := toNat_add_of_lt hlt
    obtain ⟨sum, hrest, hval⟩ := ih (acc + note.amount) (by omega)
    exact ⟨sum, by rw [checkedSum, if_pos hlt, hrest], by omega⟩

/-- A note to spend, with its place among the leaves and the key that spends it. -/
structure Spend where
  note : Note
  leafIndex : UInt64
  spendingKey : Bytes32

def Note.toData (note : Note) : NoteData :=
  ⟨note.amount, note.assetId.id, note.ownerPubkey, note.salt⟩

/-- The witness an honest prover assembles from the rebuilt paths and the root on the chain. -/
def honestWitness (paths : List (List Bytes32)) (root : Bytes32) (spends : List Spend)
    (outputs : List Note) : TransferWitness where
  spendingKeys := spends.map Spend.spendingKey
  inputs := spends.map fun spend => spend.note.toData
  outputs := outputs.map Note.toData
  merkleRoot := root
  leafIndices := spends.map Spend.leafIndex
  merklePaths := spends.map fun spend => paths.getD spend.leafIndex.toNat []

structure HonestSpends (sha256 : Bytes → Bytes32) (leaves : List Commitment) (spends : List Spend)
    (outputs : List Note) : Prop where
  someInput : spends ≠ []
  someOutput : outputs ≠ []
  inserted : ∀ spend ∈ spends, ∃ commitment,
    Commitment.fromNote sha256 spend.note = .ok commitment ∧
    leaves[spend.leafIndex.toNat]? = some commitment
  oneAsset : ∃ asset, (∀ spend ∈ spends, spend.note.assetId = asset) ∧
    ∀ note ∈ outputs, note.assetId = asset
  nonzero : ∀ note ∈ outputs, note.amount ≠ 0
  balance : (spends.map fun spend => spend.note.amount.toNat).sum =
    (outputs.map fun note => note.amount.toNat).sum
  fits : (spends.map fun spend => spend.note.amount.toNat).sum < 2 ^ 64

/-- What the circuit commits for an honest witness, in the words of the host's types. -/
structure HonestOutputs (sha256 : Bytes → Bytes32) (spends : List Spend) (outputs : List Note)
    (root : Bytes32) (out : TransferPublicOutputs) : Prop where
  nullifiers : List.Forall₂ (fun (spend : Spend) nullifier => ∃ commitment,
    Commitment.fromNote sha256 spend.note = .ok commitment ∧
    nullifier = (Nullifier.compute sha256 spend.spendingKey commitment).hash) spends out.nullifiers
  outputCommitments : List.Forall₂ (fun (note : Note) commitment => note.ownerPubkey.length = 32 →
    Commitment.fromNote sha256 note = .ok ⟨commitment⟩) outputs out.outputCommitments
  transferAmount : out.transferAmount.toNat =
    (spends.map fun spend => spend.note.amount.toNat).sum
  merkleRoot : out.merkleRoot = root

theorem fromNote_hash {sha256 : Bytes → Bytes32} {note : Note} {commitment : Commitment}
    (h : Commitment.fromNote sha256 note = .ok commitment) :
    commitment.hash = hashNote sha256 note.toData := by
  obtain ⟨_, _, rfl⟩ := Commitment.fromNote_ok.mp h
  rfl

theorem honest_sums {sha256 : Bytes → Bytes32} {leaves : List Commitment} {spends : List Spend}
    {outputs : List Note} (h : HonestSpends sha256 leaves spends outputs) :
    ∃ sum, checkedSum "input overflow" 0 (spends.map fun spend => spend.note.toData) = .ok sum ∧
      checkedSum "output overflow" 0 (outputs.map Note.toData) = .ok sum ∧
      sum.toNat = (spends.map fun spend => spend.note.amount.toNat).sum := by
  have hin := h.fits
  have hout := h.balance ▸ h.fits
  obtain ⟨inputSum, hinputSum, hinputVal⟩ := checkedSum_eq "input overflow"
    (spends.map fun spend => spend.note.toData) 0
    (by simpa [Function.comp_def, Note.toData] using hin)
  obtain ⟨outputSum, houtputSum, houtputVal⟩ := checkedSum_eq "output overflow"
    (outputs.map Note.toData) 0 (by simpa [Function.comp_def, Note.toData] using hout)
  simp only [UInt64.toNat_zero, Nat.zero_add, List.map_map] at hinputVal houtputVal
  have hsame : outputSum = inputSum := by
    apply UInt64.toNat_inj.mp
    rw [hinputVal, houtputVal]
    exact h.balance.symm
  exact ⟨inputSum, hinputSum, hsame ▸ houtputSum, hinputVal⟩

/-- Each input of the honest witness is included under the root. -/
theorem honest_inclusion {sha256 : Bytes → Bytes32} {leaves : List Commitment}
    {paths : List (List Bytes32)} (hroom : leaves.length ≤ 2 ^ treeDepth)
    (hpaths : ∀ i < leaves.length, paths.getD i [] = siblingsFrom (hashPair sha256)
      (treeLeaf (leaves.map Commitment.hash)) 0 i treeDepth)
    {spends : List Spend} {outputs : List Note} (h : HonestSpends sha256 leaves spends outputs)
    {spend : Spend} (hspend : spend ∈ spends) :
    foldSiblings sha256 (hashNote sha256 spend.note.toData) spend.leafIndex
      (paths.getD spend.leafIndex.toNat []) = fullRoot sha256 (leaves.map Commitment.hash) := by
  obtain ⟨commitment, hcommitment, hleaf⟩ := h.inserted spend hspend
  obtain ⟨hlt, _⟩ := List.getElem?_eq_some_iff.mp hleaf
  rw [hpaths _ hlt, ← fromNote_hash hcommitment]
  apply foldSiblings_path (by simpa using hroom)
  rw [List.getElem?_map, hleaf]
  rfl

theorem honest_accepted {sha256 : Bytes → Bytes32} {leaves : List Commitment}
    {paths : List (List Bytes32)} (hroom : leaves.length ≤ 2 ^ treeDepth)
    (hpaths : ∀ i < leaves.length, paths.getD i [] = siblingsFrom (hashPair sha256)
      (treeLeaf (leaves.map Commitment.hash)) 0 i treeDepth)
    {spends : List Spend} {outputs : List Note} (h : HonestSpends sha256 leaves spends outputs) :
    ∃ out, transferMain sha256 (honestWitness paths
        (fullRoot sha256 (leaves.map Commitment.hash)) spends outputs) = .ok out ∧
      HonestOutputs sha256 spends outputs (fullRoot sha256 (leaves.map Commitment.hash)) out := by
  obtain ⟨asset, hinputs, houtputs⟩ := h.oneAsset
  obtain ⟨sum, hinputSum, houtputSum, hval⟩ := honest_sums h
  obtain ⟨first, rest, hspends⟩ := List.exists_cons_of_ne_nil h.someInput
  refine ⟨⟨spends.map fun spend => hashNullifier sha256 spend.spendingKey
      (hashNote sha256 spend.note.toData), outputs.map fun note => hashNote sha256 note.toData,
    sum, asset.id, fullRoot sha256 (leaves.map Commitment.hash)⟩, transferMain_ok.mpr ?_, ?_⟩
  · refine ⟨⟨first.note.toData, ?_, ?_⟩, ?_, ?_, ?_, ?_, hinputSum, houtputSum, ?_, ?_, ?_, ?_, ?_,
      ?_, rfl⟩
    · simp [honestWitness, hspends]
    · rw [← hinputs first (by simp [hspends])]
      rfl
    · simpa [honestWitness] using h.someOutput
    · simp [honestWitness]
    · intro note hnote
      obtain ⟨spend, hspend, rfl⟩ := List.mem_map.mp hnote
      exact congrArg AssetId.id (hinputs spend hspend)
    · intro note hnote
      obtain ⟨output, houtput, rfl⟩ := List.mem_map.mp hnote
      exact congrArg AssetId.id (houtputs output houtput)
    · simp [honestWitness]
    · simp [honestWitness]
    · intro entry hentry
      simp only [honestWitness, List.zip_map', List.mem_map] at hentry
      obtain ⟨spend, hspend, rfl⟩ := hentry
      exact honest_inclusion hroom hpaths h hspend
    · intro note hnote
      obtain ⟨output, houtput, rfl⟩ := List.mem_map.mp hnote
      exact UInt64.pos_iff_ne_zero.mpr (h.nonzero output houtput)
    · simp [honestWitness, List.zip_map', Function.comp_def]
    · simp [honestWitness, Function.comp_def]
  · refine ⟨?_, ?_, hval, rfl⟩
    · rw [List.forall₂_map_right_iff, List.forall₂_same]
      intro spend hspend
      obtain ⟨commitment, hcommitment, _⟩ := h.inserted spend hspend
      refine ⟨commitment, hcommitment, ?_⟩
      rw [← fromNote_hash hcommitment]
      rfl
    · rw [List.forall₂_map_right_iff, List.forall₂_same]
      intro note hnote hkey
      exact Commitment.fromNote_ok.mpr ⟨h.nonzero note hnote, hkey, rfl⟩

/-- The state and the paths after a list of insertions, with the root that both stand for. -/
theorem inserted_paths (b : Build) (leaves : List Commitment)
    (hroom : leaves.length ≤ 2 ^ treeDepth) :
    ∃ s paths, storeOutputs b [] 0 leaves (ObscuraPrivacy.genesis b) = .ok s ∧
      buildProofPaths b.sha256 (leaves.map Commitment.hash) = .ok paths ∧
      s.merkleRoot = some (fullRoot b.sha256 (leaves.map Commitment.hash)) ∧
      (leaves ≠ [] → s.isKnownRoot (fullRoot b.sha256 (leaves.map Commitment.hash)) = true) ∧
      ∀ i < leaves.length, paths.getD i [] = siblingsFrom (hashPair b.sha256)
        (treeLeaf (leaves.map Commitment.hash)) 0 i treeDepth := by
  have hgenesis := genesis_tree_faithful b
  have hempty : (ObscuraPrivacy.genesis b).commitments.length = 0 := rfl
  obtain ⟨s, hs⟩ := (storeOutputs_isOk [] 0 leaves hgenesis).mpr (by omega)
  obtain ⟨paths, hpaths, _, hspec⟩ := buildProofPaths_spec b.sha256
    (show (leaves.map Commitment.hash).length ≤ 2 ^ treeDepth by simpa using hroom)
  have hroot : s.merkleRoot = some (fullRoot b.sha256 (leaves.map Commitment.hash)) := by
    have hfaithful := storeOutputs_faithful hgenesis hs
    have hcommitments : s.tree.leaves = leaves.map Commitment.hash :=
      congrArg (List.map Commitment.hash) hfaithful.2
    exact hcommitments ▸ hfaithful.1.root
  refine ⟨s, paths, hs, hpaths, hroot, ?_, ?_⟩
  · intro hne
    obtain ⟨root, hsame, hknown⟩ := storeOutputs_known hgenesis hne hs
    rw [hroot] at hsame
    exact Option.some.inj hsame ▸ hknown
  · intro i hi
    exact hspec i (by simpa using hi)

/-- For every list of at most `2^20` leaves inserted from genesis and every honest list of spends
and outputs, the witness built from the rebuilt paths is accepted, and its public outputs are the
host's nullifiers, commitments, total and known root. -/
theorem honest_transfer_proves (b : Build) {leaves : List Commitment}
    (hroom : leaves.length ≤ 2 ^ treeDepth) :
    ∃ s paths root, storeOutputs b [] 0 leaves (ObscuraPrivacy.genesis b) = .ok s ∧
      buildProofPaths b.sha256 (leaves.map Commitment.hash) = .ok paths ∧
      s.merkleRoot = some root ∧
      ∀ spends outputs, HonestSpends b.sha256 leaves spends outputs → ∃ out,
        transferMain b.sha256 (honestWitness paths root spends outputs) = .ok out ∧
        HonestOutputs b.sha256 spends outputs root out ∧ s.isKnownRoot out.merkleRoot = true := by
  obtain ⟨s, paths, hs, hpaths, hroot, hknown, hspec⟩ := inserted_paths b leaves hroom
  refine ⟨s, paths, _, hs, hpaths, hroot, ?_⟩
  intro spends outputs honest
  obtain ⟨out, hout, hhonest⟩ := honest_accepted hroom hspec honest
  refine ⟨out, hout, hhonest, ?_⟩
  have hne : leaves ≠ [] := by
    obtain ⟨spend, hspend⟩ := List.exists_mem_of_ne_nil _ honest.someInput
    obtain ⟨_, _, hleaf⟩ := honest.inserted spend hspend
    intro hnil
    simp [hnil] at hleaf
  rw [hhonest.merkleRoot]
  exact hknown hne

/-- Notes of one owner, told apart by their salts. -/
def saltedNote (amount : UInt64) (salt : UInt8) : Note :=
  ⟨amount, ⟨zeroBytes⟩, List.replicate 32 1, FixedBytes.replicate 32 salt⟩

def saltedLeaves : List Commitment :=
  [saltedNote 3 0, saltedNote 5 1, saltedNote 2 2, saltedNote 7 3, saltedNote 5 4].map fun note =>
    ⟨hashNote sha256 note.toData⟩

/-- The fourth leaf and the second one are spent, in this order. -/
def saltedSpends : List Spend :=
  [⟨saltedNote 7 3, 3, FixedBytes.replicate 32 8⟩, ⟨saltedNote 5 1, 1, FixedBytes.replicate 32 9⟩]

theorem salted_honest :
    HonestSpends sha256 saltedLeaves saltedSpends [saltedNote 4 5, saltedNote 8 6] where
  someInput := by simp [saltedSpends]
  someOutput := by simp
  inserted := by
    intro spend hspend
    rcases List.mem_pair.mp hspend with rfl | rfl
    · exact ⟨_, Commitment.fromNote_ok.mpr ⟨by decide, by decide, rfl⟩, rfl⟩
    · exact ⟨_, Commitment.fromNote_ok.mpr ⟨by decide, by decide, rfl⟩, rfl⟩
  oneAsset := ⟨⟨zeroBytes⟩, by simp [saltedSpends, saltedNote], by simp [saltedNote]⟩
  nonzero := by simp [saltedNote]
  balance := by decide
  fits := by decide

theorem honest_transfer_proves_salted :
    ∃ s paths root out, storeOutputs .default [] 0 saltedLeaves (ObscuraPrivacy.genesis .default) =
        .ok s ∧
      buildProofPaths sha256 (saltedLeaves.map Commitment.hash) = .ok paths ∧
      s.merkleRoot = some root ∧
      transferMain sha256 (honestWitness paths root saltedSpends
        [saltedNote 4 5, saltedNote 8 6]) = .ok out ∧
      HonestOutputs sha256 saltedSpends [saltedNote 4 5, saltedNote 8 6] root out ∧
      s.isKnownRoot out.merkleRoot = true := by
  obtain ⟨s, paths, root, hs, hpaths, hroot, hproves⟩ := honest_transfer_proves .default
    (show saltedLeaves.length ≤ 2 ^ treeDepth by decide)
  obtain ⟨out, hout, hhonest, hknown⟩ := hproves _ _ salted_honest
  exact ⟨s, paths, root, out, hs, hpaths, hroot, hout, hhonest, hknown⟩

def unitNote (ownerPubkey : Bytes) : Note := ⟨1, ⟨zeroBytes⟩, ownerPubkey, zeroBytes⟩

def unitOwner : Bytes := List.replicate 32 1

theorem unit_honest (sha256 : Bytes → Bytes32) (ownerPubkey : Bytes) :
    HonestSpends sha256 [⟨sha256 (noteMessage 1 zeroBytes unitOwner zeroBytes)⟩]
      [⟨unitNote unitOwner, 0, zeroBytes⟩] [unitNote ownerPubkey] where
  someInput := by simp
  someOutput := by simp
  inserted := by
    intro spend hspend
    rw [List.mem_singleton.mp hspend]
    exact ⟨_, Commitment.fromNote_ok.mpr ⟨by decide, by decide, rfl⟩, rfl⟩
  oneAsset := ⟨⟨zeroBytes⟩, by simp [unitNote], by simp [unitNote]⟩
  nonzero := by simp [unitNote]
  balance := by simp [unitNote]
  fits := by simp [unitNote]

/-- An output without a 32-byte owner key is proved, and no host commitment corresponds to it. -/
theorem keyless_output_proved :
    ∃ s paths root out, storeOutputs .default [] 0
        [⟨sha256 (noteMessage 1 zeroBytes unitOwner zeroBytes)⟩] (ObscuraPrivacy.genesis .default) =
        .ok s ∧
      buildProofPaths sha256 [sha256 (noteMessage 1 zeroBytes unitOwner zeroBytes)] = .ok paths ∧
      s.merkleRoot = some root ∧
      transferMain sha256 (honestWitness paths root [⟨unitNote unitOwner, 0, zeroBytes⟩]
        [unitNote []]) = .ok out ∧
      ∀ commitment, Commitment.fromNote sha256 (unitNote []) ≠ .ok commitment := by
  obtain ⟨s, paths, hs, hpaths, hroot, _, hspec⟩ := inserted_paths .default
    [⟨sha256 (noteMessage 1 zeroBytes unitOwner zeroBytes)⟩] (by decide)
  obtain ⟨out, hout, _⟩ := honest_accepted (by decide) hspec (unit_honest sha256 [])
  refine ⟨s, paths, _, out, hs, hpaths, hroot, hout, ?_⟩
  intro commitment h
  exact absurd (Commitment.fromNote_ok.mp h).2.1 (by decide)

end ObscuraNetwork
