import ObscuraNetwork.Runtime

namespace ObscuraNetwork

def CommitmentTree.leaves (t : CommitmentTree) : List Bytes32 := t.commitments.map Commitment.hash

/-- The stored entry at a level, absent meaning empty. -/
def CommitmentTree.filled (b : Build) (t : CommitmentTree) (level : Nat) : Bytes32 :=
  (t.merkleFilledSubtrees level).getD (zeroValue b.sha256 level)

/-- The stored tree against the flat list: the counters count its leaves, the root is that of the
full tree, the filled subtrees are the left siblings of the next insertion. -/
structure CommitmentTree.Faithful (b : Build) (t : CommitmentTree) : Prop where
  nextIndex : ∃ n, t.merkleNextIndex = some n ∧ n.toNat = t.commitments.length
  rootsCount : t.merkleRootsCount = t.merkleNextIndex
  fits : t.commitments.length ≤ 2 ^ treeDepth
  root : t.merkleRoot = some (fullRoot b.sha256 t.leaves)
  filled : FilledSubtrees (hashPair b.sha256) (treeLeaf t.leaves) treeDepth t.commitments.length
    (t.filled b)

theorem genesis_tree_faithful (b : Build) : (ObscuraPrivacy.genesis b).tree.Faithful b where
  nextIndex := ⟨0, rfl, rfl⟩
  rootsCount := rfl
  fits := Nat.zero_le _
  root := congrArg some emptyRoot_eq_fullRoot
  filled := filledSubtrees_zero _ _ _

namespace ObscuraPrivacy

theorem insertCommitment_faithful {b : Build} {commitment : Commitment} {s s' : ObscuraPrivacy}
    (hs : s.tree.Faithful b)
    (h : insertCommitment b commitment (s.pushCommitment commitment) = .ok s') :
    s'.tree.Faithful b ∧ s'.commitments = s.commitments ++ [commitment] := by
  obtain ⟨room, rfl⟩ := insertCommitment_ok h
  obtain ⟨⟨n, hn, hlen⟩, hcount, _, _, hfilled⟩ := hs
  simp only [tree] at hn hlen hcount
  have hnext : (s.pushCommitment commitment).merkleNextIndex.getD 0 = n := by
    simp [pushCommitment, hn]
  rw [hnext] at room ⊢
  have hsmall : n.toNat + 1 < 2 ^ 64 := by
    have : (2 : Nat) ^ treeDepth < 2 ^ 63 := by decide
    omega
  have happ : Appends (treeLeaf s.tree.leaves)
      (treeLeaf (s.tree.leaves ++ [commitment.hash])) zeroBytes commitment.hash n.toNat := by
    have := padded_append (z := zeroBytes) s.tree.leaves commitment.hash
    rwa [CommitmentTree.leaves, List.length_map, tree, ← hlen] at this
  have hfilled' : FilledSubtrees (hashPair b.sha256) (treeLeaf s.tree.leaves) treeDepth n.toNat
      (s.filledSubtree b) := hlen ▸ hfilled
  have hleaves : (s.commitments ++ [commitment]).map Commitment.hash =
      s.tree.leaves ++ [commitment.hash] := by simp [CommitmentTree.leaves, tree]
  refine ⟨⟨⟨n + 1, rfl, ?_⟩, ?_, ?_, ?_, ?_⟩, rfl⟩
  · rw [toNat_add_of_lt (by simpa using hsmall)]
    simp [tree, pushCommitment, hlen]
  · simp [tree, pushCommitment, hcount, hn]
  · simp only [tree, pushCommitment, List.length_append, List.length_singleton]
    omega
  · simp only [tree, pushCommitment, CommitmentTree.leaves, hleaves, fullRoot, computeInsert_root]
    exact congrArg some (carried_root hfilled' happ room)
  · have hnew := hfilled'.append happ
    rw [← hleaves] at hnew
    simp only [tree, pushCommitment, CommitmentTree.leaves, List.length_append,
      List.length_singleton, ← hlen]
    convert hnew using 1
    funext level
    simp only [CommitmentTree.filled, computeInsert_updates, refill]
    split <;> rfl

theorem markAllSpent_faithful {b : Build} {s : ObscuraPrivacy} (hs : s.tree.Faithful b)
    (nullifiers : List Nullifier) : (s.markAllSpent nullifiers).tree.Faithful b := by
  rw [markAllSpent_tree]
  exact hs

theorem handleUnshield_tree {b : Build} {msg : UnshieldMessage} {s s' : ObscuraPrivacy}
    (h : handleUnshield b msg s = .ok s') : s'.tree = s.tree := by
  obtain ⟨_, _, rfl⟩ := handleUnshield_ok.mp h
  rfl

end ObscuraPrivacy

open ObscuraPrivacy ObscuraBridge

/-- The commitments that a transaction adds when it is accepted. -/
def insertedCommitments (b : Build) (tx : Tx) : List Commitment :=
  match tx.call with
  | .obscuraPrivacy (.shield msg) =>
    match Commitment.fromNote b.sha256 msg.note with
    | .ok commitment => [commitment]
    | .error _ => []
  | .obscuraPrivacy (.transfer msg) => msg.outputCommitments
  | .obscuraBridge (.claimDeposit claim) => [⟨claim.publicInputs.obscuraRecipient⟩]
  | _ => []

theorem step_commitments {b : Build} {s s' : Runtime} {tx : Tx} (h : Runtime.Step b s tx s') :
    s'.obscuraPrivacy.commitments =
      s.obscuraPrivacy.commitments ++ insertedCommitments b tx := by
  cases h with
  | shield ctx msg privacy h =>
    obtain ⟨commitment, t, total, hnote, ht, _, rfl⟩ := handleShield_ok.mp h
    have htree : (t.storeEncryptedNote commitment msg.encryptedNote).commitments = t.commitments :=
      congrArg CommitmentTree.commitments (storeEncryptedNote_tree commitment msg.encryptedNote t)
    have hinserted : insertedCommitments b ⟨ctx, .obscuraPrivacy (.shield msg)⟩ = [commitment] := by
      simp only [insertedCommitments, hnote]
    rw [hinserted, ← insertCommitment_commitments ht, ← htree]
    rfl
  | transfer ctx msg privacy h =>
    obtain ⟨_, t, ht, hc⟩ := handleTransfer_ok.mp h
    have hmarked : (s.obscuraPrivacy.markAllSpent msg.nullifiers).commitments =
        s.obscuraPrivacy.commitments :=
      congrArg CommitmentTree.commitments (markAllSpent_tree msg.nullifiers s.obscuraPrivacy)
    rw [updateCompliance_ok hc, insertedCommitments, ← hmarked, ← storeOutputs_commitments ht]
  | unshield ctx msg privacy h =>
    obtain ⟨_, _, rfl⟩ := handleUnshield_ok.mp h
    exact (List.append_nil _).symm
  | updateSanctionsRoot ctx msg privacy h =>
    rw [handleUpdateSanctionsRoot_ok h]
    exact (List.append_nil _).symm
  | claimDeposit ctx claim s' h =>
    obtain ⟨_, privacy, _, _, _, hp, _, _, _, rfl⟩ := ObscuraBridge.handleClaimDeposit_ok.mp h
    have hinserted : privacy.commitments = _ := insertCommitment_commitments hp
    exact hinserted
  | withdrawBridge ctx msg bridge h => exact (List.append_nil _).symm
  | updateHeliosHead ctx update bridge h => exact (List.append_nil _).symm

section TreeSteps

variable {b : Build} {P : CommitmentTree → Prop}
  (insertion : ∀ (s s' : ObscuraPrivacy) (commitment : Commitment), P s.tree →
    insertCommitment b commitment (s.pushCommitment commitment) = .ok s' → P s'.tree)
include insertion

theorem storeOutputs_tree {encryptedOutputs : List Bytes} {i : Nat} {outputs : List Commitment}
    {s s' : ObscuraPrivacy} (hs : P s.tree)
    (h : storeOutputs b encryptedOutputs i outputs s = .ok s') : P s'.tree := by
  induction outputs generalizing i s with
  | nil =>
    simp only [storeOutputs, pure_ok] at h
    exact h ▸ hs
  | cons commitment rest ih =>
    obtain ⟨t, u, ht, htree, _, _, hrest⟩ := storeOutputs_cons_ok.mp h
    have hpushed := insertion s t commitment hs ht
    exact ih (htree ▸ hpushed) hrest

/-- What every insertion preserves of the stored tree, every accepted transaction preserves. -/
theorem step_tree {s s' : Runtime} {tx : Tx} (hs : P s.obscuraPrivacy.tree)
    (h : Runtime.Step b s tx s') : P s'.obscuraPrivacy.tree := by
  cases h with
  | shield ctx msg privacy h =>
    obtain ⟨commitment, t, total, _, ht, _, rfl⟩ := handleShield_ok.mp h
    simpa using insertion _ t commitment hs ht
  | transfer ctx msg privacy h =>
    obtain ⟨_, t, ht, hc⟩ := handleTransfer_ok.mp h
    rw [updateCompliance_ok hc]
    have hmarked : P (s.obscuraPrivacy.markAllSpent msg.nullifiers).tree := by
      rw [markAllSpent_tree]
      exact hs
    have hstored : P t.tree := storeOutputs_tree insertion hmarked ht
    exact hstored
  | unshield ctx msg privacy h => exact handleUnshield_tree h ▸ hs
  | updateSanctionsRoot ctx msg privacy h => exact handleUpdateSanctionsRoot_ok h ▸ hs
  | claimDeposit ctx claim s' h =>
    obtain ⟨_, privacy, _, _, _, hp, _, _, _, rfl⟩ := handleClaimDeposit_ok.mp h
    exact insertion _ privacy _ hs hp
  | withdrawBridge ctx msg bridge h => exact hs
  | updateHeliosHead ctx update bridge h => exact hs

end TreeSteps

theorem ObscuraPrivacy.storeOutputs_faithful {b : Build} {encryptedOutputs : List Bytes} {i : Nat}
    {outputs : List Commitment} {s s' : ObscuraPrivacy} (hs : s.tree.Faithful b)
    (h : storeOutputs b encryptedOutputs i outputs s = .ok s') :
    s'.tree.Faithful b ∧ s'.commitments = s.commitments ++ outputs :=
  ⟨storeOutputs_tree (fun _ _ _ hs h => (insertCommitment_faithful hs h).1) hs h,
    storeOutputs_commitments h⟩

theorem step_faithful {b : Build} {s s' : Runtime} {tx : Tx}
    (hs : s.obscuraPrivacy.tree.Faithful b) (h : Runtime.Step b s tx s') :
    s'.obscuraPrivacy.tree.Faithful b :=
  step_tree (fun _ _ _ hs h => (insertCommitment_faithful hs h).1) hs h

theorem run_faithful (b : Build) (config : BridgeConfig) (txs : List Tx) :
    (Runtime.run b config txs).obscuraPrivacy.tree.Faithful b :=
  Runtime.run_induction (P := fun s _ => s.obscuraPrivacy.tree.Faithful b)
    (genesis_tree_faithful b) (fun _ _ _ _ hs h => step_faithful hs h) txs

/-- In every reachable state the incremental tree is the full rebuild of the flat list. -/
theorem incremental_tree_is_full_rebuild (b : Build) (config : BridgeConfig) (txs : List Tx) :
    ∃ n : UInt64, ∃ nodes,
      let s := (Runtime.run b config txs).obscuraPrivacy
      s.commitments.length = n.toNat ∧ s.merkleNextIndex = some n ∧ s.merkleRootsCount = some n ∧
      n.toNat ≤ 2 ^ treeDepth ∧
      s.merkleRoot = some (fullRoot b.sha256 (s.commitments.map Commitment.hash)) ∧
      buildNodes b.sha256 (s.commitments.map Commitment.hash) = .ok nodes ∧
      s.merkleRoot = some (nodes 1) := by
  obtain ⟨⟨n, hn, hlen⟩, hcount, hfits, hroot, _⟩ := run_faithful b config txs
  generalize (Runtime.run b config txs).obscuraPrivacy = s at *
  have hroom : (s.commitments.map Commitment.hash).length ≤ 2 ^ treeDepth := by
    simpa [tree] using hfits
  obtain ⟨nodes, hnodes, hone⟩ := buildNodes_root b.sha256 hroom
  refine ⟨n, nodes, hlen.symm, hn, hcount.trans hn, hlen ▸ hfits, hroot, hnodes, ?_⟩
  rw [hone]
  exact hroot

end ObscuraNetwork
