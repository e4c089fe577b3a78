import ObscuraNetwork.TreeInvariant

namespace ObscuraNetwork

namespace ObscuraPrivacy

variable {b : Build} {s s' : ObscuraPrivacy}

/-- The stored counters of a faithful tree never come near the end of `u64`. -/
theorem faithful_counters (hs : s.tree.Faithful b) :
    (s.merkleNextIndex.getD 0).toNat = s.commitments.length ∧
    (s.merkleRootsCount.getD 0).toNat = s.commitments.length ∧
    s.commitments.length + 1 < 2 ^ 64 := by
  obtain ⟨⟨n, hn, hlen⟩, hcount, hfits, _, _⟩ := hs
  simp only [tree] at hn hlen hcount hfits
  have : (2 : Nat) ^ treeDepth < 2 ^ 63 := by decide
  refine ⟨by simp [hn, hlen], by simp [hcount, hn, hlen], by omega⟩

theorem insertCommitment_noPanic (hs : s.tree.Faithful b) (commitment : Commitment) :
    NoPanic (insertCommitment b commitment (s.pushCommitment commitment)) := by
  obtain ⟨hnext, hcount, hfits⟩ := faithful_counters hs
  refine (noPanic_ensure _ _).bind fun _ _ => (addU64_noPanic ?_).bind fun _ _ =>
    (addU64_noPanic ?_).bind fun _ _ => noPanic_ok _
  · exact hcount ▸ hfits
  · exact hnext ▸ hfits

theorem insertCommitment_isOk (hs : s.tree.Faithful b) (commitment : Commitment) :
    (∃ t, insertCommitment b commitment (s.pushCommitment commitment) = .ok t) ↔
      s.commitments.length < 2 ^ treeDepth := by
  obtain ⟨hnext, hcount, hfits⟩ := faithful_counters hs
  constructor
  · intro h
    obtain ⟨t, ht⟩ := h
    exact hnext ▸ (insertCommitment_ok ht).1
  · intro hroom
    have hindex : (s.merkleNextIndex.getD 0).toNat < 2 ^ treeDepth := hnext ▸ hroom
    refine ⟨_, bind_ok.mpr ⟨(), ensure_ok.mpr hindex, bind_ok.mpr ⟨_, addU64_of_lt ?_,
      bind_ok.mpr ⟨_, addU64_of_lt ?_, rfl⟩⟩⟩⟩
    · exact hcount ▸ hfits
    · exact hnext ▸ hfits

theorem storeOutputs_cons (encryptedOutputs : List Bytes) (i : Nat) (commitment : Commitment)
    (rest : List Commitment) {t : ObscuraPrivacy} (hs : s.tree.Faithful b)
    (ht : insertCommitment b commitment (s.pushCommitment commitment) = .ok t) :
    ∃ u, u.tree.Faithful b ∧ u.commitments.length = s.commitments.length + 1 ∧
      storeOutputs b encryptedOutputs i (commitment :: rest) s =
        storeOutputs b encryptedOutputs (i + 1) rest u := by
  obtain ⟨hfaithful, hlist⟩ := insertCommitment_faithful hs ht
  have hround : ∀ u : ObscuraPrivacy, u.tree = t.tree → u.tree.Faithful b ∧
      u.commitments.length = s.commitments.length + 1 := by
    intro u hu
    have : u.commitments = t.commitments := congrArg CommitmentTree.commitments hu
    exact ⟨hu ▸ hfaithful, by rw [this, hlist]; simp⟩
  refine ⟨_, (hround _ ?_).1, (hround _ ?_).2, by rw [storeOutputs, ht, ok_bind]⟩
  all_goals split <;> simp

theorem storeOutputs_noPanic (encryptedOutputs : List Bytes) (i : Nat) (outputs : List Commitment)
    (hs : s.tree.Faithful b) : NoPanic (storeOutputs b encryptedOutputs i outputs s) := by
  induction outputs generalizing i s with
  | nil => exact noPanic_ok s
  | cons commitment rest ih =>
    cases ht : insertCommitment b commitment (s.pushCommitment commitment) with
    | ok t =>
      obtain ⟨u, hu, _, heq⟩ := storeOutputs_cons encryptedOutputs i commitment rest hs ht
      exact heq ▸ ih (i + 1) hu
    | error e =>
      have hnone := insertCommitment_noPanic hs commitment
      intro message h
      rw [storeOutputs, ht, error_bind] at h
      exact hnone message (ht.trans h)

theorem storeOutputs_isOk (encryptedOutputs : List Bytes) (i : Nat) (outputs : List Commitment)
    (hs : s.tree.Faithful b) :
    (∃ t, storeOutputs b encryptedOutputs i outputs s = .ok t) ↔
      s.commitments.length + outputs.length ≤ 2 ^ treeDepth := by
  induction outputs generalizing i s with
  | nil =>
    refine iff_of_true ⟨s, rfl⟩ ?_
    simpa [tree] using hs.fits
  | cons commitment rest ih =>
    have hroom := insertCommitment_isOk hs commitment
    cases ht : insertCommitment b commitment (s.pushCommitment commitment) with
    | ok t =>
      obtain ⟨u, hu, hlen, heq⟩ := storeOutputs_cons encryptedOutputs i commitment rest hs ht
      rw [heq, ih (i + 1) hu, hlen, List.length_cons]
      omega
    | error e =>
      have hfull : ¬s.commitments.length < 2 ^ treeDepth := fun h => by
        obtain ⟨t, ht'⟩ := hroom.mpr h
        simp [ht] at ht'
      refine iff_of_false ?_ (by simp only [List.length_cons]; omega)
      intro h
      obtain ⟨t, h⟩ := h
      simp [storeOutputs, ht] at h

end ObscuraPrivacy

end ObscuraNetwork
