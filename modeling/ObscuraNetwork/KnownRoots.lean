import ObscuraNetwork.TreeCapacity

namespace ObscuraNetwork

open ObscuraPrivacy

/-- The tree's root after one of the last 100 insertions, of the leaves inserted so far. -/
def RecentRoot (b : Build) (leaves : List Bytes32) (root : Bytes32) : Prop :=
  ∃ n, 0 < n ∧ n ≤ leaves.length ∧ leaves.length < n + 100 ∧
    root = fullRoot b.sha256 (leaves.take n)

/-- The ring buffer keeps the root after each of the last 100 insertions, the `n`-th in slot
`n - 1` modulo 100. -/
def CommitmentTree.KeepsRoots (b : Build) (t : CommitmentTree) : Prop :=
  ∀ n, 0 < n → n ≤ t.leaves.length → t.leaves.length < n + 100 →
    t.merkleRoots (UInt64.ofNat ((n - 1) % 100)) = some (fullRoot b.sha256 (t.leaves.take n))

theorem genesis_keepsRoots (b : Build) : (ObscuraPrivacy.genesis b).tree.KeepsRoots b := by
  intro n hpos hle _
  have : (ObscuraPrivacy.genesis b).tree.leaves.length = 0 := rfl
  omega

theorem toNat_slot (n : Nat) : (UInt64.ofNat (n % 100)).toNat = n % 100 := by
  apply UInt64.toNat_ofNat_of_lt'
  show n % 100 < 2 ^ 64
  omega

section Insertion

variable {b : Build} {s s' : ObscuraPrivacy} {commitment : Commitment}

/-- An insertion writes its root to the next slot. -/
theorem insertCommitment_roots (hs : s.tree.Faithful b)
    (h : insertCommitment b commitment (s.pushCommitment commitment) = .ok s') :
    s'.tree.leaves = s.tree.leaves ++ [commitment.hash] ∧
    s'.merkleRoots = s.merkleRoots.set (UInt64.ofNat (s.tree.leaves.length % 100))
      (fullRoot b.sha256 s'.tree.leaves) := by
  have hafter := insertCommitment_faithful hs h
  have hroot := hafter.1.root
  obtain ⟨_, hcount, _⟩ := faithful_counters hs
  obtain ⟨_, rfl⟩ := insertCommitment_ok h
  refine ⟨by simp [CommitmentTree.leaves, tree, pushCommitment], ?_⟩
  have hslot : s.merkleRootsCount.getD 0 % rootsHistorySize =
      UInt64.ofNat (s.tree.leaves.length % 100) := by
    apply UInt64.toNat_inj.mp
    rw [toNat_slot, UInt64.toNat_mod, hcount, CommitmentTree.leaves, List.length_map]
    rfl
  have hvalue := Option.some.inj hroot
  show s.merkleRoots.set (s.merkleRootsCount.getD 0 % rootsHistorySize) _ = _
  rw [hslot, ← hvalue]

theorem insertCommitment_keepsRoots (hs : s.tree.Faithful b) (hroots : s.tree.KeepsRoots b)
    (h : insertCommitment b commitment (s.pushCommitment commitment) = .ok s') :
    s'.tree.KeepsRoots b := by
  obtain ⟨hleaves, hstored⟩ := insertCommitment_roots hs h
  have hlen : s'.tree.leaves.length = s.tree.leaves.length + 1 := by simp [hleaves]
  intro n hpos hle hrecent
  rw [hlen] at hle hrecent
  have hmap : s'.tree.merkleRoots = s'.merkleRoots := rfl
  rw [hmap, hstored]
  rcases Nat.lt_or_eq_of_le hle with hlt | rfl
  · have hslot : UInt64.ofNat ((n - 1) % 100) ≠ UInt64.ofNat (s.tree.leaves.length % 100) := by
      intro heq
      have := congrArg UInt64.toNat heq
      rw [toNat_slot, toNat_slot] at this
      omega
    rw [StateMap.set_of_ne _ _ hslot, hleaves, List.take_append_of_le_length (by omega)]
    exact hroots n hpos (by omega) (by omega)
  · rw [Nat.add_sub_cancel, StateMap.set_self, ← hlen, List.take_length]

end Insertion

theorem run_keepsRoots (b : Build) (config : BridgeConfig) (txs : List Tx) :
    (Runtime.run b config txs).obscuraPrivacy.tree.Faithful b ∧
    (Runtime.run b config txs).obscuraPrivacy.tree.KeepsRoots b := by
  let P : CommitmentTree → Prop := fun t => t.Faithful b ∧ t.KeepsRoots b
  have hstep : ∀ (s s' : ObscuraPrivacy) (commitment : Commitment), P s.tree →
      insertCommitment b commitment (s.pushCommitment commitment) = .ok s' → P s'.tree := by
    intro s s' commitment hs h
    exact ⟨(insertCommitment_faithful hs.1 h).1, insertCommitment_keepsRoots hs.1 hs.2 h⟩
  exact Runtime.run_induction (P := fun s _ => P s.obscuraPrivacy.tree)
    ⟨genesis_tree_faithful b, genesis_keepsRoots b⟩
    (fun _ _ _ _ hs h => step_tree hstep hs h) txs

/-- `is_known_root` answers for the roots of the last 100 insertions and no other. -/
theorem isKnownRoot_iff {b : Build} {s : ObscuraPrivacy} (hs : s.tree.Faithful b)
    (hroots : s.tree.KeepsRoots b) (root : Bytes32) :
    s.isKnownRoot root = true ↔ RecentRoot b s.tree.leaves root := by
  obtain ⟨_, hcount, hsmall⟩ := faithful_counters hs
  have hlen : s.tree.leaves.length = s.commitments.length := List.length_map _
  have hslot : ∀ i < 100, UInt64.ofNat i % rootsHistorySize = UInt64.ofNat (i % 100) := by
    intro i hi
    apply UInt64.toNat_inj.mp
    rw [toNat_slot, UInt64.toNat_mod, UInt64.toNat_ofNat_of_lt' (show i < 2 ^ 64 by omega)]
    rfl
  have hsize : rootsHistorySize.toNat = 100 := rfl
  have hentry : ∀ n, 0 < n → n ≤ s.commitments.length → s.commitments.length < n + 100 →
      s.merkleRoots (UInt64.ofNat ((n - 1) % 100)) =
        some (fullRoot b.sha256 (s.tree.leaves.take n)) := by
    intro n hpos hle hrecent
    exact hroots n hpos (hlen ▸ hle) (hlen ▸ hrecent)
  unfold isKnownRoot RecentRoot
  rw [hlen]
  by_cases hzero : s.merkleRootsCount.getD 0 = 0
  · have hempty : s.commitments.length = 0 := by
      rw [← hcount, hzero]
      rfl
    simp only [hzero, if_true, Bool.false_eq_true, false_iff]
    intro h
    obtain ⟨n, hpos, hle, _⟩ := h
    omega
  · simp only [if_neg hzero, List.any_eq_true, List.mem_range, hcount, hsize]
    constructor
    · intro h
      obtain ⟨i, hi, hstored⟩ := h
      -- the insertion whose root slot `i` holds now
      have hlast : (s.commitments.length - (s.commitments.length - 1 - i) % 100 - 1) % 100 =
          i % 100 := by omega
      refine ⟨s.commitments.length - (s.commitments.length - 1 - i) % 100, by omega, by omega,
        by omega, ?_⟩
      have hkept := hentry (s.commitments.length - (s.commitments.length - 1 - i) % 100)
        (by omega) (by omega) (by omega)
      rw [hlast, ← hslot i (by omega), eq_of_beq hstored] at hkept
      exact Option.some.inj hkept
    · intro h
      obtain ⟨n, hpos, hle, hrecent, rfl⟩ := h
      refine ⟨(n - 1) % 100, by omega, ?_⟩
      rw [hslot _ (by omega), Nat.mod_mod, hentry n hpos hle hrecent]
      exact beq_self_eq_true _

end ObscuraNetwork
