import ObscuraNetwork.Merkle
import Mathlib.Tactic.Ring

namespace ObscuraNetwork

theorem and_one_eq_zero_iff (x : UInt64) : x &&& 1 = 0 ↔ x.toNat % 2 = 0 := by
  rw [← UInt64.toNat_inj, UInt64.toNat_and]
  simp [Nat.and_one_is_mod]

theorem toNat_shiftRight_one (x : UInt64) : (x >>> 1).toNat = x.toNat / 2 := by
  simp [UInt64.toNat_shiftRight, Nat.shiftRight_eq_div_pow]

section MerkleRoots

variable (sha256 : Bytes → Bytes32)

/-- The leaves of the commitment tree: the list in order, then `zero_value(0)`. -/
def treeLeaf (leaves : List Bytes32) : Nat → Bytes32 := padded zeroBytes leaves

def fullRoot (leaves : List Bytes32) : Bytes32 :=
  treeNode (hashPair sha256) (treeLeaf leaves) treeDepth 0

variable {sha256}

theorem zeroValue_eq_constNode (level : Nat) :
    zeroValue sha256 level = constNode (hashPair sha256) zeroBytes level := by
  induction level with
  | zero => rfl
  | succ level ih => simp only [zeroValue, constNode, ih]

theorem emptyRoot_eq_fullRoot : emptyRoot sha256 = fullRoot sha256 [] := by
  rw [emptyRoot, zeroValue_eq_constNode, fullRoot, treeNode_const]
  exact fun j _ _ => padded_nil j

theorem foldSiblings_eq_walk (current : Bytes32) (index : UInt64) (siblings : List Bytes32) :
    foldSiblings sha256 current index siblings =
      walk (hashPair sha256) index.toNat current siblings := by
  induction siblings generalizing current index with
  | nil => rfl
  | cons sibling rest ih =>
    simp only [foldSiblings, walk, ih, toNat_shiftRight_one, and_one_eq_zero_iff]

def storeUpdates (filled : StateMap Nat Bytes32) (updates : List (Nat × Bytes32)) :
    StateMap Nat Bytes32 :=
  updates.foldl (fun m entry => m.set entry.1 entry.2) filled

theorem storeUpdates_concat (filled : StateMap Nat Bytes32) (updates : List (Nat × Bytes32))
    (entry : Nat × Bytes32) :
    storeUpdates filled (updates ++ [entry]) =
      (storeUpdates filled updates).set entry.1 entry.2 := by
  simp [storeUpdates]

variable (sha256) in
theorem insertLoop_after (getFilled : Nat → Bytes32) (leaf : Bytes32) (n : UInt64) (k : Nat) :
    ∃ updates, (List.range k).foldl (insertLevel sha256 getFilled) ⟨leaf, n, []⟩ =
        ⟨carried (hashPair sha256) zeroBytes getFilled leaf n.toNat k,
          UInt64.ofNat (n.toNat / 2 ^ k), updates⟩ ∧
      ∀ filled : StateMap Nat Bytes32, ∀ level, storeUpdates filled updates level =
        if level < k ∧ n.toNat / 2 ^ level % 2 = 0 then
          some (carried (hashPair sha256) zeroBytes getFilled leaf n.toNat level)
        else filled level := by
  induction k with
  | zero => exact ⟨[], by simp [carried], by simp [storeUpdates]⟩
  | succ k ih =>
    obtain ⟨updates, hloop, hstore⟩ := ih
    have hsmall : n.toNat / 2 ^ k < 2 ^ 64 :=
      Nat.lt_of_le_of_lt (Nat.div_le_self _ _) n.toNat_lt
    have hidx : (UInt64.ofNat (n.toNat / 2 ^ k)).toNat = n.toNat / 2 ^ k := by
      exact UInt64.toNat_ofNat_of_lt' hsmall
    have hshift : UInt64.ofNat (n.toNat / 2 ^ k) >>> 1 = UInt64.ofNat (n.toNat / 2 ^ (k + 1)) := by
      rw [← UInt64.toNat_inj, toNat_shiftRight_one, hidx, pow_succ, ← Nat.div_div_eq_div_mul]
      exact (UInt64.toNat_ofNat_of_lt' (Nat.lt_of_le_of_lt (Nat.div_le_self _ 2) hsmall)).symm
    rw [List.range_succ, List.foldl_append, hloop]
    simp only [List.foldl_cons, List.foldl_nil, insertLevel, and_one_eq_zero_iff, hidx, hshift]
    by_cases he : n.toNat / 2 ^ k % 2 = 0
    · refine ⟨updates ++ [(k, carried (hashPair sha256) zeroBytes getFilled leaf n.toNat k)],
        by simp [he, carried, zeroValue_eq_constNode], fun filled level => ?_⟩
      rw [storeUpdates_concat]
      by_cases hl : level = k
      · simp [hl, he]
      · rw [StateMap.set_of_ne _ _ hl, hstore]
        have : level < k + 1 ↔ level < k := by omega
        simp only [this]
    · refine ⟨updates, by simp [he, carried], fun filled level => ?_⟩
      rw [hstore]
      by_cases hl : level = k
      · simp [hl, he]
      · have : level < k + 1 ↔ level < k := by omega
        simp only [this]

theorem computeInsert_root (leaf : Bytes32) (n : UInt64) (getFilled : Nat → Bytes32) :
    (computeInsert sha256 leaf n getFilled).1 =
      carried (hashPair sha256) zeroBytes getFilled leaf n.toNat treeDepth := by
  obtain ⟨updates, hloop, _⟩ := insertLoop_after sha256 getFilled leaf n treeDepth
  simp [computeInsert, hloop]

theorem computeInsert_updates (leaf : Bytes32) (n : UInt64) (getFilled : Nat → Bytes32)
    (filled : StateMap Nat Bytes32) (level : Nat) :
    storeUpdates filled (computeInsert sha256 leaf n getFilled).2 level =
      if level < treeDepth ∧ n.toNat / 2 ^ level % 2 = 0 then
        some (carried (hashPair sha256) zeroBytes getFilled leaf n.toNat level)
      else filled level := by
  obtain ⟨updates, hloop, hstore⟩ := insertLoop_after sha256 getFilled leaf n treeDepth
  simpa [computeInsert, hloop] using hstore filled level

variable (sha256) in
/-- What the ascending pass leaves in the heap: entries above stay, written ones combine theirs. -/
theorem buildUp_spec (level : Nat) (nodes : Nat → Bytes32) :
    (∀ j, level < j → buildUp sha256 level nodes j = nodes j) ∧
    ∀ j, 0 < j → j ≤ level → buildUp sha256 level nodes j =
      hashPair sha256 (buildUp sha256 level nodes (2 * j))
        (buildUp sha256 level nodes (2 * j + 1)) := by
  induction level generalizing nodes with
  | zero => exact ⟨fun _ _ => rfl, fun j hj hle => by omega⟩
  | succ level ih =>
    obtain ⟨habove, hbelow⟩ := ih (Function.update nodes (level + 1)
      (hashPair sha256 (nodes (2 * (level + 1))) (nodes (2 * (level + 1) + 1))))
    have hstay : ∀ j, level + 1 < j → buildUp sha256 (level + 1) nodes j = nodes j := by
      intro j hj
      rw [buildUp, habove j (by omega), Function.update_of_ne (by omega)]
    refine ⟨hstay, fun j hj hle => ?_⟩
    rcases Nat.lt_or_eq_of_le hle with hlt | rfl
    · exact hbelow j hj (by omega)
    · rw [hstay (2 * (level + 1)) (by omega), hstay (2 * (level + 1) + 1) (by omega), buildUp,
        habove _ (by omega), Function.update_self]

/-- A heap whose leaf row is the padded list holds the tree's node at every place. -/
theorem heap_eq_treeNode {nodes : Nat → Bytes32} {leaf : Nat → Bytes32} {d : Nat}
    (row : ∀ i < 2 ^ d, nodes (2 ^ d + i) = leaf i)
    (inner : ∀ j, 0 < j → j < 2 ^ d →
      nodes j = hashPair sha256 (nodes (2 * j)) (nodes (2 * j + 1)))
    (k : Nat) (hk : k ≤ d) (i : Nat) (hi : i < 2 ^ (d - k)) :
    nodes (2 ^ (d - k) + i) = treeNode (hashPair sha256) leaf k i := by
  induction k generalizing i with
  | zero => simpa [treeNode] using row i (by simpa using hi)
  | succ k ih =>
    have hpow : 2 ^ (d - k) = 2 * 2 ^ (d - (k + 1)) := by
      rw [← pow_succ', show d - (k + 1) + 1 = d - k by omega]
    have hle : 2 ^ (d - k) ≤ 2 ^ d := Nat.pow_le_pow_right (by omega) (by omega)
    have hpos : 0 < 2 ^ (d - (k + 1)) := Nat.two_pow_pos _
    rw [inner _ (by omega) (by omega), treeNode, ← ih (by omega) (2 * i) (by omega),
      ← ih (by omega) (2 * i + 1) (by omega)]
    rw [hpow]
    ring_nf

theorem zipIdx_foldl_update (base : Nat) (leaves : List Bytes32) (nodes : Nat → Bytes32)
    (k j : Nat) :
    (leaves.zipIdx k).foldl
        (fun nodes entry => Function.update nodes (base + entry.2) entry.1) nodes j =
      if base + k ≤ j ∧ j < base + k + leaves.length then leaves.getD (j - (base + k)) zeroBytes
      else nodes j := by
  induction leaves generalizing nodes k with
  | nil => simp
  | cons leaf rest ih =>
    rw [List.zipIdx_cons, List.foldl_cons, ih]
    by_cases hj : j = base + k
    · subst hj
      simp
    · by_cases hin : base + (k + 1) ≤ j ∧ j < base + (k + 1) + rest.length
      · have hin' : base + k ≤ j ∧ j < base + k + (leaf :: rest).length := by
          simp only [List.length_cons]
          omega
        have hsub : j - (base + k) = j - (base + (k + 1)) + 1 := by omega
        rw [if_pos hin, if_pos hin', hsub, List.getD_cons_succ]
      · have hout : ¬(base + k ≤ j ∧ j < base + k + (leaf :: rest).length) := by
          simp only [List.length_cons]
          omega
        rw [if_neg hin, if_neg hout, Function.update_of_ne hj]

theorem range'_foldl_update (base value : Nat) (z : Bytes32) (count : Nat) (nodes : Nat → Bytes32)
    (j : Nat) :
    (List.range' value count).foldl (fun nodes i => Function.update nodes (base + i) z) nodes j =
      if base + value ≤ j ∧ j < base + value + count then z else nodes j := by
  induction count generalizing nodes value with
  | zero => simp
  | succ count ih =>
    rw [List.range'_succ, List.foldl_cons, ih]
    by_cases hj : j = base + value
    · subst hj
      simp
    · by_cases hin : base + (value + 1) ≤ j ∧ j < base + (value + 1) + count
      · rw [if_pos hin, if_pos (by omega)]
      · rw [if_neg hin, if_neg (by omega), Function.update_of_ne hj]

theorem buildUp_padded {leaves : List Bytes32} {d : Nat} (h : leaves.length ≤ 2 ^ d)
    {k : Nat} (hk : k ≤ d) {i : Nat} (hi : i < 2 ^ (d - k)) :
    buildUp sha256 (2 ^ d - 1) ((List.range' leaves.length (2 ^ d - leaves.length)).foldl
      (fun nodes i => Function.update nodes (2 ^ d + i) (zeroValue sha256 0))
      (leaves.zipIdx.foldl (fun nodes entry => Function.update nodes (2 ^ d + entry.2) entry.1)
        fun _ => zeroBytes)) (2 ^ (d - k) + i) =
      treeNode (hashPair sha256) (treeLeaf leaves) k i := by
  obtain ⟨habove, hbelow⟩ := buildUp_spec sha256 (2 ^ d - 1)
    ((List.range' leaves.length (2 ^ d - leaves.length)).foldl
      (fun nodes i => Function.update nodes (2 ^ d + i) (zeroValue sha256 0))
      (leaves.zipIdx.foldl (fun nodes entry => Function.update nodes (2 ^ d + entry.2) entry.1)
        fun _ => zeroBytes))
  have hpos := Nat.two_pow_pos d
  refine heap_eq_treeNode (fun i hi => ?_) (fun j hj hlt => hbelow j hj (by omega)) k hk i hi
  rw [habove _ (by omega), range'_foldl_update, zipIdx_foldl_update, treeLeaf, padded]
  rcases Nat.lt_or_ge i leaves.length with hlt | hge
  · rw [if_neg (by omega), if_pos (by omega)]
    congr 1
    omega
  · rw [if_pos (by omega), List.getD_eq_default _ _ hge]
    rfl

variable (sha256) in
/-- The rebuilt heap holds the full tree: level `k`, index `i` stands at `2^(20-k) + i`. -/
theorem buildNodes_spec {leaves : List Bytes32} (h : leaves.length ≤ 2 ^ treeDepth) :
    ∃ nodes, buildNodes sha256 leaves = .ok nodes ∧ ∀ k ≤ treeDepth, ∀ i < 2 ^ (treeDepth - k),
      nodes (2 ^ (treeDepth - k) + i) = treeNode (hashPair sha256) (treeLeaf leaves) k i := by
  refine ⟨_, by rw [buildNodes, ensure_true h, ok_bind]; rfl, fun k hk i hi => ?_⟩
  exact buildUp_padded h hk hi

variable (sha256) in
theorem buildNodes_root {leaves : List Bytes32} (h : leaves.length ≤ 2 ^ treeDepth) :
    ∃ nodes, buildNodes sha256 leaves = .ok nodes ∧ nodes 1 = fullRoot sha256 leaves := by
  obtain ⟨nodes, hn, hspec⟩ := buildNodes_spec sha256 h
  refine ⟨nodes, hn, ?_⟩
  simpa [fullRoot] using hspec treeDepth le_rfl 0 (by simp)

end MerkleRoots

end ObscuraNetwork
