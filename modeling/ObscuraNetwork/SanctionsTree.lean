import ObscuraNetwork.SanctionsOracle

namespace ObscuraNetwork

namespace SanctionsOracle

section Dedup

variable {α : Type} [DecidableEq α]

theorem mem_destutter'_ne {a b : α} {xs : List α} :
    a ∈ xs.destutter' (· ≠ ·) b ↔ a = b ∨ a ∈ xs := by
  induction xs generalizing b with
  | nil => simp
  | cons x xs ih =>
    by_cases h : b = x
    · subst h
      rw [List.destutter'_cons_neg _ (by simp), ih, List.mem_cons]
      tauto
    · rw [List.destutter'_cons_pos _ h, List.mem_cons, ih, List.mem_cons]

theorem mem_destutter_ne {a : α} {xs : List α} : a ∈ xs.destutter (· ≠ ·) ↔ a ∈ xs := by
  cases xs with
  | nil => simp
  | cons x xs => rw [List.destutter_cons', mem_destutter'_ne, List.mem_cons]

end Dedup

variable {sha256 : Bytes → Bytes32}

theorem sortedHashes_sorted (addresses : List Bytes32) :
    (sortedHashes sha256 addresses).Pairwise (· ≤ ·) :=
  (List.pairwise_insertionSort _ _).sublist (List.destutter_sublist _ _)

theorem mem_sortedHashes {addresses : List Bytes32} {h : Bytes32} :
    h ∈ sortedHashes sha256 addresses ↔
      h = minSentinel ∨ h = maxSentinel ∨ ∃ a ∈ addresses, h = hashAddr sha256 a := by
  rw [sortedHashes, mem_destutter_ne, List.mem_insertionSort]
  simp only [List.mem_append, List.mem_map, List.mem_singleton]
  constructor
  · intro hm
    rcases hm with (⟨a, ha, rfl⟩ | rfl) | rfl
    · exact Or.inr (Or.inr ⟨a, ha, rfl⟩)
    · exact Or.inl rfl
    · exact Or.inr (Or.inl rfl)
  · intro hm
    rcases hm with rfl | rfl | ⟨a, ha, rfl⟩
    · exact Or.inl (Or.inr rfl)
    · exact Or.inr rfl
    · exact Or.inl (Or.inl ⟨a, ha, rfl⟩)

theorem length_sortedHashes_le (addresses : List Bytes32) :
    (sortedHashes sha256 addresses).length ≤ addresses.length + 2 := by
  have h := (List.destutter_sublist (· ≠ ·) ((addresses.map (hashAddr sha256) ++ [minSentinel] ++
    [maxSentinel]).insertionSort (· ≤ ·))).length_le
  simpa [sortedHashes] using h

/-- Padding with the greatest value keeps the order and adds no value. -/
theorem resize_sorted {xs : List Bytes32} (sorted : xs.Pairwise (· ≤ ·)) (size : Nat) :
    (resize size maxSentinel xs).Pairwise (· ≤ ·) := by
  refine List.pairwise_append.mpr ⟨sorted.sublist (List.take_sublist _ _), ?_, ?_⟩
  · exact List.pairwise_replicate.mpr (Or.inr le_rfl)
  · intro a _ b hb
    rw [List.eq_of_mem_replicate hb]
    exact FixedBytes.le_replicate_max a

theorem mem_resize {xs : List Bytes32} {size : Nat} (hsize : xs.length ≤ size)
    (hmax : maxSentinel ∈ xs) {h : Bytes32} : h ∈ resize size maxSentinel xs ↔ h ∈ xs := by
  rw [resize, List.take_of_length_le hsize, List.mem_append]
  constructor
  · intro hm
    rcases hm with hx | hx
    · exact hx
    · exact List.eq_of_mem_replicate hx ▸ hmax
  · exact Or.inl

theorem length_resize {xs : List Bytes32} {size : Nat} (hsize : xs.length ≤ size) :
    (resize size maxSentinel xs).length = size := by
  simp [resize, List.take_of_length_le hsize, hsize]

theorem hashChunks_pairs {ι : Type} (f g : ι → Bytes32) (xs : List ι) :
    hashChunks sha256 (xs.flatMap fun i => [f i, g i]) =
      .ok (xs.map fun i => hashNode sha256 (f i) (g i)) := by
  induction xs with
  | nil => rfl
  | cons x xs ih =>
    show hashChunks sha256 (f x :: g x :: xs.flatMap fun i => [f i, g i]) = _
    rw [hashChunks, ih]
    rfl

theorem hashChunks_row (leaf : Nat → Bytes32) (k n : Nat) :
    hashChunks sha256 (treeRow (hashNode sha256) leaf k (n + 1)) =
      .ok (treeRow (hashNode sha256) leaf (k + 1) n) := by
  rw [treeRow_succ, hashChunks_pairs]
  rfl

theorem buildLevels_row (leaf : Nat → Bytes32) (k n fuel : Nat) (hfuel : n ≤ fuel) :
    buildLevels sha256 fuel (treeRow (hashNode sha256) leaf k n) =
      .ok (treeRows (hashNode sha256) leaf k n) := by
  induction n generalizing k fuel with
  | zero =>
    cases fuel with
    | zero => rfl
    | succ fuel => rw [buildLevels, treeRow_length, if_neg (by simp)]; rfl
  | succ n ih =>
    obtain ⟨fuel, rfl⟩ : ∃ m, fuel = m + 1 := ⟨fuel - 1, by omega⟩
    have hlong : 1 < 2 ^ (n + 1) := Nat.one_lt_two_pow (by omega)
    rw [buildLevels, treeRow_length, if_pos hlong, hashChunks_row, ok_bind,
      ih (k + 1) fuel (by omega), ok_bind, treeRows]
    rfl

def sanctionsLeaf (sha256 : Bytes → Bytes32) (hashes : List Bytes32) (i : Nat) : Bytes32 :=
  hashLeaf sha256 (hashes.getD i maxSentinel)

variable (sha256) in
theorem map_hashLeaf_eq_row {hashes : List Bytes32} {d : Nat} (h : hashes.length = 2 ^ d) :
    hashes.map (hashLeaf sha256) =
      treeRow (hashNode sha256) (sanctionsLeaf sha256 hashes) 0 d := by
  refine List.ext_getElem (by simp [treeRow_length, h]) fun i hi hi' => ?_
  have hlt : i < hashes.length := by simpa using hi
  simp [treeRow, treeNode, sanctionsLeaf, List.getElem?_eq_getElem hlt]

/-- What `build` makes of a list of addresses: `2^d` sorted leaves with both sentinels, and the rows
of the tree over them. -/
structure Built (sha256 : Bytes → Bytes32) (addresses : List Bytes32) (d : Nat)
    (tree : SanctionsMerkleTree) : Prop where
  size : tree.sortedAddrHashes.length = 2 ^ d
  sorted : tree.sortedAddrHashes.Pairwise (· ≤ ·)
  mem : ∀ h, h ∈ tree.sortedAddrHashes ↔
    h = minSentinel ∨ h = maxSentinel ∨ ∃ a ∈ addresses, h = hashAddr sha256 a
  levels : tree.levels =
    treeRows (hashNode sha256) (sanctionsLeaf sha256 tree.sortedAddrHashes) 0 d
  depth : tree.depth = trailingZeros (2 ^ d)
  small : d ≤ Nat.clog 2 (addresses.length + 2)

/-- `build` returns a tree for every list of addresses. -/
theorem build_ok (sha256 : Bytes → Bytes32) (addresses : List Bytes32) :
    ∃ tree d, build sha256 addresses = .ok tree ∧ Built sha256 addresses d tree := by
  set hashes := sortedHashes sha256 addresses with hh
  have hsize : hashes.length ≤ 2 ^ Nat.clog 2 hashes.length := Nat.le_pow_clog (by omega) _
  have hmax : maxSentinel ∈ hashes := mem_sortedHashes.mpr (Or.inr (Or.inl rfl))
  have hlen := length_resize hsize
  have hrow := map_hashLeaf_eq_row sha256 hlen
  have hsmall : Nat.clog 2 hashes.length ≤ Nat.clog 2 (addresses.length + 2) :=
    Nat.clog_mono_right 2 (hh ▸ length_sortedHashes_le addresses)
  have hbuild : build sha256 addresses = buildLevels sha256 (2 ^ Nat.clog 2 hashes.length)
      ((resize (2 ^ Nat.clog 2 hashes.length) maxSentinel hashes).map (hashLeaf sha256)) >>=
      fun levels => pure ⟨resize (2 ^ Nat.clog 2 hashes.length) maxSentinel hashes, levels,
        trailingZeros (2 ^ Nat.clog 2 hashes.length)⟩ := by
    simp only [build, nextPowerOfTwo, ← hh, List.length_map, hlen]
  generalize Nat.clog 2 hashes.length = d at *
  have hfuel : d ≤ 2 ^ d := Nat.lt_two_pow_self.le
  rw [hrow, buildLevels_row _ _ _ _ hfuel, ok_bind] at hbuild
  refine ⟨_, d, hbuild, hlen, ?_, ?_, rfl, rfl, hsmall⟩
  · exact resize_sorted (hh ▸ sortedHashes_sorted addresses) _
  · intro h
    exact (mem_resize hsize hmax).trans mem_sortedHashes

end SanctionsOracle

end ObscuraNetwork
