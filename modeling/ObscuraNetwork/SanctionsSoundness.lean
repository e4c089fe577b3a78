import ObscuraNetwork.SanctionsTree
import ObscuraNetwork.CollisionFree
import ObscuraNetwork.Sha256

namespace ObscuraNetwork

namespace SanctionsOracle

/-- The leaf and node strings `build` hashes: one for each entry, one for each chunk of a level. -/
inductive BuildHashes (tree : SanctionsMerkleTree) : Set Bytes
  | leaf (h : Bytes32) (hm : h ∈ tree.sortedAddrHashes) : BuildHashes tree (leafMessage h)
  | node (level : List Bytes32) (i : Nat) (l r : Bytes32) (hlevel : level ∈ tree.levels)
      (hl : level[2 * i]? = some l) (hr : level[2 * i + 1]? = some r) :
      BuildHashes tree (nodeMessage l r)

inductive CircuitHashes (sha256 : Bytes → Bytes32) (witness : SanctionsWitness) : Set Bytes
  | left : CircuitHashes sha256 witness (leafMessage witness.leftLeaf)
  | right : CircuitHashes sha256 witness (leafMessage witness.rightLeaf)
  | leftNode (p : Bytes32 × Bytes32) (hp : p ∈ walkPairs (hashNode sha256) witness.leftIndex.toNat
      (hashLeaf sha256 witness.leftLeaf) witness.leftProof) :
      CircuitHashes sha256 witness (nodeMessage p.1 p.2)
  | rightNode (p : Bytes32 × Bytes32) (hp : p ∈ walkPairs (hashNode sha256)
      witness.rightIndex.toNat (hashLeaf sha256 witness.rightLeaf) witness.rightProof) :
      CircuitHashes sha256 witness (nodeMessage p.1 p.2)

variable {sha256 : Bytes → Bytes32} {addresses : List Bytes32} {d : Nat}
  {tree : SanctionsMerkleTree}

theorem built_root (hb : Built sha256 addresses d tree) : tree.root =
    .ok (treeNode (hashNode sha256) (sanctionsLeaf sha256 tree.sortedAddrHashes) d 0) := by
  have hlast := treeRows_getLast? (hashNode sha256)
    (sanctionsLeaf sha256 tree.sortedAddrHashes) 0 d
  rw [Nat.zero_add] at hlast
  simp only [SanctionsMerkleTree.root, hb.levels, hlast]
  rfl

theorem treePair_hashed (hb : Built sha256 addresses d tree) {p : Bytes32 × Bytes32}
    (hp : p ∈ treePairs (hashNode sha256) (sanctionsLeaf sha256 tree.sortedAddrHashes) d) :
    nodeMessage p.1 p.2 ∈ BuildHashes tree := by
  obtain ⟨k, i, hk, hi, rfl⟩ := hp
  have hrow := treeRow_mem_treeRows (hashNode sha256)
    (sanctionsLeaf sha256 tree.sortedAddrHashes) 0 hk.le
  rw [Nat.zero_add, ← hb.levels] at hrow
  have hpow : 2 ^ (d - k) = 2 * 2 ^ (d - (k + 1)) := by
    rw [← pow_succ', show d - (k + 1) + 1 = d - k by omega]
  exact .node _ i _ _ hrow (treeRow_getElem? _ (by omega)) (treeRow_getElem? _ (by omega))

theorem leaf_ne_node {messages : Set Bytes} (cf : CollisionFreeOn sha256 messages) {x l r : Bytes32}
    (hx : leafMessage x ∈ messages) (hn : nodeMessage l r ∈ messages) :
    hashLeaf sha256 x ≠ hashNode sha256 l r := fun h =>
  leafMessage_ne_nodeMessage x l r (cf hx hn h)

section Positions

variable {messages : Set Bytes} (hb : Built sha256 addresses d tree)
  (cf : CollisionFreeOn sha256 messages) (build : BuildHashes tree ⊆ messages)

include hb cf build

theorem leaf_at {x : Bytes32} (hx : leafMessage x ∈ messages) {j : Nat} (hj : j < 2 ^ d)
    (h : hashLeaf sha256 x = sanctionsLeaf sha256 tree.sortedAddrHashes j) :
    tree.sortedAddrHashes[j]? = some x := by
  have hlen : j < tree.sortedAddrHashes.length := hb.size ▸ hj
  rw [sanctionsLeaf, List.getD_eq_getElem _ _ hlen] at h
  have hmem : leafMessage tree.sortedAddrHashes[j] ∈ messages :=
    build (.leaf _ (List.getElem_mem hlen))
  rw [List.getElem?_eq_getElem hlen, leafMessage_inj (cf hx hmem h)]

/-- An accepted path pins its leaf to the tree: it can neither stop at an inner node nor go on below
a leaf, and the position is the index modulo the size. -/
theorem path_pins_leaf {x : Bytes32} {index : Nat} {proof : List Bytes32}
    (hx : leafMessage x ∈ messages)
    (path : ∀ p ∈ walkPairs (hashNode sha256) index (hashLeaf sha256 x) proof,
      nodeMessage p.1 p.2 ∈ messages)
    (h : walk (hashNode sha256) index (hashLeaf sha256 x) proof =
      treeNode (hashNode sha256) (sanctionsLeaf sha256 tree.sortedAddrHashes) d 0) :
    tree.sortedAddrHashes[index % 2 ^ d]? = some x := by
  let S := {p : Bytes32 × Bytes32 | nodeMessage p.1 p.2 ∈ messages}
  have inj : PairInjOn (hashNode sha256) S :=
    pairInjOn_of_collisionFree cf nodeMessage_inj
  have htree : treePairs (hashNode sha256) (sanctionsLeaf sha256 tree.sortedAddrHashes) d ⊆ S :=
    fun p hp => build (treePair_hashed hb hp)
  rcases Nat.lt_or_ge d proof.length with hlong | hshort
  · have below := walk_sound_below inj htree path hlong.le h
    have hne : proof.take (proof.length - d) ≠ [] := by
      intro hnil
      have := congrArg List.length hnil
      simp only [List.length_take, List.length_nil] at this
      omega
    obtain ⟨p, hp, hcomb⟩ := walk_is_combination (hashNode sha256) index
      (hashLeaf sha256 x) hne
    have hpm : nodeMessage p.1 p.2 ∈ messages := by
      refine path p ?_
      rw [← List.take_append_drop (proof.length - d) proof, walkPairs_append]
      exact List.mem_append_left _ hp
    have hplace := Nat.mod_lt (index / 2 ^ (proof.length - d)) (Nat.two_pow_pos d)
    have hlen : index / 2 ^ (proof.length - d) % 2 ^ d < tree.sortedAddrHashes.length := by
      rwa [hb.size]
    rw [hcomb, sanctionsLeaf, List.getD_eq_getElem _ _ hlen] at below
    exact absurd below.symm (leaf_ne_node cf
      (build (.leaf _ (List.getElem_mem hlen))) hpm)
  · have start := walk_sound inj htree path le_rfl (by simp) hshort h
    rw [Nat.zero_mul, Nat.zero_add] at start
    have hplace := Nat.mod_lt index (Nat.two_pow_pos proof.length)
    cases hd : d - proof.length with
    | zero =>
      have heq : proof.length = d := by omega
      rw [hd, heq] at start
      exact leaf_at hb cf build hx (heq ▸ hplace) start
    | succ k =>
      rw [hd] at start
      have hpair := htree ⟨k, index % 2 ^ proof.length, by omega, by
        rwa [show d - (k + 1) = proof.length by omega], rfl⟩
      exact absurd start (leaf_ne_node cf hx hpair)

end Positions

theorem not_mem_between {xs : List Bytes32} (sorted : xs.Pairwise (· ≤ ·)) {j : Nat}
    {l r h : Bytes32} (hl : xs[j]? = some l) (hr : xs[j + 1]? = some r) (above : l < h)
    (below : h < r) : h ∉ xs := by
  intro hm
  obtain ⟨i, hi, rfl⟩ := List.mem_iff_getElem.mp hm
  obtain ⟨hj, rfl⟩ := List.getElem?_eq_some_iff.mp hl
  obtain ⟨hj', rfl⟩ := List.getElem?_eq_some_iff.mp hr
  rcases Nat.lt_or_ge j i with hlt | hge
  · exact absurd (pairwise_le_getElem sorted hj' hi hlt) (not_le.mpr below)
  · exact absurd (pairwise_le_getElem sorted hi hj hge) (not_le.mpr above)

/-- Positions of an increasing pair, taken modulo the size from indices that are adjacent modulo
`2^64`, are adjacent: any wrap-around puts the right one first. -/
theorem adjacent_positions {xs : List Bytes32} (sorted : xs.Pairwise (· ≤ ·)) {d : Nat}
    {left right : UInt64} {l r : Bytes32} (adjacent : left + 1 = right) (hlt : l < r)
    (hl : xs[left.toNat % 2 ^ d]? = some l) (hr : xs[right.toNat % 2 ^ d]? = some r) :
    right.toNat % 2 ^ d = left.toNat % 2 ^ d + 1 := by
  obtain ⟨hj, rfl⟩ := List.getElem?_eq_some_iff.mp hl
  obtain ⟨hj', rfl⟩ := List.getElem?_eq_some_iff.mp hr
  have hpos : left.toNat % 2 ^ d < right.toNat % 2 ^ d := by
    by_contra hn
    exact absurd (pairwise_le_getElem sorted hj' hj (by omega)) (not_le.mpr hlt)
  have hstep : right.toNat = (left.toNat + 1) % 2 ^ 64 := by
    rw [← adjacent, UInt64.toNat_add]
    rfl
  have hnowrap : right.toNat = left.toNat + 1 := by
    rcases Nat.lt_or_ge (left.toNat + 1) (2 ^ 64) with h | h
    · rwa [Nat.mod_eq_of_lt h] at hstep
    · have := left.toNat_lt
      have hzero : right.toNat = 0 := by
        rw [hstep, show left.toNat + 1 = 2 ^ 64 by omega, Nat.mod_self]
      rw [hzero, Nat.zero_mod] at hpos
      exact absurd hpos (Nat.not_lt_zero _)
  have hmod := Nat.mod_lt left.toNat (Nat.two_pow_pos d)
  rw [hnowrap, ← Nat.mod_add_mod] at hpos ⊢
  rcases Nat.lt_or_ge (left.toNat % 2 ^ d + 1) (2 ^ d) with h | h
  · exact Nat.mod_eq_of_lt h
  · rw [show left.toNat % 2 ^ d + 1 = 2 ^ d by omega, Nat.mod_self] at hpos
    exact absurd hpos (Nat.not_lt_zero _)

/-- No witness accepted against the root of a list's tree is about an address of the list. -/
theorem accepted_recipient_not_listed (sha256 : Bytes → Bytes32) (addresses : List Bytes32) :
    ∃ tree root, build sha256 addresses = .ok tree ∧ tree.root = .ok root ∧
      ∀ witness out, sanctionsMain sha256 witness = .ok out → witness.sanctionsRoot = root →
        CollisionFreeOn sha256 (BuildHashes tree ∪ CircuitHashes sha256 witness) →
        witness.recipient ∉ addresses := by
  obtain ⟨tree, d, hbuild, hb⟩ := build_ok sha256 addresses
  refine ⟨tree, _, hbuild, built_root hb, fun witness out hmain hroot cf hlisted => ?_⟩
  have acc := sanctionsMain_isOk.mp ⟨out, hmain⟩
  have hleft := path_pins_leaf hb cf Set.subset_union_left (Or.inr .left)
    (fun p hp => Or.inr (.leftNode p hp)) (acc.leftWalk.trans hroot)
  have hright := path_pins_leaf hb cf Set.subset_union_left (Or.inr .right)
    (fun p hp => Or.inr (.rightNode p hp)) (acc.rightWalk.trans hroot)
  have hnext := adjacent_positions hb.sorted acc.adjacent (acc.above.trans acc.below) hleft hright
  rw [hnext] at hright
  exact not_mem_between hb.sorted hleft hright acc.above acc.below
    ((hb.mem _).mpr (Or.inr (Or.inr ⟨_, hlisted, rfl⟩)))

def sanctionedAddress : Bytes32 := FixedBytes.replicate 32 1

def listedHash : Bytes32 := hashAddr ObscuraNetwork.sha256 sanctionedAddress

def listedLeaf (h : Bytes32) : Bytes32 := hashLeaf ObscuraNetwork.sha256 h

def listedNode (l r : Bytes32) : Bytes32 :=
  hashNode ObscuraNetwork.sha256 (listedLeaf l) (listedLeaf r)

def listedRoot : Bytes32 := hashNode ObscuraNetwork.sha256 (listedNode minSentinel listedHash)
  (listedNode maxSentinel maxSentinel)

def listedTree : SanctionsMerkleTree where
  sortedAddrHashes := [minSentinel, listedHash, maxSentinel, maxSentinel]
  levels := [[listedLeaf minSentinel, listedLeaf listedHash, listedLeaf maxSentinel,
      listedLeaf maxSentinel],
    [listedNode minSentinel listedHash, listedNode maxSentinel maxSentinel], [listedRoot]]
  depth := 2

def cleanWitness : SanctionsWitness where
  recipient := FixedBytes.replicate 32 2
  sanctionsRoot := listedRoot
  leftLeaf := minSentinel
  rightLeaf := listedHash
  leftProof := [listedLeaf listedHash, listedNode maxSentinel maxSentinel]
  rightProof := [listedLeaf minSentinel, listedNode maxSentinel maxSentinel]
  leftIndex := 0
  rightIndex := 1
  treeDepth := 2
  proofTimestamp := 0

theorem listedTree_built : build ObscuraNetwork.sha256 [sanctionedAddress] = .ok listedTree := by
  have hsorted : sortedHashes ObscuraNetwork.sha256 [sanctionedAddress] =
      [minSentinel, listedHash, maxSentinel] := by decide +kernel
  rw [build, hsorted]
  rfl

theorem cleanWitness_accepted : SanctionsAccepted ObscuraNetwork.sha256 cleanWitness where
  adjacent := rfl
  above := by decide +kernel
  below := by decide +kernel
  leftLength := rfl
  leftWalk := rfl
  rightLength := rfl
  rightWalk := rfl

/-- The six strings hashed for the listed tree; the clean witness adds none. -/
def listedStrings : List Bytes :=
  [leafMessage minSentinel, leafMessage listedHash, leafMessage maxSentinel,
    nodeMessage (listedLeaf minSentinel) (listedLeaf listedHash),
    nodeMessage (listedLeaf maxSentinel) (listedLeaf maxSentinel),
    nodeMessage (listedNode minSentinel listedHash) (listedNode maxSentinel maxSentinel)]

theorem listedPath_cover {p : Bytes32 × Bytes32}
    (hp : p ∈ [(listedLeaf minSentinel, listedLeaf listedHash),
      (listedNode minSentinel listedHash, listedNode maxSentinel maxSentinel)]) :
    nodeMessage p.1 p.2 ∈ listedStrings := by
  simp only [List.mem_cons, List.not_mem_nil, or_false] at hp
  rcases hp with rfl | rfl <;> simp [listedStrings]

theorem listedStrings_cover : ∀ m ∈ BuildHashes listedTree ∪
    CircuitHashes ObscuraNetwork.sha256 cleanWitness, m ∈ listedStrings := by
  intro m hm
  rcases hm with hm | hm
  · cases hm with
    | leaf h hm =>
      have : h = minSentinel ∨ h = listedHash ∨ h = maxSentinel := by
        simpa [listedTree] using hm
      rcases this with rfl | rfl | rfl <;> simp [listedStrings]
    | node level i l r hlevel hl hr =>
      have hbound := (List.getElem?_eq_some_iff.mp hr).1
      simp only [listedTree, List.mem_cons, List.not_mem_nil, or_false] at hlevel
      rcases hlevel with rfl | rfl | rfl <;> simp only [List.length_cons, List.length_nil] at hbound
      · rcases (by omega : i = 0 ∨ i = 1) with rfl | rfl <;> simp at hl hr <;> subst hl hr <;>
          simp [listedStrings]
      · obtain rfl : i = 0 := by omega
        simp at hl hr
        subst hl hr
        simp [listedStrings]
      · omega
  · cases hm with
    | left => simp [listedStrings, cleanWitness]
    | right => simp [listedStrings, cleanWitness]
    | leftNode p hp => exact listedPath_cover hp
    | rightNode p hp => exact listedPath_cover hp

theorem listedStrings_distinct : (listedStrings.map ObscuraNetwork.sha256).Nodup := by
  decide +kernel

theorem clean_recipient_not_listed :
    (∃ out, sanctionsMain ObscuraNetwork.sha256 cleanWitness = .ok out) ∧
    cleanWitness.recipient ∉ [sanctionedAddress] := by
  obtain ⟨out, hout⟩ := sanctionsMain_isOk.mpr cleanWitness_accepted
  obtain ⟨tree, root, hbuild, hroot, sound⟩ :=
    accepted_recipient_not_listed ObscuraNetwork.sha256 [sanctionedAddress]
  cases listedTree_built.symm.trans hbuild
  cases hroot
  exact ⟨⟨out, hout⟩, sound cleanWitness out hout rfl
    (collisionFreeOn_of_nodup listedStrings_cover listedStrings_distinct)⟩

end SanctionsOracle

end ObscuraNetwork
