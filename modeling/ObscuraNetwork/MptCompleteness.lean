import ObscuraNetwork.PatriciaTrie

namespace ObscuraNetwork

section Completeness

variable {keccak256 : Bytes → Bytes32} {nibbles : List UInt8} {expected : Bytes}

/-- How the loop goes on after a node. -/
def afterNode (keccak256 : Bytes → Bytes32) (nibbles : List UInt8) (expected : Bytes)
    (proof : List Bytes) : NodeStep → Outcome Bool
  | .reject => .ok false
  | .value bytes => .ok (decide (bytes = expected))
  | .follow nibblePos hash => verifyNodes keccak256 nibbles expected nibblePos hash proof

theorem verifyNodes_cons {nibblePos : Nat} {hash : Bytes32} {node : Bytes} {items : List Bytes}
    (hhash : keccak256 node = hash) (hitems : rlpDecodeList node = .ok (some items))
    (proof : List Bytes) :
    verifyNodes keccak256 nibbles expected nibblePos hash (node :: proof) =
      afterNode keccak256 nibbles expected proof (readNode nibbles nibblePos items) := by
  have hadmitted : ¬(keccak256 node ≠ hash ∧ 32 ≤ node.length) := fun hbad => hbad.1 hhash
  rw [verifyNodes, if_neg hadmitted, hitems, ok_bind]
  dsimp only
  cases readNode nibbles nibblePos items with
  | reject => rfl
  | value bytes => rfl
  | follow nibblePos' hash' => rfl

theorem readPath_extension {path : List UInt8} (hpath : ∀ x ∈ path, x.toNat < 16)
    {nibblePos : Nat} (hpos : nibblePos ≤ nibbles.length) (second : Bytes) :
    readPath nibbles nibblePos (hexPrefix false path) second =
      if path <+: nibbles.drop nibblePos then followHash (nibblePos + path.length) second
      else .reject := by
  simp only [readPath, decodeHp_hexPrefix false hpath, Bool.false_eq_true, if_false]
  by_cases h : path <+: nibbles.drop nibblePos
  · have hlen := h.length_le
    rw [List.length_drop] at hlen
    have hroom : ¬nibbles.length < nibblePos + path.length := by omega
    have htake : (nibbles.drop nibblePos).take path.length = path :=
      (List.prefix_iff_eq_take.mp h).symm
    rw [if_pos h, if_neg hroom, if_neg (not_not.mpr htake)]
  · have htake : (nibbles.drop nibblePos).take path.length ≠ path :=
      fun heq => h (List.prefix_iff_eq_take.mpr heq.symm)
    rw [if_neg h, if_pos htake, ite_self]

theorem readPath_leaf {path : List UInt8} (hpath : ∀ x ∈ path, x.toNat < 16)
    {nibblePos : Nat} (hpos : nibblePos ≤ nibbles.length) (second : Bytes) :
    readPath nibbles nibblePos (hexPrefix true path) second =
      if nibbles.drop nibblePos = path then .value second else .reject := by
  by_cases h : nibbles.drop nibblePos = path
  · rw [if_pos h, readPath_value, decodeHp_hexPrefix true hpath, h]
    exact ⟨⟨hpos, rfl⟩, rfl⟩
  · rw [if_neg h]
    simp only [readPath, decodeHp_hexPrefix true hpath, if_true]
    split
    next => rfl
    next hroom =>
      split
      next => rfl
      next htake =>
        split
        next => rfl
        next hend =>
          have hall : path.length = (nibbles.drop nibblePos).length := by
            rw [List.length_drop]
            omega
          exact absurd (by rw [← not_not.mp htake, hall, List.take_length]) h

namespace Trie

theorem verifyNodes_encode {t : Trie} {items : List Bytes} {nibblePos : Nat}
    (hitems : rlpDecodeList (t.encode keccak256) = .ok (some items)) (proof : List Bytes) :
    verifyNodes keccak256 nibbles expected nibblePos (t.root keccak256)
        (t.encode keccak256 :: proof) =
      afterNode keccak256 nibbles expected proof (readNode nibbles nibblePos items) :=
  verifyNodes_cons rfl hitems proof

/-- What a parent's item lets the loop do with the child it stands for. -/
theorem afterNode_child {child : Trie} {key : List UInt8} {nibblePos : Nat}
    (hchild : (child.encode keccak256).length < 32 ∨
      verifyNodes keccak256 nibbles expected nibblePos (child.root keccak256)
        (child.proof keccak256 key) =
      .ok (decide (child.hashedPath keccak256 key = true ∧ child.lookup key = some expected))) :
    afterNode keccak256 nibbles expected
        (child.proofEntry keccak256 ++ child.proofBelow keccak256 key)
        (followHash nibblePos (child.readReference keccak256)) =
      .ok (decide ((decide (32 ≤ (child.encode keccak256).length) &&
        child.hashedPath keccak256 key) = true ∧ child.lookup key = some expected)) := by
  rw [followHash_reference, proofEntry]
  by_cases hshort : (child.encode keccak256).length < 32
  · have hembedded : ¬32 ≤ (child.encode keccak256).length := by omega
    rw [if_pos hshort, if_pos hshort, decide_eq_false hembedded]
    simp [afterNode]
  · have hlong : 32 ≤ (child.encode keccak256).length := by omega
    have hrest := hchild.resolve_left hshort
    rw [if_neg hshort, if_neg hshort, decide_eq_true hlong, Bool.true_and]
    exact hrest

theorem child_sizes {child : Trie} {key : List UInt8} {first : Bytes}
    (h : ∀ node ∈ first :: (child.proofEntry keccak256 ++ child.proofBelow keccak256 key),
      node.length < 2 ^ 63) (hlong : ¬(child.encode keccak256).length < 32) :
    ∀ node ∈ child.proof keccak256 key, node.length < 2 ^ 63 := by
  intro node hnode
  apply h node
  rw [proofEntry, if_neg hlong]
  exact List.mem_cons_of_mem _ hnode

theorem string_reads {value : Bytes} {items : List Bytes} (h : rlpEncodeBytes value ∈ items)
    (hsize : (rlpEncodeList items).length < 2 ^ 63) : ReadsAs (rlpEncodeBytes value) value := by
  have hitem := length_le_rlpEncodeList h
  have hvalue := length_le_rlpEncodeBytes value
  exact readsAs_string (by omega)

theorem pair_reads {path encoded item : Bytes} (hread : ReadsAs encoded item)
    (hsize : (rlpEncodeList [rlpEncodeBytes path, encoded]).length < 2 ^ 63) :
    rlpDecodeList (rlpEncodeList [rlpEncodeBytes path, encoded]) = .ok (some [path, item]) := by
  have hpath : ReadsAs (rlpEncodeBytes path) path := string_reads (by simp) hsize
  exact rlpDecodeList_reads (.cons hpath (.cons hread .nil)) (by omega)

/-- The 17 items of a branch as they read. -/
def branchItems (keccak256 : Bytes → Bytes32) (children : Fin 16 → Trie) (value : Bytes) :
    List Bytes :=
  List.ofFn (fun i => (children i).readReference keccak256) ++ [value]

theorem branch_items {children : Fin 16 → Trie} {value : Bytes}
    (hsize : ((branch children value).encode keccak256).length < 2 ^ 63) :
    rlpDecodeList ((branch children value).encode keccak256) =
      .ok (some (branchItems keccak256 children value)) := by
  have hchildren : List.Forall₂ ReadsAs
      (List.ofFn fun i => nodeReference keccak256 ((children i).encode keccak256))
      (List.ofFn fun i => (children i).readReference keccak256) := by
    refine List.forall₂_iff_get.mpr ⟨by simp, fun i h h' => ?_⟩
    simp only [List.get_eq_getElem, List.getElem_ofFn]
    exact nodeReference_reads _
  have hitems : List.Forall₂ ReadsAs
      (List.ofFn (fun i => nodeReference keccak256 ((children i).encode keccak256)) ++
        [rlpEncodeBytes value]) (branchItems keccak256 children value) :=
    List.rel_append hchildren (.cons (string_reads (by simp) hsize) .nil)
  have hroom := Nat.add_lt_add_right hsize 9
  exact rlpDecodeList_reads hitems (hroom.trans (by decide))

theorem length_branchItems (children : Fin 16 → Trie) (value : Bytes) :
    (branchItems keccak256 children value).length = 17 := by
  simp [branchItems]

theorem readNode_branchEnd (children : Fin 16 → Trie) (value : Bytes) {nibblePos : Nat}
    (hkey : nibbles.drop nibblePos = []) :
    readNode nibbles nibblePos (branchItems keccak256 children value) = .value value := by
  have hend := List.drop_eq_nil_iff.mp hkey
  have hbranch : readNode nibbles nibblePos (branchItems keccak256 children value) =
      readBranch nibbles nibblePos (branchItems keccak256 children value) :=
    if_pos (length_branchItems children value)
  rw [hbranch, readBranch, if_pos hend, branchItems, List.getD_append_right _ _ _ _ (by simp)]
  simp

theorem readNode_branch (children : Fin 16 → Trie) (value : Bytes) {nibblePos : Nat} {x : UInt8}
    {rest : List UInt8} (hkey : nibbles.drop nibblePos = x :: rest) (hx : x.toNat < 16) :
    readNode nibbles nibblePos (branchItems keccak256 children value) =
      followHash (nibblePos + 1) ((children ⟨x.toNat, hx⟩).readReference keccak256) := by
  have hlt : nibblePos < nibbles.length := by
    by_contra hge
    rw [List.drop_eq_nil_of_le (by omega)] at hkey
    cases hkey
  have hhead : nibbles.getD nibblePos 0 = x := by
    rw [List.getD_eq_getElem _ _ hlt]
    have := List.drop_eq_getElem_cons hlt
    rw [hkey] at this
    exact (List.cons.inj this).1.symm
  have hitem : (branchItems keccak256 children value).getD x.toNat [] =
      (children ⟨x.toNat, hx⟩).readReference keccak256 := by
    rw [branchItems, List.getD_append _ _ _ _ (by simpa using hx),
      List.getD_eq_getElem _ _ (by simpa using hx), List.getElem_ofFn]
  have hbranch : readNode nibbles nibblePos (branchItems keccak256 children value) =
      readBranch nibbles nibblePos (branchItems keccak256 children value) :=
    if_pos (length_branchItems children value)
  rw [hbranch, readBranch, if_neg (by omega), hhead, hitem]

/-- The value of a branch where a key ends, empty meaning none, against an expected one. -/
theorem branchEnd_lookup {children : Fin 16 → Trie} {stored : Bytes}
    (hexpected : expected ≠ [] ∨ (branch children stored).lookup [] ≠ none) :
    stored = expected ↔ (branch children stored).lookup [] = some expected := by
  simp only [lookup] at hexpected ⊢
  by_cases hempty : stored = []
  · rw [if_pos hempty] at hexpected ⊢
    have hsome := hexpected.resolve_right (not_not.mpr rfl)
    rw [hempty]
    exact iff_of_false (Ne.symm hsome) (by simp)
  · rw [if_neg hempty, Option.some.injEq]

/-- The loop on the proof of a key: it goes through when every node below the root has its own
entry and the expected value is the stored one. -/
theorem verifyNodes_proof {t : Trie} {n : Nat} (hwf : t.WellFormed n) {key : List UInt8}
    {nibblePos : Nat} (hlow : ∀ x ∈ nibbles, x.toNat < 16) (hpos : nibblePos ≤ nibbles.length)
    (hkey : nibbles.drop nibblePos = key) (hexpected : expected ≠ [] ∨ t.lookup key ≠ none)
    (hsize : ∀ node ∈ t.proof keccak256 key, node.length < 2 ^ 63) :
    verifyNodes keccak256 nibbles expected nibblePos (t.root keccak256) (t.proof keccak256 key) =
      .ok (decide (t.hashedPath keccak256 key = true ∧ t.lookup key = some expected)) := by
  induction hwf generalizing key nibblePos with
  | empty n =>
    have hitems : rlpDecodeList (Trie.empty.encode keccak256) = .ok none := rfl
    rw [proof, verifyNodes, if_neg (fun hbad => hbad.1 rfl), hitems, ok_bind]
    simp [lookup]
  | @leaf n path stored hlen hpath =>
    have hnode := hsize _ List.mem_cons_self
    have hvalue : ReadsAs (rlpEncodeBytes stored) stored := string_reads (by simp) hnode
    have hitems : rlpDecodeList ((leaf path stored).encode keccak256) =
        .ok (some [hexPrefix true path, stored]) := pair_reads hvalue hnode
    have hread : readNode nibbles nibblePos [hexPrefix true path, stored] =
        if key = path then .value stored else .reject := hkey ▸ readPath_leaf hpath hpos stored
    rw [proof, verifyNodes_encode hitems, hread]
    by_cases heq : key = path
    · simp [heq, afterNode, hashedPath, lookup]
    · simp [heq, afterNode, lookup]
  | @extension n path children stored hne hpath hchild ih =>
    have hnode := hsize _ List.mem_cons_self
    have hitems : rlpDecodeList ((extension path (branch children stored)).encode keccak256) =
        .ok (some [hexPrefix false path, (branch children stored).readReference keccak256]) :=
      pair_reads (nodeReference_reads (branch children stored)) hnode
    have hread : readNode nibbles nibblePos
        [hexPrefix false path, (branch children stored).readReference keccak256] =
        if path <+: key then followHash (nibblePos + path.length)
          ((branch children stored).readReference keccak256)
        else .reject := hkey ▸ readPath_extension hpath hpos _
    rw [proof, verifyNodes_encode hitems, hread]
    by_cases hprefix : path <+: key
    · have hlen := hprefix.length_le
      rw [← hkey, List.length_drop] at hlen
      simp only [proof, proofBelow, hashedPath, lookup, if_pos hprefix] at hsize hexpected ⊢
      apply afterNode_child
      by_cases hshort : ((branch children stored).encode keccak256).length < 32
      · exact Or.inl hshort
      · right
        refine ih (by omega) ?_ hexpected (child_sizes hsize hshort)
        rw [← hkey, List.drop_drop]
    · simp only [hashedPath, lookup, if_neg hprefix]
      simp [afterNode]
  | @branch n children stored hchildren ih =>
    have hnode := hsize _ List.mem_cons_self
    have hitems := branch_items hnode
    cases key with
    | nil =>
      rw [proof, verifyNodes_encode hitems, readNode_branchEnd _ _ hkey]
      simp [afterNode, hashedPath, branchEnd_lookup hexpected]
    | cons x rest =>
      have hx : x.toNat < 16 := hlow x (List.mem_of_mem_drop (hkey ▸ List.mem_cons_self))
      have hroom : nibblePos < nibbles.length := by
        by_contra hge
        rw [List.drop_eq_nil_of_le (by omega)] at hkey
        cases hkey
      have hnext : nibbles.drop (nibblePos + 1) = rest := by
        rw [← List.drop_drop, hkey]
        rfl
      rw [proof, verifyNodes_encode hitems, readNode_branch children stored hkey hx]
      simp only [proof, proofBelow, hashedPath, lookup, dif_pos hx] at hsize hexpected ⊢
      apply afterNode_child
      by_cases hshort : ((children ⟨x.toNat, hx⟩).encode keccak256).length < 32
      · exact Or.inl hshort
      · exact Or.inr (ih ⟨x.toNat, hx⟩ (by omega) hnext hexpected (child_sizes hsize hshort))
  | branchEnd stored =>
    have hnode := hsize _ List.mem_cons_self
    have hitems := branch_items hnode
    cases key with
    | nil =>
      rw [proof, verifyNodes_encode hitems, readNode_branchEnd _ _ hkey]
      simp [afterNode, hashedPath, branchEnd_lookup hexpected]
    | cons x rest =>
      have hx : x.toNat < 16 := hlow x (List.mem_of_mem_drop (hkey ▸ List.mem_cons_self))
      rw [proof, verifyNodes_encode hitems, readNode_branch _ stored hkey hx]
      have hempty : (Trie.empty.encode keccak256).length < 32 := by
        show (rlpEncodeBytes []).length < 32
        decide
      simp only [proofBelow, hashedPath, lookup, dif_pos hx]
      exact @afterNode_child keccak256 nibbles expected .empty rest _ (Or.inl hempty)

end Trie

theorem verifyMptProof_proof {t : Trie} (hwf : t.WellFormed 64) (key : Bytes32)
    (hexpected : expected ≠ [] ∨ t.lookup (bytesToNibbles key) ≠ none)
    (hsize : ∀ node ∈ t.proof keccak256 (bytesToNibbles key), node.length < 2 ^ 63) :
    verifyMptProof keccak256 (t.root keccak256) key (t.proof keccak256 (bytesToNibbles key))
        expected =
      .ok (decide (t.hashedPath keccak256 (bytesToNibbles key) = true ∧
        t.lookup (bytesToNibbles key) = some expected)) :=
  Trie.verifyNodes_proof hwf (bytesToNibbles_spec key).2 (Nat.zero_le _) rfl hexpected hsize

/-- The proof of a stored key is accepted exactly when every node below the root on the way to it is
hashed. The sizes are those a `Vec` can have. -/
theorem mpt_proof_complete (keccak256 : Bytes → Bytes32) {t : Trie} (hwf : t.WellFormed 64)
    {key : Bytes32} {value : Bytes} (hlookup : t.lookup (bytesToNibbles key) = some value)
    (hsize : ∀ node ∈ t.proof keccak256 (bytesToNibbles key), node.length < 2 ^ 63) :
    verifyMptProof keccak256 (t.root keccak256) key (t.proof keccak256 (bytesToNibbles key)) value =
      .ok (t.hashedPath keccak256 (bytesToNibbles key)) := by
  have hstored : value ≠ [] ∨ t.lookup (bytesToNibbles key) ≠ none := Or.inr (by simp [hlookup])
  rw [verifyMptProof_proof hwf key hstored hsize, hlookup]
  simp

end Completeness

/-- Two entries whose keys part at the nibble after `depth` zeros. -/
def twinTrie (depth : Nat) (value : Bytes) : Trie :=
  .extension (List.replicate depth 0) (.branch
    (fun i => if i.val < 2 then .leaf (List.replicate (63 - depth) 0) value else .empty) [])

theorem twinTrie_wellFormed {depth : Nat} (hpos : 0 < depth) (h : depth ≤ 63) (value : Bytes) :
    (twinTrie depth value).WellFormed 64 := by
  have hzeros : ∀ n, ∀ x ∈ List.replicate n (0 : UInt8), x.toNat < 16 := by
    intro n x hx
    rw [List.eq_of_mem_replicate hx]
    decide
  have hchild : Trie.WellFormed (63 - depth + 1) (.branch
      (fun i => if i.val < 2 then .leaf (List.replicate (63 - depth) 0) value else .empty) []) := by
    refine .branch [] fun i => ?_
    split
    · exact .leaf value (List.length_replicate ..) (hzeros _)
    · exact .empty _
  have hne : List.replicate depth (0 : UInt8) ≠ [] := by
    rw [ne_eq, List.replicate_eq_nil_iff]
    omega
  have htrie := Trie.WellFormed.extension hne (hzeros depth) hchild
  have hdepth : (List.replicate depth (0 : UInt8)).length + (63 - depth + 1) = 64 := by
    rw [List.length_replicate]
    omega
  rw [hdepth] at htrie
  exact htrie

theorem mpt_proof_complete_twins :
    verifyMptProof keccak256 ((twinTrie 4 (List.replicate 32 1)).root keccak256)
      (FixedBytes.replicate 32 0)
      ((twinTrie 4 (List.replicate 32 1)).proof keccak256
        (bytesToNibbles (FixedBytes.replicate 32 0)))
      (List.replicate 32 1) = .ok true := by
  have hlookup : (twinTrie 4 (List.replicate 32 1)).lookup
      (bytesToNibbles (FixedBytes.replicate 32 0)) = some (List.replicate 32 1) := by
    decide +kernel
  have hsize : ∀ node ∈ (twinTrie 4 (List.replicate 32 1)).proof keccak256
      (bytesToNibbles (FixedBytes.replicate 32 0)), node.length < 2 ^ 63 := by
    decide +kernel
  rw [mpt_proof_complete keccak256 (twinTrie_wellFormed (by omega) (by omega) _) hlookup hsize]
  decide +kernel

/-- Keys that part at the last nibble: the branch and its leaves stand whole in the extension, and
the proof has one node. -/
theorem embedded_node_rejected :
    (twinTrie 63 [1]).WellFormed 64 ∧
      (twinTrie 63 [1]).lookup (bytesToNibbles (FixedBytes.replicate 32 0)) = some [1] ∧
      verifyMptProof keccak256 ((twinTrie 63 [1]).root keccak256) (FixedBytes.replicate 32 0)
        ((twinTrie 63 [1]).proof keccak256 (bytesToNibbles (FixedBytes.replicate 32 0))) [1] =
          .ok false :=
  ⟨twinTrie_wellFormed (by omega) (by omega) [1], by decide +kernel, by decide +kernel⟩

end ObscuraNetwork
