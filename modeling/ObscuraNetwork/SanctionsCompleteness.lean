import ObscuraNetwork.Build
import ObscuraNetwork.SanctionsSoundness

namespace ObscuraNetwork

namespace SanctionsOracle

/-- A slice of addresses: no more than `isize::MAX` bytes. -/
structure AddressSlice where
  addresses : List Bytes32
  fits : 32 * addresses.length < 2 ^ 63

variable {sha256 : Bytes → Bytes32} {addresses : List Bytes32} {d : Nat}
  {tree : SanctionsMerkleTree}

theorem trailingZerosFrom_two_pow {width k : Nat} (hk : k < width) :
    trailingZerosFrom width (2 ^ k) = k := by
  induction width generalizing k with
  | zero => omega
  | succ width ih =>
    cases k with
    | zero => rfl
    | succ k =>
      have heven : ¬2 ^ (k + 1) % 2 = 1 := by
        rw [pow_succ', Nat.mul_mod_right]
        omega
      have hhalf : 2 ^ (k + 1) / 2 = 2 ^ k := by
        rw [pow_succ', Nat.mul_div_cancel_left _ (by omega)]
      rw [trailingZerosFrom, if_neg heven, hhalf, ih (by omega)]

/-- The tree of a slice is shallow enough for every index and depth the code stores. -/
theorem built_shallow {slice : AddressSlice} (hb : Built sha256 slice.addresses d tree) :
    d < 60 ∧ tree.depth.toNat = d := by
  have hlen : slice.addresses.length + 2 ≤ 2 ^ 59 := by
    have := slice.fits
    omega
  have hd : d ≤ 59 := hb.small.trans (Nat.clog_le_of_le_pow hlen)
  refine ⟨by omega, ?_⟩
  rw [hb.depth, trailingZeros, trailingZerosFrom_two_pow (by omega), UInt32.toNat_ofNat']
  exact Nat.mod_eq_of_lt (by omega)

theorem siblingLoop_rows (leaf : Nat → Bytes32) {k n idx : Nat} (hidx : idx < 2 ^ n) :
    SanctionsMerkleTree.siblingLoop (treeRows (hashNode sha256) leaf k n).dropLast idx =
      .ok (siblingsFrom (hashNode sha256) leaf k idx n) := by
  induction n generalizing k idx with
  | zero => rfl
  | succ n ih =>
    have hpow : 2 ^ (n + 1) = 2 * 2 ^ n := pow_succ' 2 n
    have hsibling : (if idx % 2 = 0 then idx + 1 else idx - 1) < 2 ^ (n + 1) := by
      split <;> omega
    rw [treeRows, List.dropLast_cons_of_ne_nil (treeRows_ne_nil _ _ _),
      SanctionsMerkleTree.siblingLoop, SanctionsMerkleTree.entry, treeRow_getElem? _ hsibling,
      ih (by omega)]
    rfl

theorem entry_ok {xs : List Bytes32} {i : Nat} {x : Bytes32} :
    SanctionsMerkleTree.entry xs i = .ok x ↔ xs[i]? = some x := by
  unfold SanctionsMerkleTree.entry
  cases xs[i]? <;> simp

theorem inclusionProof_ok (hb : Built sha256 addresses d tree) {index : Nat} {h : Bytes32}
    (hentry : tree.sortedAddrHashes[index]? = some h) :
    tree.inclusionProof index = .ok ⟨h, UInt64.ofNat index,
      siblingsFrom (hashNode sha256) (sanctionsLeaf sha256 tree.sortedAddrHashes) 0 index d⟩ := by
  obtain ⟨hlt, _⟩ := List.getElem?_eq_some_iff.mp hentry
  rw [SanctionsMerkleTree.inclusionProof, hb.levels, siblingLoop_rows _ (hb.size ▸ hlt), ok_bind,
    entry_ok.mpr hentry]
  rfl

theorem inclusion_walk (hb : Built sha256 addresses d tree) {index : Nat} {h : Bytes32}
    (hentry : tree.sortedAddrHashes[index]? = some h) :
    walk (hashNode sha256) index (hashLeaf sha256 h)
        (siblingsFrom (hashNode sha256) (sanctionsLeaf sha256 tree.sortedAddrHashes) 0 index d) =
      treeNode (hashNode sha256) (sanctionsLeaf sha256 tree.sortedAddrHashes) d 0 := by
  obtain ⟨hlt, rfl⟩ := List.getElem?_eq_some_iff.mp hentry
  have hleaf : hashLeaf sha256 tree.sortedAddrHashes[index] =
      treeNode (hashNode sha256) (sanctionsLeaf sha256 tree.sortedAddrHashes) 0 index := by
    rw [treeNode, sanctionsLeaf, List.getD_eq_getElem _ _ hlt]
  have hdiv : index / 2 ^ d = 0 := Nat.div_eq_of_lt (hb.size ▸ hlt)
  rw [hleaf, walk_siblings, Nat.zero_add, hdiv]

theorem isSanctioned_iff (hb : Built sha256 addresses d tree) (address : Bytes32) :
    tree.isSanctioned sha256 address = true ↔ hashAddr sha256 address ∈ tree.sortedAddrHashes :=
  binarySearch_isOk hb.sorted _

def position (sha256 : Bytes → Bytes32) (tree : SanctionsMerkleTree) (address : Bytes32) : Nat :=
  partitionPoint (fun h => decide (h < hashAddr sha256 address)) tree.sortedAddrHashes

/-- The partition point of a listed hash is an entry with that hash. -/
theorem position_listed (hb : Built sha256 addresses d tree) {address : Bytes32}
    (hm : hashAddr sha256 address ∈ tree.sortedAddrHashes) :
    tree.sortedAddrHashes[position sha256 tree address]? = some (hashAddr sha256 address) := by
  obtain ⟨_, below, above⟩ := partitionPoint_lt_spec hb.sorted (hashAddr sha256 address)
  obtain ⟨i, hi, heq⟩ := List.mem_iff_getElem.mp hm
  have hle : position sha256 tree address ≤ i := by
    by_contra hn
    exact absurd (below i hi (by simpa [position] using hn)) (heq ▸ lt_irrefl _)
  have hlt : position sha256 tree address < tree.sortedAddrHashes.length := by omega
  rw [List.getElem?_eq_getElem hlt]
  refine congrArg some (le_antisymm ?_ (above _ hlt le_rfl))
  exact heq ▸ pairwise_le_getElem hb.sorted hlt hi hle

/-- An unlisted hash stands strictly between the two entries around its partition point: the
sentinels keep it away from both ends. -/
theorem position_unlisted (hb : Built sha256 addresses d tree) {address : Bytes32}
    (hm : hashAddr sha256 address ∉ tree.sortedAddrHashes) :
    ∃ j l r, position sha256 tree address = j + 1 ∧ tree.sortedAddrHashes[j]? = some l ∧
      tree.sortedAddrHashes[j + 1]? = some r ∧ l < hashAddr sha256 address ∧
      hashAddr sha256 address < r := by
  obtain ⟨_, below, above⟩ := partitionPoint_lt_spec hb.sorted (hashAddr sha256 address)
  obtain ⟨i, hi, hmin⟩ := List.mem_iff_getElem.mp ((hb.mem minSentinel).mpr (Or.inl rfl))
  obtain ⟨k, hk, hmax⟩ := List.mem_iff_getElem.mp ((hb.mem maxSentinel).mpr (Or.inr (Or.inl rfl)))
  have hpos : i < position sha256 tree address := by
    by_contra hn
    have hge := above i hi (by simpa [position] using hn)
    rw [hmin] at hge
    have heq := le_antisymm (FixedBytes.replicate_zero_le _) hge
    exact hm (heq ▸ (hb.mem minSentinel).mpr (Or.inl rfl))
  have hend : position sha256 tree address ≤ k := by
    by_contra hn
    have hlt := below k hk (by simpa [position] using hn)
    rw [hmax] at hlt
    exact absurd (FixedBytes.le_replicate_max _) (not_le.mpr hlt)
  obtain ⟨j, hj⟩ := Nat.exists_eq_add_one_of_ne_zero (Nat.ne_zero_of_lt hpos)
  have hjl : j < tree.sortedAddrHashes.length := by omega
  have hjr : j + 1 < tree.sortedAddrHashes.length := by omega
  refine ⟨j, _, _, hj, List.getElem?_eq_getElem hjl, List.getElem?_eq_getElem hjr,
    below j hjl (by rw [← position, hj]; omega), lt_of_le_of_ne (above (j + 1) hjr ?_) ?_⟩
  · rw [← position, hj]
  · exact fun heq => hm (heq ▸ List.getElem_mem hjr)

theorem nonMembershipWitness_listed (hb : Built sha256 addresses d tree) {address : Bytes32}
    (timestamp : UInt64) (hm : hashAddr sha256 address ∈ tree.sortedAddrHashes) :
    Refused (tree.nonMembershipWitness sha256 address timestamp) := by
  have hpos := position_listed hb hm
  rw [position] at hpos
  rw [SanctionsMerkleTree.nonMembershipWitness, ensure_false (not_not.mpr hpos)]
  exact ⟨_, rfl⟩

/-- An unlisted hash gets a witness that every assertion of the circuit accepts. -/
theorem nonMembershipWitness_unlisted {slice : AddressSlice}
    (hb : Built sha256 slice.addresses d tree) {address : Bytes32} (timestamp : UInt64)
    (hm : hashAddr sha256 address ∉ tree.sortedAddrHashes) :
    ∃ w, tree.nonMembershipWitness sha256 address timestamp = .ok w ∧
      ∀ t, SanctionsAccepted sha256 (w.forRecipient address t) := by
  obtain ⟨j, l, r, hj, hl, hr, habove, hbelow⟩ := position_unlisted hb hm
  obtain ⟨hd, hdepth⟩ := built_shallow hb
  have hfree : ¬tree.sortedAddrHashes[position sha256 tree address]? =
      some (hashAddr sha256 address) := by
    rw [hj, hr]
    exact fun h => absurd (Option.some.inj h) hbelow.ne'
  have hlt : j + 1 < 2 ^ 60 := by
    obtain ⟨hlt, _⟩ := List.getElem?_eq_some_iff.mp hr
    have := Nat.pow_le_pow_right (n := 2) (by omega) hd.le
    have := hb.size
    omega
  have hindex : ∀ i : Nat, i < 2 ^ 60 → (UInt64.ofNat i).toNat = i := by
    intro i hi
    exact UInt64.toNat_ofNat_of_lt' (show i < 2 ^ 64 by omega)
  rw [position] at hj hfree
  refine ⟨⟨treeNode (hashNode sha256) (sanctionsLeaf sha256 tree.sortedAddrHashes) d 0, l, r,
    siblingsFrom (hashNode sha256) (sanctionsLeaf sha256 tree.sortedAddrHashes) 0 j d,
    siblingsFrom (hashNode sha256) (sanctionsLeaf sha256 tree.sortedAddrHashes) 0 (j + 1) d,
    UInt64.ofNat j, UInt64.ofNat (j + 1), tree.depth⟩, ?_,
    fun t => ⟨?_, habove, hbelow, ?_, ?_, ?_, ?_⟩⟩
  · rw [SanctionsMerkleTree.nonMembershipWitness, ensure_true hfree, ok_bind, hj,
      ensure_true (Nat.succ_ne_zero j), ok_bind, Nat.add_sub_cancel, inclusionProof_ok hb hl,
      ok_bind, inclusionProof_ok hb hr, ok_bind, built_root hb, ok_bind, entry_ok.mpr hl, ok_bind,
      entry_ok.mpr hr]
    rfl
  · rw [← UInt64.toNat_inj, toNat_add_of_lt]
    · exact congrArg (· + 1) (hindex j (by omega)) |>.trans (hindex (j + 1) hlt).symm
    · have := hindex j (by omega)
      simp only [NonMembershipWitness.forRecipient, this, UInt64.toNat_one]
      omega
  · exact (siblingsFrom_length _ _ _ _).trans hdepth.symm
  · simp only [NonMembershipWitness.forRecipient, hindex j (by omega)]
    exact inclusion_walk hb hl
  · exact (siblingsFrom_length _ _ _ _).trans hdepth.symm
  · simp only [NonMembershipWitness.forRecipient, hindex (j + 1) hlt]
    exact inclusion_walk hb hr

/-- The oracle and the circuit agree: an address is refused exactly when it is sanctioned, every
listed address is, and every witness the oracle hands out passes the circuit. -/
theorem oracle_complete (sha256 : Bytes → Bytes32) (slice : AddressSlice) :
    ∃ tree, build sha256 slice.addresses = .ok tree ∧ ∀ address timestamp,
      (Refused (tree.nonMembershipWitness sha256 address timestamp) ↔
        tree.isSanctioned sha256 address = true) ∧
      NoPanic (tree.nonMembershipWitness sha256 address timestamp) ∧
      (address ∈ slice.addresses → tree.isSanctioned sha256 address = true) ∧
      ∀ w, tree.nonMembershipWitness sha256 address timestamp = .ok w →
        ∀ t, ∃ out, sanctionsMain sha256 (w.forRecipient address t) = .ok out := by
  obtain ⟨tree, d, hbuild, hb⟩ := build_ok sha256 slice.addresses
  refine ⟨tree, hbuild, fun address timestamp => ?_⟩
  have hsanctioned := isSanctioned_iff hb address
  have hlisted : address ∈ slice.addresses → tree.isSanctioned sha256 address = true :=
    fun ha => hsanctioned.mpr ((hb.mem _).mpr (Or.inr (Or.inr ⟨address, ha, rfl⟩)))
  by_cases hm : hashAddr sha256 address ∈ tree.sortedAddrHashes
  · have hrefused := nonMembershipWitness_listed hb timestamp hm
    exact ⟨iff_of_true hrefused (hsanctioned.mpr hm), hrefused.noPanic, hlisted,
      fun w hw => absurd hw (hrefused.ne_ok w)⟩
  · obtain ⟨w, hw, hacc⟩ := nonMembershipWitness_unlisted hb timestamp hm
    rw [hw]
    refine ⟨iff_of_false (fun h => h.ne_ok w rfl) (fun h => hm (hsanctioned.mp h)), noPanic_ok w,
      hlisted, ?_⟩
    intro w' hw' t
    cases hw'
    exact sanctionsMain_isOk.mpr (hacc t)

end SanctionsOracle

end ObscuraNetwork
