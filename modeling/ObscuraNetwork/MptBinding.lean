import ObscuraNetwork.CollisionFree
import ObscuraNetwork.Keccak
import ObscuraNetwork.MptProof
import Mathlib.Data.List.Dedup

namespace ObscuraNetwork

/-- The nodes of a proof whose hash decides whether they are let through. -/
def longNodes (proof : List Bytes) : Set Bytes := {node | node ∈ proof ∧ 32 ≤ node.length}

/-- The nibbles already used when each node is read. -/
def readPositions (nibbles : List UInt8) : Nat → List Bytes → List Nat
  | _, [] => []
  | nibblePos, node :: proof =>
    nibblePos :: match rlpDecodeList node with
      | .ok (some items) =>
        match readNode nibbles nibblePos items with
        | .follow nibblePos' _ => readPositions nibbles nibblePos' proof
        | _ => []
      | _ => []

/-- A leaf for the rest of the key has an encoding of fewer than 32 bytes. -/
def ShortLeafFits (nibbles : List UInt8) (nibblePos : Nat) : Prop :=
  ∃ node encodedPath second, node.length < 32 ∧
    rlpDecodeList node = .ok (some [encodedPath, second]) ∧
    decodeHp encodedPath = (true, nibbles.drop nibblePos)

section Node

variable {nibbles : List UInt8} {nibblePos nibblePos' : Nat} {hash : Bytes32}

/-- A node is read as a branch, as a path of two items, or not at all. -/
theorem readNode_cases (nibbles : List UInt8) (nibblePos : Nat) (items : List Bytes) :
    (items.length = 17 ∧ readNode nibbles nibblePos items = readBranch nibbles nibblePos items) ∨
    (∃ encodedPath second, items = [encodedPath, second] ∧
      readNode nibbles nibblePos items = readPath nibbles nibblePos encodedPath second) ∨
    readNode nibbles nibblePos items = .reject := by
  unfold readNode
  split
  next h => exact Or.inl ⟨h, rfl⟩
  next =>
    split
    · exact Or.inr (Or.inl ⟨_, _, rfl, rfl⟩)
    · exact Or.inr (Or.inr rfl)

theorem followHash_follow {pos : Nat} {child : Bytes}
    (h : followHash pos child = .follow nibblePos' hash) :
    pos = nibblePos' ∧ child.length = 32 := by
  unfold followHash at h
  split at h
  next hlen =>
    cases h
    exact ⟨rfl, hlen⟩
  next => cases h

theorem readBranch_value {items : List Bytes} {value : Bytes}
    (h : readBranch nibbles nibblePos items = .value value) : nibbles.length ≤ nibblePos := by
  unfold readBranch at h
  split at h
  next hle => exact hle
  next =>
    unfold followHash at h
    split at h
    next => cases h
    next => cases h

theorem readPath_value {encodedPath second value : Bytes} :
    readPath nibbles nibblePos encodedPath second = .value value ↔
      (nibblePos ≤ nibbles.length ∧ decodeHp encodedPath = (true, nibbles.drop nibblePos)) ∧
        value = second := by
  unfold readPath
  generalize decodeHp encodedPath = decoded
  obtain ⟨isLeaf, path⟩ := decoded
  simp only [Prod.mk.injEq]
  constructor
  · intro h
    split at h
    next => cases h
    next hroom =>
      split at h
      next => cases h
      next hpath =>
        split at h
        next hleaf =>
          split at h
          next => cases h
          next hall =>
            cases h
            refine ⟨⟨by omega, hleaf, ?_⟩, rfl⟩
            rw [← not_not.mp hpath]
            apply List.take_of_length_le
            rw [List.length_drop]
            omega
        next =>
          unfold followHash at h
          split at h
          next => cases h
          next => cases h
  · intro h
    obtain ⟨⟨hle, rfl, rfl⟩, rfl⟩ := h
    have hall : nibblePos + (nibbles.drop nibblePos).length = nibbles.length := by
      rw [List.length_drop]
      omega
    have hroom : ¬nibbles.length < nibbles.length := by omega
    simp only [hall, hroom, List.take_length, ne_eq, not_true_eq_false, if_true, if_false]

/-- The step goes on only at a later nibble and to an item of 32 bytes. -/
theorem readNode_follow {items : List Bytes}
    (h : readNode nibbles nibblePos items = .follow nibblePos' hash) :
    nibblePos' ≤ nibbles.length ∧ ∃ item ∈ items, item.length = 32 := by
  rcases readNode_cases nibbles nibblePos items with
    ⟨_, hcase⟩ | ⟨encodedPath, second, rfl, hcase⟩ | hcase
  · rw [hcase] at h
    unfold readBranch at h
    split at h
    next => cases h
    next hlt =>
      obtain ⟨rfl, hlen⟩ := followHash_follow h
      refine ⟨by omega, items.getD (nibbles.getD nibblePos 0).toNat [], ?_, hlen⟩
      rw [List.getD_eq_getElem?_getD] at hlen ⊢
      cases hitem : items[(nibbles.getD nibblePos 0).toNat]? with
      | none =>
        rw [hitem] at hlen
        cases hlen
      | some item => exact List.mem_of_getElem? hitem
  · rw [hcase] at h
    unfold readPath at h
    simp only at h
    split at h
    next => cases h
    next hroom =>
      split at h
      next => cases h
      next =>
        split at h
        next =>
          split at h
          next => cases h
          next => cases h
        next =>
          obtain ⟨rfl, hlen⟩ := followHash_follow h
          exact ⟨by omega, second, by simp, hlen⟩
  · rw [hcase] at h
    cases h

/-- A node short enough to skip the check cannot lead on: a hash alone fills 32 bytes. -/
theorem short_does_not_follow {keccak256 : Bytes → Bytes32} {hash₀ : Bytes32} {node : Bytes}
    (hshort : node.length < 32) :
    ¬NodeRead keccak256 nibbles nibblePos hash₀ node (.follow nibblePos' hash) := by
  intro h
  obtain ⟨items, hdecoded, hstep⟩ := h.items
  obtain ⟨_, item, hitem, hlen⟩ := readNode_follow hstep
  have := rlpDecodeList_length hdecoded hitem
  omega

/-- A short node that ends the search shows that a short leaf fits there. -/
theorem short_end_fits {keccak256 : Bytes → Bytes32} {node value : Bytes}
    (hshort : node.length < 32)
    (h : NodeRead keccak256 nibbles nibblePos hash node (.value value)) :
    ShortLeafFits nibbles nibblePos := by
  obtain ⟨items, hdecoded, hstep⟩ := h.items
  rcases readNode_cases nibbles nibblePos items with
    ⟨_, hcase⟩ | ⟨encodedPath, second, rfl, hcase⟩ | hcase
  · -- a branch ends the search only where the key does, and there an empty path is a leaf's
    have hend := readBranch_value (hcase.symm.trans hstep)
    refine ⟨[0xc2, 0x20, 0x01], [0x20], [0x01], by decide, by decide, ?_⟩
    rw [List.drop_eq_nil_of_le hend]
    decide
  · obtain ⟨⟨_, hpath⟩, _⟩ := readPath_value.mp (hcase.symm.trans hstep)
    exact ⟨node, encodedPath, second, hshort, hdecoded, hpath⟩
  · rw [hcase] at hstep
    cases hstep

/-- An item that can be written in 29 bytes and a byte below 0x80 make a list of less than 32. -/
theorem two_item_list {encoded item : Bytes} {b : UInt8} (hsome : 0 < encoded.length)
    (hlen : encoded.length ≤ 29) (hb : b.toNat ≤ 0x7f)
    (hread : ∀ rest, rlpDecodeItem (encoded ++ rest) = .ok (some (item, encoded.length))) :
    ∃ node : Bytes, node.length < 32 ∧ rlpDecodeList node = .ok (some [item, [b]]) := by
  have hlast : rlpDecodeItem [b] = .ok (some ([b], 1)) := if_pos hb
  have hpayload : (encoded ++ [b]).length = encoded.length + 1 := List.length_append
  have hfits : (encoded ++ [b]).length + 9 < 2 ^ 64 := by omega
  obtain ⟨stop, hlist⟩ := rlpListPayload_list hfits
  refine ⟨rlpHeader 0xc0 0xf7 (encoded ++ [b]).length ++ (encoded ++ [b]), ?_, ?_⟩
  · rw [rlpHeader_short (by omega), List.length_append, List.length_singleton]
    omega
  · rw [rlpDecodeList, hlist, ok_bind]
    refine rlpDecodeItems_next.mpr ⟨_, hread [b], by omega, ?_⟩
    rw [List.drop_left' rfl]
    exact rlpDecodeItems_next.mpr ⟨1, hlast, by decide, rfl⟩

/-- Where a short leaf fits, one fits with a value other than a given one. -/
theorem short_leaf_value (keccak256 : Bytes → Bytes32) (hpos : nibblePos ≤ nibbles.length)
    (h : ShortLeafFits nibbles nibblePos) (value : Bytes) :
    ∃ node value', node.length < 32 ∧ value' ≠ value ∧
      NodeRead keccak256 nibbles nibblePos hash node (.value value') := by
  obtain ⟨node, encodedPath, second, hshort, hdecoded, hpath⟩ := h
  obtain ⟨payload, hlen, hitems⟩ := rlpDecodeList_ok hdecoded
  obtain ⟨consumed, hitem, _, hmore⟩ := rlpDecodeItems_next.mp hitems
  have hroom : consumed + 1 ≤ payload.length := by
    by_contra hfull
    rw [List.drop_eq_nil_of_le (by omega)] at hmore
    cases hmore
  obtain ⟨encoded, hsome, hencoded, hagain⟩ := rlpDecodeItem_again hitem (by omega)
  have hne : ∃ b : UInt8, b.toNat ≤ 0x7f ∧ [b] ≠ value := by
    by_cases hone : [(1 : UInt8)] = value
    · exact ⟨2, by decide, fun htwo => by rw [← hone] at htwo; cases htwo⟩
    · exact ⟨1, by decide, hone⟩
  obtain ⟨b, hb, hvalue⟩ := hne
  obtain ⟨forged, hsmall, hforged⟩ := two_item_list hsome hencoded hb hagain
  have hstep : readNode nibbles nibblePos [encodedPath, [b]] = .value [b] :=
    readPath_value.mpr ⟨⟨hpos, hpath⟩, rfl⟩
  exact ⟨forged, [b], hsmall, hvalue, Or.inr hsmall, _, hforged, hstep⟩

end Node

section Binding

variable {keccak256 : Bytes → Bytes32} {nibbles : List UInt8} {value value' : Bytes}

/-- Two nodes whose hashes are checked against one hash are one node. -/
theorem long_reads_agree {messages : Set Bytes} (cf : CollisionFreeOn keccak256 messages)
    {nibblePos : Nat} {hash : Bytes32} {node node' : Bytes} {step step' : NodeStep}
    (h : NodeRead keccak256 nibbles nibblePos hash node step)
    (h' : NodeRead keccak256 nibbles nibblePos hash node' step') (hlong : 32 ≤ node.length)
    (hlong' : 32 ≤ node'.length) (hm : node ∈ messages) (hm' : node' ∈ messages) :
    step = step' := by
  have hhash := h.admitted.resolve_right (by omega)
  have hhash' := h'.admitted.resolve_right (by omega)
  obtain rfl : node = node' := cf hm hm' (hhash.trans hhash'.symm)
  obtain ⟨items, hdecoded, hstep⟩ := h.items
  obtain ⟨items', hdecoded', hstep'⟩ := h'.items
  cases hdecoded.symm.trans hdecoded'
  exact hstep.symm.trans hstep'

theorem mem_longNodes {node : Bytes} {proof : List Bytes} (h : 32 ≤ node.length) :
    node ∈ longNodes (node :: proof) := ⟨List.mem_cons_self, h⟩

theorem longNodes_cons (node : Bytes) (proof : List Bytes) :
    longNodes proof ⊆ longNodes (node :: proof) :=
  fun _ hm => ⟨List.mem_cons_of_mem _ hm.1, hm.2⟩

theorem position_mem (nibblePos : Nat) (node : Bytes) (proof : List Bytes) :
    nibblePos ∈ readPositions nibbles nibblePos (node :: proof) := List.mem_cons_self

theorem readPositions_follow {nibblePos nibblePos' : Nat} {hash hash' : Bytes32} {node : Bytes}
    (proof : List Bytes)
    (h : NodeRead keccak256 nibbles nibblePos hash node (.follow nibblePos' hash')) :
    readPositions nibbles nibblePos (node :: proof) =
      nibblePos :: readPositions nibbles nibblePos' proof := by
  obtain ⟨items, hdecoded, hstep⟩ := h.items
  simp only [readPositions, hdecoded, hstep]

theorem readPositions_value {nibblePos : Nat} {hash : Bytes32} {node : Bytes} (proof : List Bytes)
    (h : NodeRead keccak256 nibbles nibblePos hash node (.value value)) :
    readPositions nibbles nibblePos (node :: proof) = [nibblePos] := by
  obtain ⟨items, hdecoded, hstep⟩ := h.items
  simp only [readPositions, hdecoded, hstep]

/-- Where no short leaf fits, every node that leads on is reached by its hash. -/
theorem read_is_long {nibblePos : Nat} {hash : Bytes32} {node : Bytes} {step : NodeStep}
    (hfits : ¬ShortLeafFits nibbles nibblePos)
    (h : NodeRead keccak256 nibbles nibblePos hash node step) (hne : step ≠ .reject) :
    32 ≤ node.length := by
  by_contra hshort
  cases step with
  | reject => exact hne rfl
  | value bytes => exact hfits (short_end_fits (by omega) h)
  | follow nibblePos' hash' => exact short_does_not_follow (by omega) h

/-- Two nodes read in one place where no short leaf fits say the same. -/
theorem heads_agree {messages : Set Bytes} (cf : CollisionFreeOn keccak256 messages)
    {nibblePos : Nat} {hash : Bytes32} {node node' : Bytes} {proof proof' : List Bytes}
    {step step' : NodeStep} (hfits : ¬ShortLeafFits nibbles nibblePos)
    (h : NodeRead keccak256 nibbles nibblePos hash node step) (hne : step ≠ .reject)
    (h' : NodeRead keccak256 nibbles nibblePos hash node' step') (hne' : step' ≠ .reject)
    (hs : longNodes (node :: proof) ⊆ messages) (hs' : longNodes (node' :: proof') ⊆ messages) :
    step = step' := by
  have hlong := read_is_long hfits h hne
  have hlong' := read_is_long hfits h' hne'
  exact long_reads_agree cf h h' hlong hlong' (hs (mem_longNodes hlong))
    (hs' (mem_longNodes hlong'))

/-- Two searches from one place stay together as long as no short leaf fits where they read. -/
theorem paths_agree {messages : Set Bytes} (cf : CollisionFreeOn keccak256 messages)
    {nibblePos : Nat} {hash : Bytes32} {proof proof' : List Bytes}
    (h : MptPath keccak256 nibbles value nibblePos hash proof)
    (h' : MptPath keccak256 nibbles value' nibblePos hash proof')
    (hs : longNodes proof ⊆ messages) (hs' : longNodes proof' ⊆ messages)
    (hno : ∀ p ∈ readPositions nibbles nibblePos proof, ¬ShortLeafFits nibbles p) :
    value' = value := by
  induction h generalizing proof' with
  | @last nibblePos hash node proof hread =>
    have hhere := hno nibblePos (position_mem nibblePos node proof)
    cases h' with
    | @last _ _ node' proof' hread' =>
      cases heads_agree cf hhere hread (by simp) hread' (by simp) hs hs'
      rfl
    | @next _ _ _ _ node' proof' hread' rest' =>
      cases heads_agree cf hhere hread (by simp) hread' (by simp) hs hs'
  | @next nibblePos nibblePos' hash hash' node proof hread rest ih =>
    have hhere := hno nibblePos (position_mem nibblePos node proof)
    have hlater : ∀ p ∈ readPositions nibbles nibblePos' proof, ¬ShortLeafFits nibbles p := by
      intro p hp
      apply hno
      rw [readPositions_follow proof hread]
      exact List.mem_cons_of_mem _ hp
    cases h' with
    | @last _ _ node' proof' hread' =>
      cases heads_agree cf hhere hread (by simp) hread' (by simp) hs hs'
    | @next _ _ _ _ node' proof' hread' rest' =>
      cases heads_agree cf hhere hread (by simp) hread' (by simp) hs hs'
      exact ih rest' ((longNodes_cons node proof).trans hs)
        ((longNodes_cons node' proof').trans hs') hlater

/-- Where an accepted search reads a node and a short leaf fits, the search can end with another
value, on the nodes it has followed so far and a short leaf. -/
theorem forged_path {nibblePos : Nat} {hash : Bytes32} {proof : List Bytes}
    (hpos : nibblePos ≤ nibbles.length) (h : MptPath keccak256 nibbles value nibblePos hash proof)
    {p : Nat} (hp : p ∈ readPositions nibbles nibblePos proof) (hfits : ShortLeafFits nibbles p) :
    ∃ proof' value', value' ≠ value ∧ MptPath keccak256 nibbles value' nibblePos hash proof' ∧
      longNodes proof' ⊆ longNodes proof := by
  have here : ∀ (nibblePos : Nat) (hash : Bytes32) (proof : List Bytes),
      nibblePos ≤ nibbles.length → ShortLeafFits nibbles nibblePos →
      ∃ proof' value', value' ≠ value ∧ MptPath keccak256 nibbles value' nibblePos hash proof' ∧
        longNodes proof' ⊆ longNodes proof := by
    intro nibblePos hash proof hpos hfits
    obtain ⟨node, value', hshort, hne, hread⟩ := short_leaf_value keccak256 hpos hfits value
    refine ⟨[node], value', hne, .last [] hread, ?_⟩
    intro m hm
    have hlen := hm.2
    rw [List.mem_singleton.mp hm.1] at hlen
    omega
  induction h with
  | @last nibblePos hash node proof hread =>
    rw [readPositions_value proof hread, List.mem_singleton] at hp
    exact here nibblePos hash (node :: proof) hpos (hp ▸ hfits)
  | @next nibblePos nibblePos' hash hash' node proof hread rest ih =>
    rw [readPositions_follow proof hread, List.mem_cons] at hp
    rcases hp with rfl | hp
    · exact here p hash (node :: proof) hpos hfits
    · obtain ⟨items, _, hstep⟩ := hread.items
      obtain ⟨proof', value', hne, hpath, hsub⟩ := ih (readNode_follow hstep).1 hp
      refine ⟨node :: proof', value', hne, .next hread hpath, ?_⟩
      intro m hm
      rcases List.mem_cons.mp hm.1 with rfl | hmem
      · exact mem_longNodes hm.2
      · exact longNodes_cons node proof (hsub ⟨hmem, hm.2⟩)

/-- An accepted proof has the only value that can be proved for its root and key exactly when it
reads no node at a place where a leaf for the rest of the key fits in fewer than 32 bytes. -/
theorem mpt_value_bound_iff {root key : Bytes32} {proof : List Bytes}
    (cf : CollisionFreeOn keccak256 (longNodes proof))
    (h : verifyMptProof keccak256 root key proof value = .ok true) :
    (∀ proof' value', CollisionFreeOn keccak256 (longNodes proof ∪ longNodes proof') →
      verifyMptProof keccak256 root key proof' value' = .ok true → value' = value) ↔
    ∀ nibblePos ∈ readPositions (bytesToNibbles key) 0 proof,
      ¬ShortLeafFits (bytesToNibbles key) nibblePos := by
  have hpath := verifyMptProof_true.mp h
  constructor
  · intro bound nibblePos hp hfits
    obtain ⟨proof', value', hne, hpath', hsub⟩ := forged_path (Nat.zero_le _) hpath hp hfits
    refine hne (bound proof' value' ?_ (verifyMptProof_true.mpr hpath'))
    rw [Set.union_eq_self_of_subset_right hsub]
    exact cf
  · intro hno proof' value' cf' h'
    exact paths_agree cf' hpath (verifyMptProof_true.mp h') Set.subset_union_left
      Set.subset_union_right hno

end Binding

def packNibbles : List UInt8 → Bytes
  | high :: low :: rest => UInt8.ofNat (16 * high.toNat + low.toNat) :: packNibbles rest
  | _ => []

/-- The hex-prefix encoding of a path of nibbles, flagged as a leaf's or an extension's. -/
def hexPrefix (isLeaf : Bool) (nibbles : List UInt8) : Bytes :=
  let flag := if isLeaf then 2 else 0
  match nibbles, nibbles.length % 2 with
  | first :: rest, 1 => UInt8.ofNat (16 * (flag + 1) + first.toNat) :: packNibbles rest
  | _, _ => UInt8.ofNat (16 * flag) :: packNibbles nibbles

section LeafPath

theorem byteNibbles_eq (b : UInt8) :
    byteNibbles b = [UInt8.ofNat (b.toNat / 16), UInt8.ofNat (b.toNat % 16)] := by
  have hb := b.toNat_lt
  have hhigh : b >>> 4 = UInt8.ofNat (b.toNat / 16) := by
    apply UInt8.toNat_inj.mp
    rw [UInt8.toNat_shiftRight, UInt8.toNat_ofNat_of_lt' (by simp [UInt8.size]; omega)]
    exact Nat.shiftRight_eq_div_pow _ _
  have hlow : b &&& 0x0f = UInt8.ofNat (b.toNat % 16) := by
    apply UInt8.toNat_inj.mp
    rw [UInt8.toNat_and, UInt8.toNat_ofNat_of_lt' (by simp [UInt8.size]; omega)]
    exact Nat.and_two_pow_sub_one_eq_mod b.toNat 4
  rw [byteNibbles, hhigh, hlow]

theorem byteNibbles_pack {high low : UInt8} (hh : high.toNat < 16) (hl : low.toNat < 16) :
    byteNibbles (UInt8.ofNat (16 * high.toNat + low.toNat)) = [high, low] := by
  have hbyte : (UInt8.ofNat (16 * high.toNat + low.toNat)).toNat = 16 * high.toNat + low.toNat :=
    UInt8.toNat_ofNat_of_lt' (by simp [UInt8.size]; omega)
  have hhigh : (16 * high.toNat + low.toNat) / 16 = high.toNat := by omega
  have hlow : (16 * high.toNat + low.toNat) % 16 = low.toNat := by omega
  rw [byteNibbles_eq, hbyte, hhigh, hlow, UInt8.ofNat_toNat, UInt8.ofNat_toNat]

theorem byteNibbles_lt {b n : UInt8} (h : n ∈ byteNibbles b) : n.toNat < 16 := by
  have hb := b.toNat_lt
  rw [byteNibbles_eq] at h
  simp only [List.mem_cons, List.not_mem_nil, or_false] at h
  rcases h with rfl | rfl
  · rw [UInt8.toNat_ofNat']
    omega
  · rw [UInt8.toNat_ofNat']
    omega

theorem packNibbles_spec {nibbles : List UInt8} (h : ∀ n ∈ nibbles, n.toNat < 16)
    (heven : nibbles.length % 2 = 0) :
    (packNibbles nibbles).flatMap byteNibbles = nibbles ∧
      2 * (packNibbles nibbles).length = nibbles.length := by
  induction nibbles using packNibbles.induct with
  | case1 high low rest ih =>
    simp only [List.length_cons] at heven
    obtain ⟨hrest, hlen⟩ := ih (fun n hn => h n (by simp [hn])) (by omega)
    rw [packNibbles, List.flatMap_cons, byteNibbles_pack (h high (by simp)) (h low (by simp)),
      hrest]
    refine ⟨rfl, ?_⟩
    simp only [List.length_cons]
    omega
  | case2 nibbles hshort =>
    cases nibbles with
    | nil => exact ⟨rfl, rfl⟩
    | cons first rest =>
      cases rest with
      | nil => cases heven
      | cons second rest => exact absurd rfl (hshort first second rest)

theorem decodeHp_odd {flag first : UInt8} (hflag : flag.toNat < 16) (hfirst : first.toNat < 16)
    (hodd : flag &&& 1 = 1) (rest : Bytes) :
    decodeHp (UInt8.ofNat (16 * flag.toNat + first.toNat) :: rest) =
      (decide (2 ≤ flag), first :: rest.flatMap byteNibbles) := by
  have hpack := byteNibbles_pack hflag hfirst
  obtain ⟨hhigh, hlow⟩ := List.cons_eq_cons.mp hpack
  have hlow' := List.head_eq_of_cons_eq hlow
  have hmask : flag &&& 0x0f = flag := by
    apply UInt8.toNat_inj.mp
    have hmod : (flag &&& 0x0f).toNat = flag.toNat % 16 := by
      rw [UInt8.toNat_and]
      exact Nat.and_two_pow_sub_one_eq_mod flag.toNat 4
    rw [hmod, Nat.mod_eq_of_lt hflag]
  simp only [decodeHp, hhigh, hlow', hmask, hodd, if_true]
  rfl

theorem hexPrefix_even (isLeaf : Bool) {nibbles : List UInt8} (h : nibbles.length % 2 = 0) :
    hexPrefix isLeaf nibbles =
      UInt8.ofNat (16 * if isLeaf then 2 else 0) :: packNibbles nibbles := by
  unfold hexPrefix
  rw [h]
  cases nibbles <;> rfl

theorem hexPrefix_odd (isLeaf : Bool) {first : UInt8} {rest : List UInt8}
    (h : (first :: rest).length % 2 = 1) : hexPrefix isLeaf (first :: rest) =
      UInt8.ofNat (16 * ((if isLeaf then 2 else 0) + 1) + first.toNat) :: packNibbles rest := by
  unfold hexPrefix
  rw [h]
  rfl

theorem decodeHp_hexPrefix (isLeaf : Bool) {nibbles : List UInt8}
    (h : ∀ n ∈ nibbles, n.toNat < 16) :
    decodeHp (hexPrefix isLeaf nibbles) = (isLeaf, nibbles) := by
  rcases Nat.mod_two_eq_zero_or_one nibbles.length with heven | hodd
  · obtain ⟨hnibbles, _⟩ := packNibbles_spec h heven
    rw [hexPrefix_even isLeaf heven, decodeHp, hnibbles]
    cases isLeaf <;> rfl
  · cases nibbles with
    | nil => cases hodd
    | cons first rest =>
      have hfirst := h first List.mem_cons_self
      have hrest : rest.length % 2 = 0 := by
        rw [List.length_cons] at hodd
        omega
      obtain ⟨hnibbles, _⟩ :=
        packNibbles_spec (fun n hn => h n (List.mem_cons_of_mem _ hn)) hrest
      rw [hexPrefix_odd isLeaf hodd]
      cases isLeaf with
      | true =>
        have hdecode := decodeHp_odd (by decide : (3 : UInt8).toNat < 16) hfirst (by decide)
          (packNibbles rest)
        rw [hnibbles] at hdecode
        exact hdecode
      | false =>
        have hdecode := decodeHp_odd (by decide : (1 : UInt8).toNat < 16) hfirst (by decide)
          (packNibbles rest)
        rw [hnibbles] at hdecode
        exact hdecode

theorem length_hexPrefix (isLeaf : Bool) {nibbles : List UInt8}
    (h : ∀ n ∈ nibbles, n.toNat < 16) :
    (hexPrefix isLeaf nibbles).length = nibbles.length / 2 + 1 := by
  rcases Nat.mod_two_eq_zero_or_one nibbles.length with heven | hodd
  · obtain ⟨_, hlen⟩ := packNibbles_spec h heven
    rw [hexPrefix_even isLeaf heven, List.length_cons]
    omega
  · cases nibbles with
    | nil => cases hodd
    | cons first rest =>
      rw [hexPrefix_odd isLeaf hodd]
      simp only [List.length_cons] at hodd ⊢
      obtain ⟨_, hlen⟩ := packNibbles_spec (fun n hn => h n (List.mem_cons_of_mem _ hn))
        (by omega : rest.length % 2 = 0)
      omega

theorem bytesToNibbles_spec (key : Bytes32) :
    (bytesToNibbles key).length = 64 ∧ ∀ n ∈ bytesToNibbles key, n.toNat < 16 := by
  constructor
  · have hpair : ∀ b ∈ key.bytes, (byteNibbles b).length = 2 := fun _ _ => rfl
    rw [bytesToNibbles, List.length_flatMap, List.map_congr_left hpair, List.map_const',
      List.sum_replicate_nat, key.length_bytes]
  · intro n hn
    obtain ⟨b, _, hb⟩ := List.mem_flatMap.mp hn
    exact byteNibbles_lt hb

/-- Once nine nibbles are used a short leaf fits, whatever the key. -/
theorem short_leaf_fits_after_nine {key : Bytes32} {nibblePos : Nat} (h : 9 ≤ nibblePos) :
    ShortLeafFits (bytesToNibbles key) nibblePos := by
  obtain ⟨hlen, hlow⟩ := bytesToNibbles_spec key
  have hrest : ((bytesToNibbles key).drop nibblePos).length = 64 - nibblePos := by
    rw [List.length_drop, hlen]
  have hrestLow : ∀ n ∈ (bytesToNibbles key).drop nibblePos, n.toNat < 16 :=
    fun n hn => hlow n (List.mem_of_mem_drop hn)
  have hpath := decodeHp_hexPrefix true hrestLow
  have hsize := length_hexPrefix true hrestLow
  generalize hexPrefix true ((bytesToNibbles key).drop nibblePos) = path at hpath hsize
  have hencoded : (rlpEncodeBytes path).length ≤ path.length + 1 :=
    rlpEncodeBytes_length_le (by omega)
  have hpayload : ([path, [0x01]].map rlpEncodeBytes).flatten.length ≤ 30 := by
    have hone : (rlpEncodeBytes [0x01]).length = 1 := rfl
    simp only [List.map_cons, List.map_nil, List.flatten_cons, List.flatten_nil, List.length_append,
      List.length_nil, hone]
    omega
  refine ⟨rlpEncodeList ([path, [0x01]].map rlpEncodeBytes), path, [0x01], ?_,
    rlpDecodeList_encode (by omega), hpath⟩
  rw [rlpEncodeList, rlpHeader_short (by omega), List.singleton_append, List.length_cons]
  omega

end LeafPath

/-- A leaf below the branch of the sample trie: two keys that share their first nine nibbles and
have zeros after the tenth. -/
def forkLeaf (value : Bytes) : Bytes :=
  rlpEncodeList ([0x20 :: List.replicate 27 0, value].map rlpEncodeBytes)

def forkBranch : Bytes :=
  rlpEncodeList (((keccak256 (forkLeaf (List.replicate 32 1))).bytes ::
    (keccak256 (forkLeaf (List.replicate 32 2))).bytes :: List.replicate 15 []).map rlpEncodeBytes)

def forkExtension : Bytes :=
  rlpEncodeList ([0x10 :: List.replicate 4 0, (keccak256 forkBranch).bytes].map rlpEncodeBytes)

def forkProof (value : Bytes) : List Bytes := [forkExtension, forkBranch, forkLeaf value]

theorem forkProof_accepted :
    verifyMptProof keccak256 (keccak256 forkExtension) (FixedBytes.replicate 32 0)
      (forkProof (List.replicate 32 1)) (List.replicate 32 1) = .ok true := by decide +kernel

theorem forkNodes_distinct :
    ((forkProof (List.replicate 32 1) ++ forkProof [0x02]).dedup.map keccak256).Nodup := by
  decide +kernel

theorem forkNodes_collisionFree :
    CollisionFreeOn keccak256
      {node | node ∈ forkProof (List.replicate 32 1) ++ forkProof [0x02]} :=
  collisionFreeOn_of_nodup (fun _ hm => List.mem_dedup.mpr hm) forkNodes_distinct

theorem mpt_value_bound_iff_fork :
    (∀ proof' value', CollisionFreeOn keccak256
        (longNodes (forkProof (List.replicate 32 1)) ∪ longNodes proof') →
      verifyMptProof keccak256 (keccak256 forkExtension) (FixedBytes.replicate 32 0) proof' value' =
        .ok true → value' = List.replicate 32 1) ↔
    ∀ nibblePos ∈ readPositions (bytesToNibbles (FixedBytes.replicate 32 0)) 0
        (forkProof (List.replicate 32 1)),
      ¬ShortLeafFits (bytesToNibbles (FixedBytes.replicate 32 0)) nibblePos := by
  refine mpt_value_bound_iff (forkNodes_collisionFree.mono fun m hm => ?_) forkProof_accepted
  exact List.mem_append_left _ hm.1

/-- Below the same extension and branch a leaf of 31 bytes proves another value. -/
theorem short_leaf_forges_value :
    verifyMptProof keccak256 (keccak256 forkExtension) (FixedBytes.replicate 32 0)
        (forkProof (List.replicate 32 1)) (List.replicate 32 1) = .ok true ∧
      verifyMptProof keccak256 (keccak256 forkExtension) (FixedBytes.replicate 32 0)
        (forkProof [0x02]) [0x02] = .ok true ∧
      CollisionFreeOn keccak256
        {node | node ∈ forkProof (List.replicate 32 1) ++ forkProof [0x02]} ∧
      List.replicate 32 1 ≠ [(0x02 : UInt8)] := by
  refine ⟨forkProof_accepted, by decide +kernel, forkNodes_collisionFree, by decide⟩

end ObscuraNetwork
