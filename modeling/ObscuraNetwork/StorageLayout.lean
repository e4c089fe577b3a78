import ObscuraNetwork.Rlp

namespace ObscuraNetwork

/-- How a type takes up storage: in some bytes of a slot or in a slot of its own, from which the
entries are reached by hashing. -/
inductive StorageType where
  | value (bytes : Nat)
  | mapping
  | dynamicArray
  deriving DecidableEq

/-- The declaration of a state variable. -/
structure StateVariable (ν : Type) where
  name : ν
  type : StorageType
  isConstant : Bool
  deriving DecidableEq

/-- A place in storage: the slot and the byte in it, the lowest first. -/
structure StoragePlace where
  slot : Nat
  byte : Nat
  deriving DecidableEq

namespace StoragePlace

/-- The first slot from here on that is wholly free. -/
def freshSlot (p : StoragePlace) : Nat := if p.byte = 0 then p.slot else p.slot + 1

/-- Where a variable starts when the bytes from here on are free. -/
def start (p : StoragePlace) : StorageType → StoragePlace
  | .value bytes => if p.byte + bytes ≤ 32 then p else ⟨p.slot + 1, 0⟩
  | .mapping => ⟨p.freshSlot, 0⟩
  | .dynamicArray => ⟨p.freshSlot, 0⟩

/-- Where the free bytes begin behind it. -/
def behind (p : StoragePlace) (type : StorageType) : StoragePlace :=
  match type with
  | .value bytes => ⟨(p.start type).slot, (p.start type).byte + bytes⟩
  | .mapping => ⟨(p.start type).slot + 1, 0⟩
  | .dynamicArray => ⟨(p.start type).slot + 1, 0⟩

end StoragePlace

section Layout

variable {ν : Type} [DecidableEq ν]

/-- Variables are laid out in the order of their declarations; a constant takes up no storage. -/
def storagePlace (name : ν) : StoragePlace → List (StateVariable ν) → Option StoragePlace
  | _, [] => none
  | p, v :: rest =>
    if v.isConstant then storagePlace name p rest
    else if v.name = name then some (p.start v.type)
    else storagePlace name (p.behind v.type) rest

def slotOf (vars : List (StateVariable ν)) (name : ν) : Option Nat :=
  (storagePlace name ⟨0, 0⟩ vars).map StoragePlace.slot

/-- A type that never shares its slot with another of the kind. -/
def StorageType.Roomy : StorageType → Prop
  | .value bytes => 16 < bytes ∧ bytes ≤ 32
  | .mapping => True
  | .dynamicArray => True

instance : DecidablePred StorageType.Roomy
  | .value bytes => inferInstanceAs (Decidable (16 < bytes ∧ bytes ≤ 32))
  | .mapping => inferInstanceAs (Decidable True)
  | .dynamicArray => inferInstanceAs (Decidable True)

theorem start_of_roomy {type : StorageType} (h : type.Roomy) {p : StoragePlace}
    (hp : p.byte = 0 ∨ 16 < p.byte) : p.start type = ⟨p.freshSlot, 0⟩ := by
  cases type with
  | value bytes =>
    obtain ⟨hlow, hhigh⟩ := h
    rw [StoragePlace.start, StoragePlace.freshSlot]
    rcases hp with hzero | hlate
    · rw [if_pos (by omega), if_pos hzero, ← hzero]
    · rw [if_neg (by omega), if_neg (by omega)]
  | mapping => rfl
  | dynamicArray => rfl

theorem behind_of_roomy {type : StorageType} (h : type.Roomy) {p : StoragePlace}
    (hp : p.byte = 0 ∨ 16 < p.byte) :
    ((p.behind type).byte = 0 ∨ 16 < (p.behind type).byte) ∧
      (p.behind type).freshSlot = p.freshSlot + 1 := by
  have hstart := start_of_roomy h hp
  cases type with
  | value bytes =>
    obtain ⟨hlow, hhigh⟩ := h
    have hbyte : bytes ≠ 0 := by omega
    simp only [StoragePlace.behind, hstart, StoragePlace.freshSlot, Nat.zero_add]
    exact ⟨Or.inr hlow, if_neg hbyte⟩
  | mapping =>
    simp only [StoragePlace.behind, hstart]
    exact ⟨Or.inl trivial, rfl⟩
  | dynamicArray =>
    simp only [StoragePlace.behind, hstart]
    exact ⟨Or.inl trivial, rfl⟩

/-- Among roomy variables every stored declaration moves the later ones up by one slot. -/
theorem slotOf_roomy {before after : List (StateVariable ν)} {name : ν} {type : StorageType}
    (hroomy : ∀ v ∈ before, v.isConstant = false → v.type.Roomy) (htype : type.Roomy)
    (hname : ∀ v ∈ before, v.name ≠ name) :
    slotOf (before ++ ⟨name, type, false⟩ :: after) name =
      some (before.countP fun v => !v.isConstant) := by
  have general : ∀ p : StoragePlace, (p.byte = 0 ∨ 16 < p.byte) →
      (storagePlace name p (before ++ ⟨name, type, false⟩ :: after)).map StoragePlace.slot =
        some (p.freshSlot + before.countP fun v => !v.isConstant) := by
    induction before with
    | nil =>
      intro p hp
      rw [List.nil_append, storagePlace, if_neg Bool.false_ne_true, if_pos rfl,
        start_of_roomy htype hp]
      rfl
    | cons v before ih =>
      intro p hp
      have htail := ih (fun w hw => hroomy w (List.mem_cons_of_mem _ hw))
        (fun w hw => hname w (List.mem_cons_of_mem _ hw))
      rw [List.cons_append, storagePlace]
      cases hconstant : v.isConstant with
      | true =>
        rw [if_pos rfl, htail p hp, List.countP_cons_of_neg (by simp [hconstant])]
      | false =>
        obtain ⟨hbyte, hslot⟩ := behind_of_roomy (hroomy v List.mem_cons_self hconstant) hp
        rw [if_neg Bool.false_ne_true, if_neg (hname v List.mem_cons_self), htail _ hbyte, hslot,
          List.countP_cons_of_pos (by simp [hconstant]), Nat.add_assoc, Nat.add_comm 1]
  have hfirst := general ⟨0, 0⟩ (Or.inl rfl)
  rw [slotOf, hfirst]
  show some (0 + _) = _
  rw [Nat.zero_add]

end Layout

/-- The slot at which a mapping's entry begins. -/
def mappingSlot (keccak256 : Bytes → Bytes32) (slot key : Nat) : Bytes32 :=
  keccak256 (toBeBytes 32 key ++ toBeBytes 32 slot)

theorem toBeBytes_zero (width : Nat) : toBeBytes width 0 = List.replicate width 0 := by
  induction width with
  | zero => rfl
  | succ width ih =>
    rw [toBeBytes, Nat.zero_div, ih, List.replicate_succ']
    rfl

theorem toBeBytes_add (high low n : Nat) :
    toBeBytes (high + low) n = toBeBytes high (n / 256 ^ low) ++ toBeBytes low n := by
  induction low generalizing n with
  | zero => simp [toBeBytes]
  | succ low ih =>
    rw [← Nat.add_assoc, toBeBytes, ih, toBeBytes, Nat.div_div_eq_div_mul, ← pow_succ',
      List.append_assoc]

end ObscuraNetwork
