import ObscuraNetwork.GenuineDeposit
import ObscuraNetwork.StorageLayout

namespace ObscuraNetwork

inductive BridgeVersion where
  | v1
  | v2
  deriving DecidableEq

inductive BridgeVariable where
  | usdc
  | maxDeposit
  | minDeposit
  | maxSigners
  | owner
  | relayer
  | threshold
  | relayerSigners
  | nextDepositId
  | deposits
  | usedWithdrawalNonces
  deriving DecidableEq

namespace BridgeVersion

/-- The declarations of the two contracts before `deposits`, addresses of 20 bytes and integers
of 32. -/
def declaredBefore : BridgeVersion → List (StateVariable BridgeVariable)
  | v1 =>
    [⟨.usdc, .value 20, true⟩, ⟨.maxDeposit, .value 32, true⟩, ⟨.minDeposit, .value 32, true⟩,
      ⟨.owner, .value 20, false⟩, ⟨.relayer, .value 20, false⟩,
      ⟨.nextDepositId, .value 32, false⟩]
  | v2 =>
    [⟨.usdc, .value 20, true⟩, ⟨.maxDeposit, .value 32, true⟩, ⟨.minDeposit, .value 32, true⟩,
      ⟨.maxSigners, .value 32, true⟩, ⟨.owner, .value 20, false⟩, ⟨.threshold, .value 32, false⟩,
      ⟨.relayerSigners, .dynamicArray, false⟩, ⟨.nextDepositId, .value 32, false⟩]

def stateVariables (version : BridgeVersion) : List (StateVariable BridgeVariable) :=
  version.declaredBefore ++
    [⟨.deposits, .mapping, false⟩, ⟨.usedWithdrawalNonces, .mapping, false⟩]

/-- The view function of the contracts; both name slot 3. -/
def depositSlot (keccak256 : Bytes → Bytes32) : BridgeVersion → Nat → Bytes32
  | v1, depositId => keccak256 (toBeBytes 32 depositId ++ toBeBytes 32 3)
  | v2, id => keccak256 (toBeBytes 32 id ++ toBeBytes 32 3)

/-- Where the layout rules put `deposits[depositId]`. -/
def depositBegins (keccak256 : Bytes → Bytes32) (version : BridgeVersion) (depositId : UInt64) :
    Option Bytes32 :=
  (slotOf version.stateVariables .deposits).map fun slot =>
    mappingSlot keccak256 slot depositId.toNat

/-- The circuit, the relayer and the contract all name the slot where the deposit begins. -/
def SlotsAgree (keccak256 : Bytes → Bytes32) (version : BridgeVersion) (depositId : UInt64) :
    Prop :=
  version.depositBegins keccak256 depositId = some (depositStorageSlot keccak256 depositId) ∧
    computeDepositSlot keccak256 depositId = depositStorageSlot keccak256 depositId ∧
    version.depositSlot keccak256 depositId.toNat = depositStorageSlot keccak256 depositId

end BridgeVersion

section DepositSlots

variable {keccak256 : Bytes → Bytes32}

theorem wordOfU64_eq (x : UInt64) : wordOfU64 x = toBeBytes 32 x.toNat := by
  have hhigh : x.toNat / 256 ^ 8 = 0 := Nat.div_eq_of_lt x.toNat_lt
  have hsplit := toBeBytes_add 24 8 x.toNat
  rw [hhigh, toBeBytes_zero] at hsplit
  exact hsplit.symm

theorem slotPreimage_eq (depositId : UInt64) :
    slotPreimage depositId = toBeBytes 32 depositId.toNat ++ toBeBytes 32 3 := by
  rw [slotPreimage, wordOfU64_eq, wordOfU64_eq]
  rfl

/-- The four formulas name one slot, the one of a mapping at slot 3. -/
theorem depositStorageSlot_eq (depositId : UInt64) :
    depositStorageSlot keccak256 depositId = mappingSlot keccak256 3 depositId.toNat := by
  rw [depositStorageSlot, slotPreimage_eq, mappingSlot]

theorem depositSlot_eq (version : BridgeVersion) (depositId : Nat) :
    version.depositSlot keccak256 depositId = mappingSlot keccak256 3 depositId := by
  cases version <;> rfl

/-- V2 declares one stored variable more before `deposits` than V1. -/
theorem slotOf_deposits (version : BridgeVersion) :
    slotOf version.stateVariables .deposits = some (match version with | .v1 => 3 | .v2 => 4) := by
  have hroomy : ∀ v ∈ version.declaredBefore, v.isConstant = false → v.type.Roomy := by
    cases version <;> decide
  have hname : ∀ v ∈ version.declaredBefore, v.name ≠ .deposits := by
    cases version <;> decide
  have hslot : slotOf version.stateVariables .deposits =
      some (version.declaredBefore.countP fun v => !v.isConstant) :=
    slotOf_roomy hroomy trivial hname
  cases version
  · exact hslot
  · exact hslot

theorem mappingSlot_inj {slot slot' key : Nat}
    (cf : CollisionFreeOn keccak256
      {m | m = toBeBytes 32 key ++ toBeBytes 32 slot ∨ m = toBeBytes 32 key ++ toBeBytes 32 slot'})
    (h : mappingSlot keccak256 slot key = mappingSlot keccak256 slot' key) :
    toBeBytes 32 slot = toBeBytes 32 slot' :=
  List.append_cancel_left (cf (Or.inl rfl) (Or.inr rfl) h)

/-- All name the slot where the deposit begins for V1 only: V2 has moved the mapping to slot 4. -/
theorem deposit_slots_agree_iff (version : BridgeVersion) (depositId : UInt64)
    (cf : CollisionFreeOn keccak256
      {m | m = toBeBytes 32 depositId.toNat ++ toBeBytes 32 4 ∨
        m = toBeBytes 32 depositId.toNat ++ toBeBytes 32 3}) :
    version.SlotsAgree keccak256 depositId ↔ version = .v1 := by
  have hslot := slotOf_deposits version
  have hguest := @depositStorageSlot_eq keccak256 depositId
  cases version with
  | v1 =>
    refine ⟨fun _ => rfl, fun _ => ⟨?_, rfl, ?_⟩⟩
    · rw [BridgeVersion.depositBegins, hslot, hguest]
      rfl
    · rw [depositSlot_eq, hguest]
  | v2 =>
    refine ⟨fun hagree => ?_, fun h => absurd h (by decide)⟩
    obtain ⟨hbegins, _, _⟩ := hagree
    rw [BridgeVersion.depositBegins, hslot, hguest] at hbegins
    have hwords := mappingSlot_inj cf (Option.some.inj hbegins)
    exact absurd hwords (by decide)

end DepositSlots

theorem deposit_slots_agree_v1 : BridgeVersion.v1.SlotsAgree keccak256 7 := by
  refine (deposit_slots_agree_iff .v1 7 ?_).mpr rfl
  refine collisionFreeOn_of_nodup
    (l := [toBeBytes 32 7 ++ toBeBytes 32 4, toBeBytes 32 7 ++ toBeBytes 32 3]) ?_ ?_
  · intro m hm
    rcases hm with rfl | rfl
    · exact List.mem_cons_self
    · exact List.mem_cons_of_mem _ List.mem_cons_self
  · decide +kernel

theorem deposit_slots_differ_v2 : ¬BridgeVersion.v2.SlotsAgree keccak256 7 := by
  intro hagree
  obtain ⟨hbegins, _, _⟩ := hagree
  have hslots : mappingSlot keccak256 4 7 ≠ mappingSlot keccak256 3 7 := by decide +kernel
  rw [BridgeVersion.depositBegins, slotOf_deposits, depositStorageSlot_eq] at hbegins
  exact hslots (Option.some.inj hbegins)

end ObscuraNetwork
