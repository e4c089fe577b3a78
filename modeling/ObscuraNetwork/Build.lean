import ObscuraNetwork.Outcome
import ObscuraNetwork.Sha256

namespace ObscuraNetwork

/-- An SP1 proof as the SDK deserializes it: the cryptographic part and the committed bytes. -/
structure Sp1Proof where
  payload : Bytes
  publicValues : Bytes
  deriving DecidableEq

/-- What a node is compiled with and linked against: cargo features, the profile's overflow checks,
and the third-party functions the modules call. -/
structure Build where
  /-- The `sp1` feature of the privacy crate. -/
  sp1 : Bool
  /-- The `native` feature of the bridge crate. -/
  native : Bool
  /-- Integer overflow panics (a debug profile) or wraps (a release profile). -/
  overflowChecks : Bool
  /-- `sha2::Sha256` over the concatenated updates. -/
  sha256 : Bytes → Bytes32
  /-- `sp1_verifier::Groth16Verifier::verify`: proof, public inputs, verification key hash, key. -/
  groth16Verify : Bytes → Bytes → String → Bytes → Except String Unit
  /-- `sp1_verifier::GROTH16_VK_BYTES`. -/
  groth16VkBytes : Bytes
  /-- The path and the contents of the Helios guest program. -/
  heliosElfPath : String
  heliosElf : Option Bytes
  /-- `bincode::deserialize` of an SP1 proof, and `ProverClient::verify` under a program's key. -/
  sp1Deserialize : Bytes → Option Sp1Proof
  sp1Verify : Bytes → Sp1Proof → Bool
  /-- The `hex` crate's text for a character that is no digit, with its position. -/
  hexErrorText : UInt8 → Nat → String

/-- The default features in a release profile. The third-party verifiers are not linked in, so they
are given the values that accept nothing. -/
def Build.default : Build where
  sp1 := false
  native := false
  overflowChecks := false
  sha256 := ObscuraNetwork.sha256
  groth16Verify _ _ _ _ := .error "not linked"
  groth16VkBytes := []
  heliosElfPath := ""
  heliosElf := none
  sp1Deserialize _ := none
  sp1Verify _ _ := false
  hexErrorText _ _ := ""

theorem Build.default_sha256 : Build.default.sha256 = ObscuraNetwork.sha256 := rfl

/-- `a + b` on `u64`. -/
def addU64 (b : Build) (x y : UInt64) : Outcome UInt64 :=
  if b.overflowChecks = true ∧ 2 ^ 64 ≤ x.toNat + y.toNat then
    .error (.panic "attempt to add with overflow")
  else .ok (x + y)

theorem addU64_of_lt {b : Build} {x y : UInt64} (h : x.toNat + y.toNat < 2 ^ 64) :
    addU64 b x y = .ok (x + y) := if_neg (by omega)

theorem addU64_unchecked {b : Build} (hb : b.overflowChecks = false) (x y : UInt64) :
    addU64 b x y = .ok (x + y) := if_neg (by simp [hb])

theorem addU64_ok {b : Build} {x y z : UInt64} (h : addU64 b x y = .ok z) : z = x + y := by
  unfold addU64 at h
  split at h
  next => simp at h
  next => simpa using h.symm

theorem addU64_noPanic {b : Build} {x y : UInt64} (h : x.toNat + y.toNat < 2 ^ 64) :
    NoPanic (addU64 b x y) := addU64_of_lt (b := b) h ▸ noPanic_ok _

/-- An addition that does not fit panics or wraps, whatever the profile. -/
theorem addU64_overflow {b : Build} {x y : UInt64} (h : ¬x.toNat + y.toNat < 2 ^ 64) :
    (∃ message, addU64 b x y = .error (.panic message)) ∨
      addU64 b x y = .ok (x + y) ∧ (x + y).toNat ≠ x.toNat + y.toNat := by
  unfold addU64
  by_cases hb : b.overflowChecks = true
  · exact Or.inl ⟨_, if_pos ⟨hb, by omega⟩⟩
  · refine Or.inr ⟨if_neg fun hn => hb hn.1, ?_⟩
    have := (x + y).toNat_lt
    omega

theorem toNat_add_of_lt {x y : UInt64} (h : x.toNat + y.toNat < 2 ^ 64) :
    (x + y).toNat = x.toNat + y.toNat := by
  rw [UInt64.toNat_add, Nat.mod_eq_of_lt h]

/-- A counter goes up by exactly one. -/
theorem addU64_one {b : Build} {x z : UInt64} (h : addU64 b x 1 = .ok z)
    (hlt : x.toNat + (1 : UInt64).toNat < 2 ^ 64) : z.toNat = x.toNat + 1 := by
  rw [addU64_ok h]
  exact toNat_add_of_lt hlt

end ObscuraNetwork
