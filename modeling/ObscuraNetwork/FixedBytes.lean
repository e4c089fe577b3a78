import Mathlib.Algebra.Group.Nat.Defs
import Mathlib.Data.List.Lex
import Mathlib.Order.Lattice
import Mathlib.Tactic.Common

namespace ObscuraNetwork

abbrev Bytes := List UInt8

/-- A byte array of a fixed length, the `[u8; n]` of the source. -/
structure FixedBytes (n : Nat) where
  bytes : Bytes
  size : bytes.length = n
  deriving DecidableEq

abbrev Bytes32 := FixedBytes 32

abbrev Bytes20 := FixedBytes 20

namespace FixedBytes

variable {n : Nat}

def replicate (n : Nat) (b : UInt8) : FixedBytes n := ⟨List.replicate n b, List.length_replicate⟩

@[simp] theorem length_bytes (x : FixedBytes n) : x.bytes.length = n := x.size

theorem ext_bytes {x y : FixedBytes n} (h : x.bytes = y.bytes) : x = y := by
  cases x; cases y; cases h; rfl

instance : Inhabited (FixedBytes n) := ⟨replicate n 0⟩

/-- The key under which arrays are compared: Rust orders `[u8; n]` lexicographically. -/
def lexKey (x : FixedBytes n) : List Nat := x.bytes.map UInt8.toNat

theorem lexKey_injective : Function.Injective (lexKey (n := n)) := by
  intro x y h
  exact ext_bytes (List.map_injective_iff.mpr (fun _ _ hb => UInt8.toNat_inj.mp hb) h)

instance : LinearOrder (FixedBytes n) := LinearOrder.lift' lexKey lexKey_injective

theorem lt_iff_lexKey {x y : FixedBytes n} : x < y ↔ x.lexKey < y.lexKey := Iff.rfl

theorem not_lt_replicate_zero : ∀ (n : Nat) (xs : List Nat), xs.length = n →
    ¬xs < List.replicate n 0 := by
  intro n
  induction n with
  | zero => intro xs hl; simp [List.length_eq_zero_iff.mp hl]
  | succ n ih =>
    intro xs hl h
    cases xs with
    | nil => simp at hl
    | cons x xs =>
      rw [List.replicate_succ] at h
      cases h with
      | rel hx => exact Nat.not_lt_zero _ hx
      | cons ht => exact ih xs (by simpa using hl) ht

theorem not_replicate_max_lt : ∀ (n : Nat) (xs : List Nat), xs.length = n → (∀ x ∈ xs, x ≤ 255) →
    ¬List.replicate n 255 < xs := by
  intro n
  induction n with
  | zero => intro xs hl _; simp [List.length_eq_zero_iff.mp hl]
  | succ n ih =>
    intro xs hl hb h
    cases xs with
    | nil => simp at hl
    | cons x xs =>
      rw [List.replicate_succ] at h
      cases h with
      | rel hx =>
        have := hb x (by simp)
        omega
      | cons ht => exact ih xs (by simpa using hl) (fun y hy => hb y (by simp [hy])) ht

theorem replicate_zero_le (x : FixedBytes n) : replicate n 0 ≤ x := by
  refine not_lt.mp fun h => not_lt_replicate_zero n x.lexKey (by simp [lexKey]) ?_
  simpa [lexKey, replicate] using lt_iff_lexKey.mp h

theorem le_replicate_max (x : FixedBytes n) : x ≤ replicate n 0xff := by
  refine not_lt.mp fun h => not_replicate_max_lt n x.lexKey (by simp [lexKey]) ?_ ?_
  · intro b hb
    obtain ⟨c, _, rfl⟩ := List.mem_map.mp hb
    have := c.toNat_lt
    omega
  · simpa [lexKey, replicate] using lt_iff_lexKey.mp h

end FixedBytes

/-- `u64::to_le_bytes`. -/
def toLeBytes (x : UInt64) : Bytes :=
  (List.range 8).map fun i => UInt8.ofNat (x.toNat / 256 ^ i)

@[simp] theorem length_toLeBytes (x : UInt64) : (toLeBytes x).length = 8 := by simp [toLeBytes]

/-- The number that little-endian bytes stand for. -/
def leValue (bs : Bytes) : Nat := bs.foldr (fun byte acc => byte.toNat + 256 * acc) 0

theorem leValue_toLeBytes (x : UInt64) : leValue (toLeBytes x) = x.toNat := by
  have hx := x.toNat_lt
  have hrange : List.range 8 = [0, 1, 2, 3, 4, 5, 6, 7] := by decide
  simp only [leValue, toLeBytes, hrange, List.map_cons, List.map_nil, List.foldr_cons,
    List.foldr_nil, UInt8.toNat_ofNat']
  omega

theorem toLeBytes_injective : Function.Injective toLeBytes := by
  intro x y h
  apply UInt64.toNat_inj.mp
  rw [← leValue_toLeBytes x, h, leValue_toLeBytes]

/-- Two arrays of one length written one after the other are read back uniquely. -/
theorem bytes_append_inj {n : Nat} {a b : FixedBytes n} {x y : Bytes}
    (h : a.bytes ++ x = b.bytes ++ y) : a = b ∧ x = y := by
  obtain ⟨hab, hxy⟩ := List.append_inj h (by simp)
  exact ⟨FixedBytes.ext_bytes hab, hxy⟩

end ObscuraNetwork
