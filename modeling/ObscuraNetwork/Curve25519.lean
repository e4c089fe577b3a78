import ObscuraNetwork.NoteCipher
import ObscuraNetwork.Sha256

namespace ObscuraNetwork

namespace Curve25519

open Sha256 (eager)

/-- The prime `2^255 - 19`. -/
def prime : Nat := 57896044618658097711785492504343953926634992332820282019728792003956564819949

def add (a b : Nat) : Nat := (a.add b).mod prime

def sub (a b : Nat) : Nat := ((a.add prime).sub b).mod prime

def mul (a b : Nat) : Nat := (a.mul b).mod prime

def bit (n t : Nat) : Nat := (n.shiftRight t).mod 2

/-- `base ^ (prime - 2)` from the bits of the exponent below `t`. -/
def invertLoop (base : Nat) : Nat → Nat → Nat
  | 0, acc => acc
  | t + 1, acc =>
    eager (mul acc acc) fun square =>
      match bit (prime.sub 2) t with
      | 0 => invertLoop base t square
      | _ => eager (mul square base) fun acc => invertLoop base t acc

/-- Double the first point and add the second to it, by their coordinates on the Montgomery
curve; `x1` is the coordinate of their difference. -/
def ladderStep {β : Type} (x1 x2 z2 x3 z3 : Nat) (next : Nat → Nat → Nat → Nat → β) : β :=
  eager (add x2 z2) fun a => eager (sub x2 z2) fun b =>
  eager (mul a a) fun aa => eager (mul b b) fun bb => eager (sub aa bb) fun e =>
  eager (mul (sub x3 z3) a) fun da => eager (mul (add x3 z3) b) fun cb =>
  eager (add da cb) fun sum => eager (sub da cb) fun difference =>
  eager (mul aa bb) fun x2 => eager (mul e (add aa (mul 121665 e))) fun z2 =>
  eager (mul sum sum) fun x3 => eager (mul x1 (mul difference difference)) fun z3 =>
  next x2 z2 x3 z3

/-- The Montgomery ladder over the bits of the scalar below `t`. -/
def ladder (scalar x1 : Nat) : Nat → Nat → Nat → Nat → Nat → Nat
  | 0, x2, z2, _, _ => eager (invertLoop z2 255 1) fun inverse => mul x2 inverse
  | t + 1, x2, z2, x3, z3 =>
    match bit scalar t with
    | 0 => ladderStep x1 x2 z2 x3 z3 fun x2 z2 x3 z3 => ladder scalar x1 t x2 z2 x3 z3
    | _ => ladderStep x1 x3 z3 x2 z2 fun x3 z3 x2 z2 => ladder scalar x1 t x2 z2 x3 z3

/-- A scalar of order eight times an odd number, as `StaticSecret` clamps it. -/
def clamp (n : Nat) : Nat := ((n.mod (Nat.pow 2 254)).div 8).mul 8 |>.add (Nat.pow 2 254)

def encode (n : Nat) : Bytes32 :=
  ⟨(List.range 32).map fun i => UInt8.ofNat (n.shiftRight (Nat.mul 8 i)), by simp⟩

/-- X25519 as RFC 7748 defines it; the highest bit of the coordinate is ignored. -/
def x25519 (scalar u : Bytes32) : Bytes32 :=
  eager (clamp (leValue scalar.bytes)) fun k =>
  eager (((leValue u.bytes).mod (Nat.pow 2 255)).mod prime) fun x1 =>
  eager (ladder k x1 255 1 0 x1 1) encode

def basePoint : Bytes32 := encode 9

def dalek : X25519 where
  publicKey sk := x25519 sk basePoint
  diffieHellman := x25519

example : x25519
    ⟨[0xa5, 0x46, 0xe3, 0x6b, 0xf0, 0x52, 0x7c, 0x9d, 0x3b, 0x16, 0x15, 0x4b, 0x82, 0x46, 0x5e,
      0xdd, 0x62, 0x14, 0x4c, 0x0a, 0xc1, 0xfc, 0x5a, 0x18, 0x50, 0x6a, 0x22, 0x44, 0xba, 0x44,
      0x9a, 0xc4], rfl⟩
    ⟨[0xe6, 0xdb, 0x68, 0x67, 0x58, 0x30, 0x30, 0xdb, 0x35, 0x94, 0xc1, 0xa4, 0x24, 0xb1, 0x5f,
      0x7c, 0x72, 0x66, 0x24, 0xec, 0x26, 0xb3, 0x35, 0x3b, 0x10, 0xa9, 0x03, 0xa6, 0xd0, 0xab,
      0x1c, 0x4c], rfl⟩ =
    ⟨[0xc3, 0xda, 0x55, 0x37, 0x9d, 0xe9, 0xc6, 0x90, 0x8e, 0x94, 0xea, 0x4d, 0xf2, 0x8d, 0x08,
      0x4f, 0x32, 0xec, 0xcf, 0x03, 0x49, 0x1c, 0x71, 0xf7, 0x54, 0xb4, 0x07, 0x55, 0x77, 0xa2,
      0x85, 0x52], rfl⟩ := by decide +kernel

end Curve25519

end ObscuraNetwork
