import ObscuraNetwork.Sha256

namespace ObscuraNetwork

namespace Keccak

open Sha256 (eager)

/-- A lane of a state packed into one number; the lane of column `x` and row `y` is the one at
`5 * y + x`, the first one lowest. -/
def lane (s i : Nat) : Nat := (s.shiftRight (Nat.mul 64 i)).mod 0x10000000000000000

def rotl (n x : Nat) : Nat :=
  ((x.shiftLeft n).lor (x.shiftRight (Nat.sub 64 n))).mod 0x10000000000000000

/-- The five lanes of a row in one number. -/
def plane (s y : Nat) : Nat := (s.shiftRight (Nat.mul 320 y)).mod (Nat.pow 2 320)

/-- The number with a 1 at the place of each of the five rows. -/
def everyPlane : Nat := ((List.range 5).map fun y => Nat.pow 2 (Nat.mul 320 y)).foldl Nat.add 0

def allOnes : Nat := Nat.sub (Nat.pow 2 1600) 1

def firstLanes : Nat := Nat.mul everyPlane 0xffffffffffffffff

def lastLanes : Nat := Nat.sub allOnes firstLanes

def thetaLane (c x : Nat) : Nat := (lane c ((x + 4) % 5)).xor (rotl 1 (lane c ((x + 1) % 5)))

def theta (s : Nat) : Nat :=
  eager (((((plane s 0).xor (plane s 1)).xor (plane s 2)).xor (plane s 3)).xor (plane s 4)) fun c =>
  let d := ([4, 3, 2, 1, 0] : List Nat).foldl
    (fun acc x => (acc.shiftLeft 64).add (thetaLane c x)) 0
  eager d fun d => s.xor (d.mul everyPlane)

/-- For each lane of the result, highest first: the lane it comes from and its rotation. -/
def rhoPiTable : List (Nat × Nat) := [
  (21, 2), (15, 41), (14, 39), (8, 55), (2, 62), (23, 56), (17, 15), (11, 10), (5, 36), (4, 27),
  (20, 18), (19, 8), (13, 25), (7, 6), (1, 1), (22, 61), (16, 45), (10, 3), (9, 20), (3, 28),
  (24, 14), (18, 21), (12, 43), (6, 44), (0, 0)]

def rhoPi (s : Nat) : Nat :=
  rhoPiTable.foldl
    (fun acc entry => eager acc fun acc =>
      (acc.shiftLeft 64).add (rotl entry.2 (lane s entry.1))) 0

/-- Every row turned by one lane. -/
def nextLane (s : Nat) : Nat :=
  ((s.land lastLanes).shiftRight 64).lor ((s.land firstLanes).shiftLeft 256)

def chi (s : Nat) : Nat :=
  eager (nextLane s) fun t => eager (nextLane t) fun u => s.xor ((t.xor allOnes).land u)

def roundConstants : List Nat := [
  0x0000000000000001, 0x0000000000008082, 0x800000000000808a, 0x8000000080008000,
  0x000000000000808b, 0x0000000080000001, 0x8000000080008081, 0x8000000000008009,
  0x000000000000008a, 0x0000000000000088, 0x0000000080008009, 0x000000008000000a,
  0x000000008000808b, 0x800000000000008b, 0x8000000000008089, 0x8000000000008003,
  0x8000000000008002, 0x8000000000000080, 0x000000000000800a, 0x800000008000000a,
  0x8000000080008081, 0x8000000000008080, 0x0000000080000001, 0x8000000080008008]

def permute (s : Nat) : Nat :=
  roundConstants.foldl
    (fun s rc =>
      eager s fun s => eager (theta s) fun s => eager (rhoPi s) fun s => (chi s).xor rc) s

/-- The bytes of a block, the first one lowest. -/
def rate : Nat := 136

/-- Padding: a 1 bit after the message and one at the end of the last block. -/
def pad (message : Bytes) : Bytes :=
  let zeros := rate - 1 - message.length % rate
  if zeros = 0 then message ++ [0x81]
  else message ++ [0x01] ++ List.replicate (zeros - 1) 0 ++ [0x80]

def absorb : Nat → Bytes → Nat → Nat
  | 0, _, s => s
  | n + 1, bs, s =>
    eager (permute (s.xor (leValue (bs.take rate)))) fun s => absorb n (bs.drop rate) s

def digestBytes (s : Nat) : Bytes :=
  (List.range 32).map fun i => UInt8.ofNat (s.shiftRight (Nat.mul 8 i))

def toBytes32 (s : Nat) : Bytes32 := ⟨digestBytes s, by simp [digestBytes]⟩

end Keccak

/-- Keccak-256 with the original padding, as Ethereum uses it. -/
@[irreducible] def keccak256 (message : Bytes) : Bytes32 :=
  Sha256.eager (Keccak.absorb ((Keccak.pad message).length / Keccak.rate) (Keccak.pad message) 0)
    Keccak.toBytes32

example : keccak256 [] =
    ⟨[0xc5, 0xd2, 0x46, 0x01, 0x86, 0xf7, 0x23, 0x3c, 0x92, 0x7e, 0x7d, 0xb2, 0xdc, 0xc7, 0x03,
      0xc0, 0xe5, 0x00, 0xb6, 0x53, 0xca, 0x82, 0x27, 0x3b, 0x7b, 0xfa, 0xd8, 0x04, 0x5d, 0x85,
      0xa4, 0x70], rfl⟩ := by decide +kernel

end ObscuraNetwork
