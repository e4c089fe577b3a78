import ObscuraNetwork.FixedBytes

namespace ObscuraNetwork

namespace Sha256

/-- Continue with an evaluated number, so that no later step evaluates it again. -/
def eager {β : Type} (n : Nat) (f : Nat → β) : β :=
  match n with
  | 0 => f 0
  | m + 1 => f m.succ

@[simp] theorem eager_eq {β : Type} (n : Nat) (f : Nat → β) : eager n f = f n := by
  cases n <;> rfl

/-- The constant `2^32`; words are numbers below it. -/
def base : Nat := 4294967296

/-- Word `i` of a packed row of words, the lowest word at 0. -/
def word (row i : Nat) : Nat := (row.shiftRight (Nat.mul 32 i)).mod base

def rotr (n x : Nat) : Nat := ((x.shiftRight n).lor (x.shiftLeft (Nat.sub 32 n))).mod base

def ch (e f g : Nat) : Nat := (e.land f).xor ((Nat.sub 4294967295 e).land g)

def maj (a b c : Nat) : Nat := ((a.land b).xor (a.land c)).xor (b.land c)

def bigSigma0 (x : Nat) : Nat := ((rotr 2 x).xor (rotr 13 x)).xor (rotr 22 x)

def bigSigma1 (x : Nat) : Nat := ((rotr 6 x).xor (rotr 11 x)).xor (rotr 25 x)

def smallSigma0 (x : Nat) : Nat := ((rotr 7 x).xor (rotr 18 x)).xor (x.shiftRight 3)

def smallSigma1 (x : Nat) : Nat := ((rotr 17 x).xor (rotr 19 x)).xor (x.shiftRight 10)

def roundConstants : List Nat := [
  0x428a2f98, 0x71374491, 0xb5c0fbcf, 0xe9b5dba5, 0x3956c25b, 0x59f111f1, 0x923f82a4, 0xab1c5ed5,
  0xd807aa98, 0x12835b01, 0x243185be, 0x550c7dc3, 0x72be5d74, 0x80deb1fe, 0x9bdc06a7, 0xc19bf174,
  0xe49b69c1, 0xefbe4786, 0x0fc19dc6, 0x240ca1cc, 0x2de92c6f, 0x4a7484aa, 0x5cb0a9dc, 0x76f988da,
  0x983e5152, 0xa831c66d, 0xb00327c8, 0xbf597fc7, 0xc6e00bf3, 0xd5a79147, 0x06ca6351, 0x14292967,
  0x27b70a85, 0x2e1b2138, 0x4d2c6dfc, 0x53380d13, 0x650a7354, 0x766a0abb, 0x81c2c92e, 0x92722c85,
  0xa2bfe8a1, 0xa81a664b, 0xc24b8b70, 0xc76c51a3, 0xd192e819, 0xd6990624, 0xf40e3585, 0x106aa070,
  0x19a4c116, 0x1e376c08, 0x2748774c, 0x34b0bcb5, 0x391c0cb3, 0x4ed8aa4a, 0x5b9cca4f, 0x682e6ff3,
  0x748f82ee, 0x78a5636f, 0x84c87814, 0x8cc70208, 0x90befffa, 0xa4506ceb, 0xbef9a3f7, 0xc67178f2]

def initial : Nat := 0x6a09e667bb67ae853c6ef372a54ff53a510e527f9b05688c1f83d9ab5be0cd19

/-- One round on the packed working variables, `a` in the highest word and `h` in the lowest. -/
def round (k w s : Nat) : Nat :=
  eager (((((word s 0).add (bigSigma1 (word s 3))).add (ch (word s 3) (word s 2) (word s 1))).add
    k).add w) fun t1 =>
  eager (((t1.add (bigSigma0 (word s 7))).add (maj (word s 7) (word s 6) (word s 5))).mod base)
    fun a =>
  eager (((word s 4).add t1).mod base) fun e =>
  (((((s.shiftRight 160).mod (Nat.pow 2 96)).add (a.shiftLeft 96)).shiftLeft 128).add
    (e.shiftLeft 96)).add ((s.shiftRight 32).mod (Nat.pow 2 96))

/-- Advance the sixteen-word window of the message schedule; the oldest word is the highest. -/
def slide (w : Nat) : Nat :=
  eager ((((smallSigma1 (word w 1)).add (word w 6)).add
    ((smallSigma0 (word w 14)).add (word w 15))).mod base) fun next =>
  ((w.mod (Nat.pow 2 480)).shiftLeft 32).add next

def rounds : List Nat → Nat → Nat → Nat
  | [], _, s => s
  | k :: ks, w, s =>
    eager (slide w) fun w' => eager (round k (word w 15) s) fun s' => rounds ks w' s'

def addWords (s t : Nat) : Nat :=
  ([0, 1, 2, 3, 4, 5, 6, 7] : List Nat).foldl
    (fun acc i => acc.add ((((word s i).add (word t i)).mod base).shiftLeft (Nat.mul 32 i))) 0

/-- Absorb one 64-byte block, packed big-endian. -/
def compress (s block : Nat) : Nat :=
  eager s fun s => eager block fun b => eager (rounds roundConstants b s) fun t => addWords s t

def packBe (bs : Bytes) : Nat := bs.foldl (fun acc b => eager acc fun acc => acc * 256 + b.toNat) 0

/-- Padding: the bit 1, zeros up to the last eight bytes of a block, the length in bits. -/
def pad (message : Bytes) : Bytes :=
  message ++ 0x80 :: List.replicate ((119 - message.length % 64) % 64) 0 ++
    ([7, 6, 5, 4, 3, 2, 1, 0] : List Nat).map fun i =>
      UInt8.ofNat (message.length * 8 / 256 ^ i)

def absorb : Nat → Bytes → Nat → Nat
  | 0, _, s => s
  | n + 1, bs, s => eager (compress s (packBe (bs.take 64))) fun s' => absorb n (bs.drop 64) s'

def digestBytes (s : Nat) : Bytes :=
  (List.range 32).map fun i => UInt8.ofNat (s.shiftRight (8 * (31 - i)))

def toBytes32 (s : Nat) : Bytes32 := ⟨digestBytes s, by simp [digestBytes]⟩

def digest (message : Bytes) : Nat := absorb ((pad message).length / 64) (pad message) initial

end Sha256

/-- SHA-256 as FIPS 180-4 defines it. -/
@[irreducible] def sha256 (message : Bytes) : Bytes32 :=
  Sha256.eager (Sha256.digest message) Sha256.toBytes32

theorem sha256_eq (message : Bytes) :
    sha256 message = Sha256.toBytes32 (Sha256.digest message) := by
  rw [sha256, Sha256.eager_eq]

example : sha256 [] =
    ⟨[0xe3, 0xb0, 0xc4, 0x42, 0x98, 0xfc, 0x1c, 0x14, 0x9a, 0xfb, 0xf4, 0xc8, 0x99, 0x6f, 0xb9,
      0x24, 0x27, 0xae, 0x41, 0xe4, 0x64, 0x9b, 0x93, 0x4c, 0xa4, 0x95, 0x99, 0x1b, 0x78, 0x52,
      0xb8, 0x55], rfl⟩ := by decide +kernel

end ObscuraNetwork
