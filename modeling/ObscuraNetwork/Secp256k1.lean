import ObscuraNetwork.Curve25519
import ObscuraNetwork.Keccak
import ObscuraNetwork.Rlp

namespace ObscuraNetwork

namespace Secp256k1

open Sha256 (eager)
open Curve25519 (bit)

/-- The prime `2^256 - 2^32 - 977`. -/
def prime : Nat := 115792089237316195423570985008687907853269984665640564039457584007908834671663

/-- How many points the curve `y^2 = x^3 + 7` has. -/
def order : Nat := 115792089237316195423570985008687907852837564279074904382605163141518161494337

def add (a b : Nat) : Nat := (a.add b).mod prime

def sub (a b : Nat) : Nat := ((a.add prime).sub b).mod prime

def mul (a b : Nat) : Nat := (a.mul b).mod prime

/-- `base ^ exponent` modulo `m`, from the bits of the exponent below `t`. -/
def powLoop (m base exponent : Nat) : Nat → Nat → Nat
  | 0, acc => acc
  | t + 1, acc =>
    eager ((acc.mul acc).mod m) fun square =>
      match bit exponent t with
      | 0 => powLoop m base exponent t square
      | _ => eager ((square.mul base).mod m) fun acc => powLoop m base exponent t acc

def pow (m base exponent : Nat) : Nat := powLoop m base exponent 256 1

/-- By Fermat's theorem. -/
def invert (m a : Nat) : Nat := pow m a (m.sub 2)

/-- A square root, if there is one: the prime is 3 modulo 4. -/
def sqrt (a : Nat) : Option Nat :=
  eager (pow prime a ((prime.add 1).div 4)) fun root =>
    if Nat.beq (mul root root) a then some root else none

/-- The point `(x / z^2, y / z^3)`, or the one at infinity for `z = 0`. -/
structure Jacobian where
  x : Nat
  y : Nat
  z : Nat

/-- Continue with the evaluated coordinates. -/
def Jacobian.eager {β : Type} (x y z : Nat) (next : Jacobian → β) : β :=
  Sha256.eager x fun x => Sha256.eager y fun y => Sha256.eager z fun z => next ⟨x, y, z⟩

def infinity : Jacobian := ⟨1, 1, 0⟩

/-- The tangent's third point. The curve has no point of order two. -/
def double {β : Type} (p : Jacobian) (next : Jacobian → β) : β :=
  eager (mul p.y p.y) fun yy => eager (mul 4 (mul p.x yy)) fun d =>
  eager (mul 3 (mul p.x p.x)) fun e => eager (sub (mul e e) (mul 2 d)) fun x =>
  Jacobian.eager x (sub (mul e (sub d x)) (mul 8 (mul yy yy))) (mul 2 (mul p.y p.z)) next

/-- The chord's third point, for a second point `(x2, y2)`. -/
def addAffine {β : Type} (p : Jacobian) (x2 y2 : Nat) (next : Jacobian → β) : β :=
  match p.z with
  | 0 => next ⟨x2, y2, 1⟩
  | _ =>
    eager (mul p.z p.z) fun zz => eager (sub (mul x2 zz) p.x) fun h =>
    eager (sub (mul y2 (mul p.z zz)) p.y) fun r =>
    match h, r with
    | 0, 0 => double p next
    | 0, _ => next infinity
    | h, r =>
      eager (mul h h) fun hh => eager (mul h hh) fun hhh => eager (mul p.x hh) fun v =>
      eager (sub (sub (mul r r) hhh) (mul 2 v)) fun x =>
      Jacobian.eager x (sub (mul r (sub v x)) (mul p.y hhh)) (mul p.z h) next

def generatorX : Nat :=
  0x79be667ef9dcbbac55a06295ce870b07029bfcdb2dce28d959f2815b16f81798

def generatorY : Nat :=
  0x483ada7726a3c4655da4fbfc0e1108a8fd17b448a68554199c47d08ffb10d4b8

/-- `k` times the generator and `l` times the point `(x, y)`, from the bits of both below `t`. -/
def mulAdd (k l x y : Nat) : Nat → Jacobian → Jacobian
  | 0, acc => acc
  | t + 1, acc =>
    double acc fun acc =>
      match bit k t, bit l t with
      | 0, 0 => mulAdd k l x y t acc
      | 0, _ => addAffine acc x y fun acc => mulAdd k l x y t acc
      | _, 0 => addAffine acc generatorX generatorY fun acc => mulAdd k l x y t acc
      | _, _ => addAffine acc generatorX generatorY fun acc =>
          addAffine acc x y fun acc => mulAdd k l x y t acc

/-- The last 20 bytes of the hash of both coordinates; nobody has the point at infinity. -/
def address (p : Jacobian) : Option Bytes20 :=
  match p.z with
  | 0 => none
  | z =>
    eager (invert prime z) fun inverse => eager (mul inverse inverse) fun square =>
    eager (mul p.x square) fun x => eager (mul p.y (mul inverse square)) fun y =>
    some ⟨(keccak256 (toBeBytes 32 x ++ toBeBytes 32 y)).bytes.drop 12, by simp⟩

/-- The key that signed `z` with `(r, s)`, where `odd` is the parity of the curve point of `r`. -/
def recover (z odd r s : Nat) : Option Bytes20 :=
  if Nat.ble 1 r && Nat.blt r order && Nat.ble 1 s && Nat.blt s order then
    match sqrt (add (mul r (mul r r)) 7) with
    | none => none
    | some root =>
      let y := if Nat.beq (root.mod 2) odd then root else sub 0 root
      eager y fun y => eager (invert order r) fun inverse =>
      eager (((order.sub (z.mod order)).mul inverse).mod order) fun k =>
      eager ((s.mul inverse).mod order) fun l => address (mulAdd k l r y 256 infinity)
  else none

/-- The precompiled contract at address 1: the signer's address, or the zero address. -/
def ecrecover (msgHash : Bytes32) (v : UInt8) (r s : Bytes) : Bytes20 :=
  if v = 27 ∨ v = 28 then
    eager (beValue msgHash.bytes) fun z => eager (beValue r) fun r => eager (beValue s) fun s =>
    (recover z (v.toNat.sub 27) r s).getD (FixedBytes.replicate 20 0)
  else FixedBytes.replicate 20 0

example : ecrecover ⟨toBeBytes 32
      0x456e9aea5e197a1f1af7a3e85a3212fa4049a3ba34c2289b4c860fc0b0c64ef3, by simp⟩ 28
    (toBeBytes 32 0x9242685bf161793cc25603c231bc2f568eb630ea16aa137d2664ac8038825608)
    (toBeBytes 32 0x4f8ae3bd7535248d0bd448298cc2e2071e56992d0774dc340c368ae950852ada) =
    ⟨toBeBytes 20 0x7156526fbd7a3c72969b54f64e42c10fbb768c8a, by simp⟩ := by decide +kernel

end Secp256k1

end ObscuraNetwork
