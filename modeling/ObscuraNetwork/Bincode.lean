import ObscuraNetwork.FixedBytes

namespace ObscuraNetwork

/-- A byte format: an encoder and the reader that gives the value back and leaves what follows. -/
structure Codec (α : Type) where
  encode : α → Bytes
  decode : Bytes → Option (α × Bytes)
  /-- The values the format has room for. -/
  Fits : α → Prop
  decode_encode : ∀ {a}, Fits a → ∀ rest, decode (encode a ++ rest) = some (a, rest)

namespace Codec

variable {α β : Type}

/-- `bincode::deserialize`: bytes after the value are ignored. -/
def deserialize (c : Codec α) (bs : Bytes) : Option α := (c.decode bs).map Prod.fst

theorem deserialize_encode (c : Codec α) {a : α} (h : c.Fits a) :
    c.deserialize (c.encode a) = some a := by
  have hread := c.decode_encode h []
  rw [List.append_nil] at hread
  rw [deserialize, hread, Option.map_some]

/-- Fixed-width little-endian integers. -/
def u64 : Codec UInt64 where
  encode := toLeBytes
  decode bs := if 8 ≤ bs.length then some (UInt64.ofNat (leValue (bs.take 8)), bs.drop 8) else none
  Fits _ := True
  decode_encode := by
    intro a _ rest
    have hlen : (toLeBytes a).length = 8 := length_toLeBytes a
    rw [if_pos (by rw [List.length_append]; omega), List.take_left' hlen, List.drop_left' hlen,
      leValue_toLeBytes, UInt64.ofNat_toNat]

def bool : Codec Bool where
  encode b := [if b then 1 else 0]
  decode
    | 0 :: rest => some (false, rest)
    | 1 :: rest => some (true, rest)
    | _ => none
  Fits _ := True
  decode_encode := by
    intro b _ rest
    cases b <;> rfl

/-- Arrays are tuples: no length is written. -/
def array (n : Nat) : Codec (FixedBytes n) where
  encode := FixedBytes.bytes
  decode bs := if h : n ≤ bs.length then
      some (⟨bs.take n, by rw [List.length_take]; omega⟩, bs.drop n)
    else none
  Fits _ := True
  decode_encode := by
    intro a _ rest
    have hroom : n ≤ (a.bytes ++ rest).length := by
      rw [List.length_append, a.length_bytes]
      omega
    have htake : (a.bytes ++ rest).take n = a.bytes := List.take_left' a.length_bytes
    have hdrop : (a.bytes ++ rest).drop n = rest := List.drop_left' a.length_bytes
    rw [dif_pos hroom]
    simp only [htake, hdrop]

def decodeMany (c : Codec α) : Nat → Bytes → Option (List α × Bytes)
  | 0, bs => some ([], bs)
  | n + 1, bs => do
    let (a, bs) ← c.decode bs
    let (as, bs) ← decodeMany c n bs
    pure (a :: as, bs)

theorem decodeMany_encode (c : Codec α) {as : List α} (h : ∀ a ∈ as, c.Fits a) (rest : Bytes) :
    decodeMany c as.length (as.flatMap c.encode ++ rest) = some (as, rest) := by
  induction as with
  | nil => rfl
  | cons a as ih =>
    have hhead := c.decode_encode (h a List.mem_cons_self) (as.flatMap c.encode ++ rest)
    have htail := ih fun x hx => h x (List.mem_cons_of_mem a hx)
    simp only [List.flatMap_cons, List.length_cons, decodeMany, List.append_assoc, hhead, htail,
      Option.bind_eq_bind, Option.bind_some, Option.pure_def]

/-- A vector is its length as a `u64` and its elements. -/
def vec (c : Codec α) : Codec (List α) where
  encode as := toLeBytes (UInt64.ofNat as.length) ++ as.flatMap c.encode
  decode bs := do
    let (n, bs) ← u64.decode bs
    decodeMany c n.toNat bs
  Fits as := as.length < 2 ^ 64 ∧ ∀ a ∈ as, c.Fits a
  decode_encode := by
    intro as h rest
    have hcount := u64.decode_encode (a := UInt64.ofNat as.length) trivial
      (as.flatMap c.encode ++ rest)
    have hlen : (UInt64.ofNat as.length).toNat = as.length := UInt64.toNat_ofNat_of_lt' h.1
    have helems := decodeMany_encode c h.2 rest
    rw [List.append_assoc]
    simp only [u64] at hcount ⊢
    rw [hcount]
    simpa only [Option.bind_eq_bind, Option.bind_some, hlen] using helems

/-- The fields of a struct follow one another. -/
def pair (c : Codec α) (d : Codec β) : Codec (α × β) where
  encode p := c.encode p.1 ++ d.encode p.2
  decode bs := do
    let (a, bs) ← c.decode bs
    let (b, bs) ← d.decode bs
    pure ((a, b), bs)
  Fits p := c.Fits p.1 ∧ d.Fits p.2
  decode_encode := by
    intro p h rest
    have hfirst := c.decode_encode h.1 (d.encode p.2 ++ rest)
    have hsecond := d.decode_encode h.2 rest
    simp only [List.append_assoc, hfirst, hsecond, Option.bind_eq_bind, Option.bind_some,
      Option.pure_def]

/-- A struct is read and written as the tuple of its fields. -/
def struct (c : Codec α) (make : α → β) (fields : β → α) (h : ∀ b, make (fields b) = b) :
    Codec β where
  encode b := c.encode (fields b)
  decode bs := (c.decode bs).map fun p => (make p.1, p.2)
  Fits b := c.Fits (fields b)
  decode_encode := by
    intro b hb rest
    rw [c.decode_encode hb rest, Option.map_some, h]

end Codec

end ObscuraNetwork
