import ObscuraNetwork.Bincode

namespace ObscuraNetwork

/-- `u16::to_le_bytes`. -/
def toLeBytes16 (x : UInt16) : Bytes := [UInt8.ofNat x.toNat, UInt8.ofNat (x.toNat / 256)]

/-- What a `Serialize` implementation hands to its serializer. -/
inductive SerdeValue where
  | u8 (x : UInt8)
  | u16 (x : UInt16)
  | u64 (x : UInt64)
  | tuple (elements : List SerdeValue)
  | struct (name : String) (fields : List (String × SerdeValue))

namespace SerdeValue

mutual

/-- The bytes that bincode writes: neither names nor the lengths of tuples are among them. -/
def bincode : SerdeValue → Bytes
  | .u8 x => [x]
  | .u16 x => toLeBytes16 x
  | .u64 x => toLeBytes x
  | .tuple elements => bincodeElements elements
  | .struct _ fields => bincodeFields fields

def bincodeElements : List SerdeValue → Bytes
  | [] => []
  | element :: rest => bincode element ++ bincodeElements rest

def bincodeFields : List (String × SerdeValue) → Bytes
  | [] => []
  | (_, value) :: rest => bincode value ++ bincodeFields rest

end

theorem bincodeElements_map {α : Type} (f : α → SerdeValue) (as : List α) :
    bincodeElements (as.map f) = as.flatMap fun a => (f a).bincode := by
  induction as with
  | nil => rfl
  | cons a rest ih => rw [List.map_cons, bincodeElements, ih, List.flatMap_cons]

/-- A `[u8; N]` is a tuple of its bytes. -/
def byteArray {n : Nat} (x : FixedBytes n) : SerdeValue := .tuple (x.bytes.map .u8)

theorem bincode_bytes (bs : Bytes) : (tuple (bs.map .u8)).bincode = bs := by
  rw [bincode, bincodeElements_map]
  show (bs.flatMap fun b => [b]) = bs
  exact List.flatMap_singleton' bs

@[simp] theorem bincode_byteArray {n : Nat} (x : FixedBytes n) : (byteArray x).bincode = x.bytes :=
  bincode_bytes x.bytes

end SerdeValue

namespace Codec

variable {α : Type}

def u16 : Codec UInt16 where
  encode := toLeBytes16
  decode
    | low :: high :: rest => some (UInt16.ofNat (low.toNat + 256 * high.toNat), rest)
    | _ => none
  Fits _ := True
  decode_encode := by
    intro a _ rest
    have ha := a.toNat_lt
    have hvalue : (UInt8.ofNat a.toNat).toNat + 256 * (UInt8.ofNat (a.toNat / 256)).toNat =
        a.toNat := by
      rw [UInt8.toNat_ofNat', UInt8.toNat_ofNat']
      omega
    show some (UInt16.ofNat _, rest) = some (a, rest)
    rw [hvalue, UInt16.ofNat_toNat]

def u32 : Codec UInt32 where
  encode x := (List.range 4).map fun i => UInt8.ofNat (x.toNat / 256 ^ i)
  decode
    | b₀ :: b₁ :: b₂ :: b₃ :: rest =>
      some (UInt32.ofNat (b₀.toNat + 256 * (b₁.toNat + 256 * (b₂.toNat + 256 * b₃.toNat))), rest)
    | _ => none
  Fits _ := True
  decode_encode := by
    intro a _ rest
    have ha := a.toNat_lt
    have hvalue : (UInt8.ofNat (a.toNat / 256 ^ 0)).toNat + 256 *
        ((UInt8.ofNat (a.toNat / 256 ^ 1)).toNat + 256 *
          ((UInt8.ofNat (a.toNat / 256 ^ 2)).toNat + 256 *
            (UInt8.ofNat (a.toNat / 256 ^ 3)).toNat)) = a.toNat := by
      simp only [UInt8.toNat_ofNat', Nat.reducePow]
      omega
    show some (UInt32.ofNat _, rest) = some (a, rest)
    rw [hvalue, UInt32.ofNat_toNat]

theorem decodeMany_length {c : Codec α} {n : Nat} {bs rest : Bytes} {as : List α}
    (h : decodeMany c n bs = some (as, rest)) : as.length = n := by
  induction n generalizing bs as with
  | zero =>
    cases Option.some.inj h
    rfl
  | succ n ih =>
    obtain ⟨⟨a, bs⟩, _, h⟩ := Option.bind_eq_some_iff.mp h
    obtain ⟨⟨as, rest⟩, htail, h⟩ := Option.bind_eq_some_iff.mp h
    cases Option.some.inj h
    rw [List.length_cons, ih htail]

/-- What is read as a vector can be written again: its length has come from a `u64`. -/
theorem vec_decode_length {c : Codec α} {bs rest : Bytes} {as : List α}
    (h : (vec c).decode bs = some (as, rest)) : as.length < 2 ^ 64 := by
  obtain ⟨⟨n, bs⟩, _, h⟩ := Option.bind_eq_some_iff.mp h
  rw [decodeMany_length h]
  exact n.toNat_lt

theorem pair_decode {β : Type} {c : Codec α} {d : Codec β} {bs rest : Bytes} {p : α × β}
    (h : (pair c d).decode bs = some (p, rest)) :
    ∃ mid, c.decode bs = some (p.1, mid) ∧ d.decode mid = some (p.2, rest) := by
  obtain ⟨⟨a, mid⟩, hfirst, h⟩ := Option.bind_eq_some_iff.mp h
  obtain ⟨⟨b, rest⟩, hsecond, h⟩ := Option.bind_eq_some_iff.mp h
  cases Option.some.inj h
  exact ⟨mid, hfirst, hsecond⟩

theorem deserialize_some {c : Codec α} {bs : Bytes} {a : α} :
    c.deserialize bs = some a ↔ ∃ rest, c.decode bs = some (a, rest) := by
  simp [deserialize]

/-- An array of `n` elements. -/
def tuple (n : Nat) (c : Codec α) : Codec {as : List α // as.length = n} where
  encode as := as.1.flatMap c.encode
  decode bs :=
    match c.decodeMany n bs with
    | some (as, rest) => if h : as.length = n then some (⟨as, h⟩, rest) else none
    | none => none
  Fits as := ∀ a ∈ as.1, c.Fits a
  decode_encode := by
    intro as h rest
    have hmany := decodeMany_encode c h rest
    rw [as.2] at hmany
    rw [hmany]
    exact dif_pos as.2

end Codec

end ObscuraNetwork
