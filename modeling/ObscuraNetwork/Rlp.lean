import ObscuraNetwork.Outcome
import Mathlib.Data.List.Forall2

namespace ObscuraNetwork

/-- The guest is a 64-bit program in a release profile: sums of lengths wrap. -/
def usize (n : Nat) : Nat := n % 2 ^ 64

theorem usize_of_lt {n : Nat} (h : n < 2 ^ 64) : usize n = n := Nat.mod_eq_of_lt h

/-- `n.to_be_bytes()` for an integer of `width` bytes. -/
def toBeBytes : Nat → Nat → Bytes
  | 0, _ => []
  | width + 1, n => toBeBytes width (n / 256) ++ [UInt8.ofNat n]

def decodeBeUsize (bs : Bytes) : Nat := bs.foldl (fun result b => usize (result * 256 + b.toNat)) 0

/-- `&data[start..stop]`. -/
def slice (data : Bytes) (start stop : Nat) : Outcome Bytes :=
  if stop < start then
    .error (.panic ("slice index starts at " ++ toString start ++ " but ends at " ++ toString stop))
  else if data.length < stop then
    .error (.panic ("range end index " ++ toString stop ++ " out of range for slice of length " ++
      toString data.length))
  else .ok ((data.drop start).take (stop - start))

/-- The check and the slice that every form of an item ends with: the bytes from `start` on and
where they stop. -/
def rlpTake (data : Bytes) (start stop : Nat) : Outcome (Option (Bytes × Nat)) :=
  if data.length < stop then pure none
  else do
    let value ← slice data start stop
    pure (some (value, stop))

/-- The long forms: the first byte, `lenOfLen` bytes of length, and that many bytes more. `raw`
keeps the header in the value. -/
def rlpTakeLong (data : Bytes) (lenOfLen : Nat) (raw : Bool) : Outcome (Option (Bytes × Nat)) :=
  if data.length < 1 + lenOfLen then pure none
  else do
    let lenBytes ← slice data 1 (1 + lenOfLen)
    rlpTake data (if raw then 0 else 1 + lenOfLen)
      (usize (1 + lenOfLen + decodeBeUsize lenBytes))

/-- `rlp_decode_item`: the value, raw for a list, and how many bytes it took. -/
def rlpDecodeItem (data : Bytes) : Outcome (Option (Bytes × Nat)) :=
  match data with
  | [] => pure none
  | first :: _ =>
    let tag := first.toNat
    if tag ≤ 0x7f then pure (some ([first], 1))
    else if tag ≤ 0xb7 then rlpTake data 1 (1 + (tag - 0x80))
    else if tag ≤ 0xbf then rlpTakeLong data (tag - 0xb7) false
    else if tag ≤ 0xf7 then rlpTake data 0 (1 + (tag - 0xc0))
    else rlpTakeLong data (tag - 0xf7) true

/-- The item loop of `rlp_decode_list` on the payload left to read. An item that takes no bytes is
read again and again until memory runs out; every other step shortens the payload, so its length is
fuel enough. -/
def rlpDecodeItems : Nat → Bytes → Outcome (Option (List Bytes))
  | _, [] => pure (some [])
  | 0, _ :: _ => .error (.panic "memory allocation failed")
  | fuel + 1, payload@(_ :: _) => do
    match ← rlpDecodeItem payload with
    | none => pure none
    | some (item, consumed) =>
      if consumed = 0 then .error (.panic "memory allocation failed")
      else do
        match ← rlpDecodeItems fuel (payload.drop consumed) with
        | none => pure none
        | some items => pure (some (item :: items))

/-- The payload that the header of a list announces, and where it stops. -/
def rlpListPayload (data : Bytes) : Outcome (Option (Bytes × Nat)) :=
  match data with
  | [] => pure none
  | first :: _ =>
    let tag := first.toNat
    if tag < 0xc0 then pure none
    else if tag ≤ 0xf7 then rlpTake data 1 (1 + (tag - 0xc0))
    else rlpTakeLong data (tag - 0xf7) false

def rlpDecodeList (data : Bytes) : Outcome (Option (List Bytes)) := do
  match ← rlpListPayload data with
  | none => pure none
  | some (payload, _) => rlpDecodeItems payload.length payload

/-- The bytes from the first one that is not zero; the last one stays when all are. -/
def stripZeros (bs : Bytes) : Bytes :=
  match bs.dropWhile (· = 0) with
  | [] => bs.drop (bs.length - 1)
  | b :: rest => b :: rest

/-- A header: the length itself up to 55, else the length of the length and the length. -/
def rlpHeader (short long len : Nat) : Bytes :=
  if len ≤ 55 then [UInt8.ofNat (short + len)]
  else
    let lenTrimmed := stripZeros (toBeBytes 8 len)
    UInt8.ofNat (long + lenTrimmed.length) :: lenTrimmed

def rlpEncodeBytes (data : Bytes) : Bytes :=
  if data.length = 1 ∧ (data.headD 0).toNat ≤ 0x7f then data
  else rlpHeader 0x80 0xb7 data.length ++ data

def rlpEncodeUint (val : Nat) : Bytes :=
  if val = 0 then [0x80] else rlpEncodeBytes (stripZeros (toBeBytes 16 val))

def rlpEncodeList (items : List Bytes) : Bytes :=
  rlpHeader 0xc0 0xf7 items.flatten.length ++ items.flatten

theorem slice_ok {data : Bytes} {start stop : Nat} {value : Bytes} :
    slice data start stop = .ok value ↔
      start ≤ stop ∧ stop ≤ data.length ∧ value = (data.drop start).take (stop - start) := by
  unfold slice
  split
  next h =>
    constructor
    · intro hslice
      cases hslice
    · intro hslice
      omega
  next h =>
    split
    next h' =>
      constructor
      · intro hslice
        cases hslice
      · intro hslice
        omega
    next h' =>
      constructor
      · intro hslice
        cases hslice
        exact ⟨by omega, by omega, rfl⟩
      · intro hslice
        rw [hslice.2.2]

/-- The bytes after the first that a header names. -/
theorem slice_append {first : UInt8} {value rest : Bytes} :
    slice (first :: (value ++ rest)) 1 (1 + value.length) = .ok value := by
  refine slice_ok.mpr ⟨by omega, ?_, ?_⟩
  · simp only [List.length_cons, List.length_append]
    omega
  · rw [List.drop_succ_cons, List.drop_zero, Nat.add_sub_cancel_left, List.take_left' rfl]

theorem rlpTake_some {data value : Bytes} {start stop consumed : Nat}
    (h : rlpTake data start stop = .ok (some (value, consumed))) :
    consumed ≤ data.length ∧ value.length + start ≤ consumed := by
  unfold rlpTake at h
  split at h
  next => cases h
  next =>
    obtain ⟨bytes, hbytes, hpair⟩ := bind_ok.mp h
    cases hpair
    obtain ⟨hle, hroom, rfl⟩ := slice_ok.mp hbytes
    refine ⟨hroom, ?_⟩
    rw [List.length_take, List.length_drop]
    omega

theorem rlpTakeLong_some {data value : Bytes} {lenOfLen consumed : Nat} {raw : Bool}
    (h : rlpTakeLong data lenOfLen raw = .ok (some (value, consumed))) :
    consumed ≤ data.length ∧ value.length + (if raw then 0 else 1 + lenOfLen) ≤ consumed := by
  unfold rlpTakeLong at h
  split at h
  next => cases h
  next =>
    obtain ⟨lenBytes, _, htake⟩ := bind_ok.mp h
    exact rlpTake_some htake

/-- The first byte decides how an item is read: as itself, by a short header or by a long one. -/
theorem rlpDecodeItem_form (first : UInt8) :
    (∀ rest, rlpDecodeItem (first :: rest) = .ok (some ([first], 1))) ∨
    (∃ start stop, ∀ rest, rlpDecodeItem (first :: rest) = rlpTake (first :: rest) start stop) ∨
    ∃ lenOfLen raw, lenOfLen ≤ 8 ∧
      ∀ rest, rlpDecodeItem (first :: rest) = rlpTakeLong (first :: rest) lenOfLen raw := by
  have htag := first.toNat_lt
  by_cases hsingle : first.toNat ≤ 0x7f
  · exact Or.inl fun rest => if_pos hsingle
  by_cases hstring : first.toNat ≤ 0xb7
  · refine Or.inr (Or.inl ⟨1, 1 + (first.toNat - 0x80), fun rest => ?_⟩)
    simp only [rlpDecodeItem, if_neg hsingle, if_pos hstring]
  by_cases hlong : first.toNat ≤ 0xbf
  · refine Or.inr (Or.inr ⟨first.toNat - 0xb7, false, by omega, fun rest => ?_⟩)
    simp only [rlpDecodeItem, if_neg hsingle, if_neg hstring, if_pos hlong]
  by_cases hlist : first.toNat ≤ 0xf7
  · refine Or.inr (Or.inl ⟨0, 1 + (first.toNat - 0xc0), fun rest => ?_⟩)
    simp only [rlpDecodeItem, if_neg hsingle, if_neg hstring, if_neg hlong, if_pos hlist]
  · refine Or.inr (Or.inr ⟨first.toNat - 0xf7, true, by omega, fun rest => ?_⟩)
    simp only [rlpDecodeItem, if_neg hsingle, if_neg hstring, if_neg hlong, if_neg hlist]

/-- An item is no longer than the bytes it took. -/
theorem rlpDecodeItem_some {data item : Bytes} {consumed : Nat}
    (h : rlpDecodeItem data = .ok (some (item, consumed))) :
    consumed ≤ data.length ∧ item.length ≤ consumed := by
  cases data with
  | nil => cases h
  | cons first rest =>
    rcases rlpDecodeItem_form first with hform | ⟨start, stop, hform⟩ | ⟨lenOfLen, raw, _, hform⟩
    · rw [hform] at h
      cases h
      simp
    · rw [hform] at h
      obtain ⟨hroom, hlen⟩ := rlpTake_some h
      exact ⟨hroom, by omega⟩
    · rw [hform] at h
      obtain ⟨hroom, hlen⟩ := rlpTakeLong_some h
      exact ⟨hroom, by omega⟩

theorem rlpDecodeItems_cons {fuel : Nat} {first : UInt8} {rest item : Bytes} {items : List Bytes} :
    rlpDecodeItems (fuel + 1) (first :: rest) = .ok (some (item :: items)) ↔
      ∃ consumed, rlpDecodeItem (first :: rest) = .ok (some (item, consumed)) ∧ consumed ≠ 0 ∧
        rlpDecodeItems fuel ((first :: rest).drop consumed) = .ok (some items) := by
  rw [rlpDecodeItems]
  constructor
  · intro h
    obtain ⟨read, hread, h⟩ := bind_ok.mp h
    cases read with
    | none => cases h
    | some pair =>
      obtain ⟨item', consumed⟩ := pair
      simp only at h
      split at h
      next => cases h
      next hne =>
        obtain ⟨more, hmore, h⟩ := bind_ok.mp h
        cases more with
        | none => cases h
        | some items' =>
          cases h
          exact ⟨consumed, hread, hne, hmore⟩
  · intro h
    obtain ⟨consumed, hread, hne, hmore⟩ := h
    rw [hread, ok_bind]
    simp only [hne, if_false, hmore, ok_bind]
    rfl

/-- More fuel than the payload has bytes changes nothing. -/
theorem rlpDecodeItems_fuel {fuel : Nat} {payload : Bytes} (h : payload.length ≤ fuel) :
    rlpDecodeItems fuel payload = rlpDecodeItems payload.length payload := by
  have stable : ∀ n fuel fuel' (payload : Bytes), payload.length ≤ n → payload.length ≤ fuel →
      payload.length ≤ fuel' → rlpDecodeItems fuel payload = rlpDecodeItems fuel' payload := by
    intro n
    induction n with
    | zero =>
      intro fuel fuel' payload hn _ _
      obtain rfl := List.length_eq_zero_iff.mp (Nat.le_zero.mp hn)
      cases fuel <;> cases fuel' <;> rfl
    | succ n ih =>
      intro fuel fuel' payload hn hfuel hfuel'
      cases payload with
      | nil => cases fuel <;> cases fuel' <;> rfl
      | cons first rest =>
        simp only [List.length_cons] at hn hfuel hfuel'
        obtain ⟨m, rfl⟩ := Nat.exists_eq_add_one_of_ne_zero (Nat.ne_of_gt (by omega : 0 < fuel))
        obtain ⟨m', rfl⟩ := Nat.exists_eq_add_one_of_ne_zero (Nat.ne_of_gt (by omega : 0 < fuel'))
        rw [rlpDecodeItems, rlpDecodeItems]
        refine congrArg (fun k => rlpDecodeItem (first :: rest) >>= k) (funext fun read => ?_)
        cases read with
        | none => rfl
        | some pair =>
          obtain ⟨item, consumed⟩ := pair
          simp only
          split
          next => rfl
          next hne =>
            have hshort : ((first :: rest).drop consumed).length ≤ rest.length := by
              rw [List.length_drop, List.length_cons]
              omega
            rw [ih m m' _ (by omega) (by omega) (by omega)]
  exact stable _ _ _ payload le_rfl h le_rfl

/-- The loop reads an item and goes on behind it. -/
theorem rlpDecodeItems_next {payload item : Bytes} {items : List Bytes} :
    rlpDecodeItems payload.length payload = .ok (some (item :: items)) ↔
      ∃ consumed, rlpDecodeItem payload = .ok (some (item, consumed)) ∧ consumed ≠ 0 ∧
        rlpDecodeItems (payload.drop consumed).length (payload.drop consumed) =
          .ok (some items) := by
  cases payload with
  | nil =>
    constructor
    · intro h
      cases h
    · intro h
      obtain ⟨consumed, hitem, _⟩ := h
      cases hitem
  | cons first rest =>
    have hfuel : ∀ consumed ≠ 0, rlpDecodeItems rest.length ((first :: rest).drop consumed) =
        rlpDecodeItems ((first :: rest).drop consumed).length ((first :: rest).drop consumed) := by
      intro consumed hne
      apply rlpDecodeItems_fuel
      rw [List.length_drop, List.length_cons]
      omega
    rw [List.length_cons, rlpDecodeItems_cons]
    constructor
    · rintro ⟨consumed, hread, hne, hmore⟩
      exact ⟨consumed, hread, hne, hfuel consumed hne ▸ hmore⟩
    · rintro ⟨consumed, hread, hne, hmore⟩
      exact ⟨consumed, hread, hne, (hfuel consumed hne).trans hmore⟩

/-- The items of a payload and the bytes they took fit in it. -/
theorem rlpDecodeItems_length {payload : Bytes} {items : List Bytes}
    (h : rlpDecodeItems payload.length payload = .ok (some items)) {item : Bytes}
    (hm : item ∈ items) : item.length ≤ payload.length := by
  induction items generalizing payload with
  | nil => cases hm
  | cons first rest ih =>
    obtain ⟨consumed, hread, _, hmore⟩ := rlpDecodeItems_next.mp h
    obtain ⟨hroom, hlen⟩ := rlpDecodeItem_some hread
    rcases List.mem_cons.mp hm with rfl | hm
    · omega
    · have := ih hmore hm
      rw [List.length_drop] at this
      omega

theorem rlpListPayload_some {data payload : Bytes} {stop : Nat}
    (h : rlpListPayload data = .ok (some (payload, stop))) : payload.length < data.length := by
  unfold rlpListPayload at h
  cases data with
  | nil => cases h
  | cons first rest =>
    simp only at h
    split at h
    next => cases h
    next =>
      split at h
      next =>
        obtain ⟨hroom, hlen⟩ := rlpTake_some h
        omega
      next =>
        obtain ⟨hroom, hlen⟩ := rlpTakeLong_some h
        simp only [Bool.false_eq_true, if_false] at hlen
        omega

theorem rlpDecodeList_ok {data : Bytes} {items : List Bytes}
    (h : rlpDecodeList data = .ok (some items)) :
    ∃ payload : Bytes, payload.length < data.length ∧
      rlpDecodeItems payload.length payload = .ok (some items) := by
  obtain ⟨read, hread, h⟩ := bind_ok.mp h
  cases read with
  | none => cases h
  | some pair =>
    obtain ⟨payload, stop⟩ := pair
    exact ⟨payload, rlpListPayload_some hread, h⟩

theorem rlpDecodeList_length {data : Bytes} {items : List Bytes}
    (h : rlpDecodeList data = .ok (some items)) {item : Bytes} (hm : item ∈ items) :
    item.length < data.length := by
  obtain ⟨payload, hlen, hitems⟩ := rlpDecodeList_ok h
  have := rlpDecodeItems_length hitems hm
  omega

/-- The number that big-endian bytes stand for. -/
def beValue (bs : Bytes) : Nat := bs.foldl (fun acc b => acc * 256 + b.toNat) 0

theorem beValue_concat (bs : Bytes) (b : UInt8) :
    beValue (bs ++ [b]) = beValue bs * 256 + b.toNat := by
  rw [beValue, List.foldl_append]
  rfl

@[simp] theorem length_toBeBytes (width n : Nat) : (toBeBytes width n).length = width := by
  induction width generalizing n with
  | zero => rfl
  | succ width ih => rw [toBeBytes, List.length_append, ih, List.length_singleton]

theorem beValue_toBeBytes (width n : Nat) : beValue (toBeBytes width n) = n % 256 ^ width := by
  induction width generalizing n with
  | zero => rw [pow_zero, Nat.mod_one]; rfl
  | succ width ih =>
    have hbyte : (UInt8.ofNat n).toNat = n % 256 := UInt8.toNat_ofNat'
    have hsplit : n % (256 * 256 ^ width) = n % 256 + 256 * (n / 256 % 256 ^ width) := Nat.mod_mul
    rw [toBeBytes, beValue_concat, ih, hbyte, pow_succ', hsplit]
    omega

theorem decodeBeUsize_eq (bs : Bytes) : decodeBeUsize bs = usize (beValue bs) := by
  have general : ∀ acc, bs.foldl (fun result b => usize (result * 256 + b.toNat)) (usize acc) =
      usize (bs.foldl (fun acc b => acc * 256 + b.toNat) acc) := by
    induction bs with
    | nil => exact fun _ => rfl
    | cons b bs ih =>
      intro acc
      have hstep : usize (usize acc * 256 + b.toNat) = usize (acc * 256 + b.toNat) := by
        unfold usize
        omega
      rw [List.foldl_cons, List.foldl_cons, hstep, ih]
  exact general 0

theorem beValue_dropZeros (bs : Bytes) : beValue (bs.dropWhile (· = 0)) = beValue bs := by
  induction bs with
  | nil => rfl
  | cons b bs ih =>
    by_cases hb : b = 0
    · subst hb
      rw [List.dropWhile_cons_of_pos (by simp), ih]
      rfl
    · rw [List.dropWhile_cons_of_neg (by simpa using hb)]

/-- A number other than zero loses its leading zeros and nothing else. -/
theorem stripZeros_toBeBytes {width n : Nat} (hpos : 0 < n) (h : n < 256 ^ width) :
    stripZeros (toBeBytes width n) = (toBeBytes width n).dropWhile (· = 0) ∧
      beValue (stripZeros (toBeBytes width n)) = n ∧
      (stripZeros (toBeBytes width n)).length ≤ width := by
  have hvalue : beValue ((toBeBytes width n).dropWhile (· = 0)) = n := by
    rw [beValue_dropZeros, beValue_toBeBytes, Nat.mod_eq_of_lt h]
  have hstrip : stripZeros (toBeBytes width n) = (toBeBytes width n).dropWhile (· = 0) := by
    unfold stripZeros
    cases hdrop : (toBeBytes width n).dropWhile (· = 0) with
    | nil =>
      rw [hdrop] at hvalue
      exact absurd hvalue (Nat.ne_of_lt hpos)
    | cons b rest => rfl
  have hle := (List.dropWhile_sublist (· = 0) (l := toBeBytes width n)).length_le
  rw [length_toBeBytes] at hle
  rw [hstrip]
  exact ⟨rfl, hvalue, hle⟩

/-- A length without its leading zeros: one to eight bytes that read back as the length. -/
theorem stripZeros_length {n : Nat} (hpos : 0 < n) (h : n < 2 ^ 64) :
    (stripZeros (toBeBytes 8 n)).length ≤ 8 ∧ decodeBeUsize (stripZeros (toBeBytes 8 n)) = n := by
  obtain ⟨_, hvalue, hlen⟩ := stripZeros_toBeBytes hpos (by omega : n < 256 ^ 8)
  rw [decodeBeUsize_eq, hvalue, usize_of_lt h]
  exact ⟨hlen, rfl⟩

theorem length_ne_zero_of_decodeBeUsize {bs : Bytes} {n : Nat} (hpos : 0 < n)
    (h : decodeBeUsize bs = n) : bs.length ≠ 0 := by
  intro hzero
  rw [List.length_eq_zero_iff.mp hzero] at h
  have hempty : decodeBeUsize [] = 0 := rfl
  omega

theorem rlpTake_value (first : UInt8) (value rest : Bytes) :
    rlpTake (first :: (value ++ rest)) 1 (1 + value.length) =
      .ok (some (value, 1 + value.length)) := by
  have hroom : ¬(first :: (value ++ rest)).length < 1 + value.length := by
    simp only [List.length_cons, List.length_append]
    omega
  rw [rlpTake, if_neg hroom, slice_append, ok_bind]
  rfl

theorem rlpTakeLong_value (first : UInt8) {lenBytes value : Bytes} (rest : Bytes)
    (hlen : decodeBeUsize lenBytes = value.length)
    (hfits : 1 + lenBytes.length + value.length < 2 ^ 64) :
    rlpTakeLong (first :: (lenBytes ++ (value ++ rest))) lenBytes.length false =
      .ok (some (value, 1 + lenBytes.length + value.length)) := by
  have hroom : ¬(first :: (lenBytes ++ (value ++ rest))).length < 1 + lenBytes.length := by
    simp only [List.length_cons, List.length_append]
    omega
  have hroom' : ¬(first :: (lenBytes ++ (value ++ rest))).length <
      1 + lenBytes.length + value.length := by
    simp only [List.length_cons, List.length_append]
    omega
  have hslice : slice (first :: (lenBytes ++ (value ++ rest))) (1 + lenBytes.length)
      (1 + lenBytes.length + value.length) = .ok value := by
    refine slice_ok.mpr ⟨by omega, by omega, ?_⟩
    rw [Nat.add_comm 1, List.drop_succ_cons, List.drop_left' rfl, Nat.add_sub_cancel_left,
      List.take_left' rfl]
  rw [rlpTakeLong, if_neg hroom, slice_append, ok_bind, hlen, usize_of_lt hfits, rlpTake,
    if_neg hroom']
  simp only [Bool.false_eq_true, if_false, hslice, ok_bind]
  rfl

/-- A string with its header reads back, whatever follows it. -/
theorem rlpDecodeItem_string {value : Bytes} (h : value.length + 9 < 2 ^ 64) (rest : Bytes) :
    rlpDecodeItem (rlpHeader 0x80 0xb7 value.length ++ (value ++ rest)) =
      .ok (some (value, (rlpHeader 0x80 0xb7 value.length).length + value.length)) := by
  unfold rlpHeader
  split
  next hshort =>
    have htag : (UInt8.ofNat (0x80 + value.length)).toNat = 0x80 + value.length :=
      UInt8.toNat_ofNat_of_lt' (by simp [UInt8.size]; omega)
    have hlow : ¬0x80 + value.length ≤ 0x7f := by omega
    have hhigh : 0x80 + value.length ≤ 0xb7 := by omega
    rw [List.singleton_append]
    simp only [rlpDecodeItem, htag, hlow, hhigh, if_true, if_false, Nat.add_sub_cancel_left,
      rlpTake_value, List.length_singleton]
  next hlong =>
    obtain ⟨hbytes, hvalue⟩ := stripZeros_length (n := value.length) (by omega) (by omega)
    simp only
    generalize stripZeros (toBeBytes 8 value.length) = lenBytes at hbytes hvalue
    have htag : (UInt8.ofNat (0xb7 + lenBytes.length)).toNat = 0xb7 + lenBytes.length :=
      UInt8.toNat_ofNat_of_lt' (by simp [UInt8.size]; omega)
    have hlow : ¬0xb7 + lenBytes.length ≤ 0x7f := by omega
    have hne := length_ne_zero_of_decodeBeUsize (by omega) hvalue
    have hmid : ¬0xb7 + lenBytes.length ≤ 0xb7 := by omega
    have hhigh : 0xb7 + lenBytes.length ≤ 0xbf := by omega
    rw [List.cons_append]
    simp only [rlpDecodeItem, htag, hlow, hmid, hhigh, if_true, if_false, Nat.add_sub_cancel_left,
      rlpTakeLong_value _ rest hvalue (by omega), List.length_cons]
    rw [Nat.add_comm 1 lenBytes.length]

theorem length_le_rlpEncodeBytes (data : Bytes) : data.length ≤ (rlpEncodeBytes data).length := by
  unfold rlpEncodeBytes
  split
  · exact le_rfl
  · rw [List.length_append]
    omega

theorem rlpHeader_short {short long len : Nat} (h : len ≤ 55) :
    rlpHeader short long len = [UInt8.ofNat (short + len)] := if_pos h

theorem rlpHeader_length_le {short long len : Nat} (h : len < 2 ^ 64) :
    (rlpHeader short long len).length ≤ 9 := by
  unfold rlpHeader
  split
  · simp
  · obtain ⟨hbytes, _⟩ := stripZeros_length (n := len) (by omega) h
    simp only [List.length_cons]
    omega

theorem rlpEncodeBytes_length_le {data : Bytes} (h : data.length ≤ 55) :
    (rlpEncodeBytes data).length ≤ data.length + 1 := by
  unfold rlpEncodeBytes
  split
  · omega
  · rw [rlpHeader_short h, List.singleton_append, List.length_cons]

theorem rlpEncodeBytes_ne_nil (data : Bytes) : rlpEncodeBytes data ≠ [] := by
  unfold rlpEncodeBytes rlpHeader
  split
  next h =>
    intro hnil
    rw [hnil] at h
    cases h.1
  next =>
    split
    · simp
    · simp

theorem rlpDecodeItem_encode {data : Bytes} (h : data.length + 9 < 2 ^ 64) (rest : Bytes) :
    rlpDecodeItem (rlpEncodeBytes data ++ rest) =
      .ok (some (data, (rlpEncodeBytes data).length)) := by
  unfold rlpEncodeBytes
  split
  next hsingle =>
    obtain ⟨hlen, hlow⟩ := hsingle
    obtain ⟨b, rfl⟩ := List.length_eq_one_iff.mp hlen
    have hb : b.toNat ≤ 0x7f := hlow
    simp only [List.singleton_append, rlpDecodeItem, hb, if_true]
    rfl
  next =>
    rw [List.append_assoc, rlpDecodeItem_string h, List.length_append]

theorem rlpEncodeBytes_inj {a b : Bytes} (ha : a.length + 9 < 2 ^ 64) (hb : b.length + 9 < 2 ^ 64)
    (h : rlpEncodeBytes a = rlpEncodeBytes b) : a = b := by
  have hread := rlpDecodeItem_encode ha []
  rw [h, rlpDecodeItem_encode hb []] at hread
  have hpair := Option.some.inj (Except.ok.inj hread)
  exact (congrArg Prod.fst hpair).symm

/-- Encoded strings read back one after the other. -/
theorem rlpDecodeItems_encode {items : List Bytes}
    (h : (items.map rlpEncodeBytes).flatten.length + 9 < 2 ^ 64) :
    rlpDecodeItems (items.map rlpEncodeBytes).flatten.length (items.map rlpEncodeBytes).flatten =
      .ok (some items) := by
  induction items with
  | nil => rfl
  | cons item items ih =>
    have hpos := List.length_pos_iff.mpr (rlpEncodeBytes_ne_nil item)
    have hitem := length_le_rlpEncodeBytes item
    rw [List.map_cons, List.flatten_cons] at h ⊢
    rw [List.length_append] at h
    refine rlpDecodeItems_next.mpr ⟨_, rlpDecodeItem_encode (by omega) _, by omega, ?_⟩
    rw [List.drop_left' rfl]
    exact ih (by omega)

theorem rlpListPayload_list {payload : Bytes} (h : payload.length + 9 < 2 ^ 64) :
    ∃ stop, rlpListPayload (rlpHeader 0xc0 0xf7 payload.length ++ payload) =
      .ok (some (payload, stop)) := by
  unfold rlpHeader
  split
  next hshort =>
    have htag : (UInt8.ofNat (0xc0 + payload.length)).toNat = 0xc0 + payload.length :=
      UInt8.toNat_ofNat_of_lt' (by simp [UInt8.size]; omega)
    have hlow : ¬0xc0 + payload.length < 0xc0 := by omega
    have hhigh : 0xc0 + payload.length ≤ 0xf7 := by omega
    have htake := rlpTake_value (UInt8.ofNat (0xc0 + payload.length)) payload []
    rw [List.append_nil] at htake
    rw [List.singleton_append]
    simp only [rlpListPayload, htag, hlow, hhigh, if_true, if_false, Nat.add_sub_cancel_left, htake]
    exact ⟨_, rfl⟩
  next hlong =>
    obtain ⟨hbytes, hvalue⟩ := stripZeros_length (n := payload.length) (by omega) (by omega)
    simp only
    generalize stripZeros (toBeBytes 8 payload.length) = lenBytes at hbytes hvalue
    have htag : (UInt8.ofNat (0xf7 + lenBytes.length)).toNat = 0xf7 + lenBytes.length :=
      UInt8.toNat_ofNat_of_lt' (by simp [UInt8.size]; omega)
    have hlow : ¬0xf7 + lenBytes.length < 0xc0 := by omega
    have hne := length_ne_zero_of_decodeBeUsize (by omega) hvalue
    have hmid : ¬0xf7 + lenBytes.length ≤ 0xf7 := by omega
    have htake := rlpTakeLong_value (UInt8.ofNat (0xf7 + lenBytes.length)) [] hvalue (by omega)
    rw [List.append_nil] at htake
    rw [List.cons_append]
    simp only [rlpListPayload, htag, hlow, hmid, if_false, Nat.add_sub_cancel_left, htake]
    exact ⟨_, rfl⟩

/-- A list of encoded strings decodes to the strings. -/
theorem rlpDecodeList_encode {items : List Bytes}
    (h : (items.map rlpEncodeBytes).flatten.length + 9 < 2 ^ 64) :
    rlpDecodeList (rlpEncodeList (items.map rlpEncodeBytes)) = .ok (some items) := by
  obtain ⟨stop, hpayload⟩ := rlpListPayload_list h
  rw [rlpDecodeList, rlpEncodeList, hpayload, ok_bind]
  exact rlpDecodeItems_encode h

theorem rlpEncodeList_strings_inj {items items' : List Bytes}
    (h : (items.map rlpEncodeBytes).flatten.length + 9 < 2 ^ 64)
    (h' : (items'.map rlpEncodeBytes).flatten.length + 9 < 2 ^ 64)
    (heq : rlpEncodeList (items.map rlpEncodeBytes) = rlpEncodeList (items'.map rlpEncodeBytes)) :
    items = items' := by
  have hread := rlpDecodeList_encode h
  rw [heq, rlpDecodeList_encode h'] at hread
  exact (Option.some.inj (Except.ok.inj hread)).symm

theorem slice_of_take {data rest : Bytes} {start stop n : Nat} (hn : stop ≤ n)
    (h : n ≤ data.length) :
    slice (data.take n ++ rest) start stop = slice data start stop := by
  have hlen : (data.take n).length = n := List.length_take_of_le h
  have hbytes : ((data.take n ++ rest).drop start).take (stop - start) =
      (data.drop start).take (stop - start) := by
    rw [← List.drop_take, ← List.drop_take, List.take_append_of_le_length (by omega),
      List.take_take, Nat.min_eq_left hn]
  unfold slice
  simp only [hbytes, List.length_append, hlen]
  split
  next => rfl
  next =>
    rw [if_neg (by omega), if_neg (by omega)]

theorem rlpTake_take {data value : Bytes} {start stop consumed : Nat}
    (h : rlpTake data start stop = .ok (some (value, consumed))) (rest : Bytes) :
    rlpTake (data.take consumed ++ rest) start stop = .ok (some (value, consumed)) := by
  obtain ⟨hroom, _⟩ := rlpTake_some h
  unfold rlpTake at h ⊢
  split at h
  next => cases h
  next hstop =>
    obtain ⟨bytes, hbytes, hpair⟩ := bind_ok.mp h
    cases hpair
    have hlen : ¬(data.take stop ++ rest).length < stop := by
      rw [List.length_append, List.length_take_of_le hroom]
      omega
    rw [if_neg hlen, slice_of_take le_rfl hroom, hbytes]
    rfl

theorem rlpTakeLong_take {data value : Bytes} {lenOfLen consumed : Nat} {raw : Bool}
    (h : rlpTakeLong data lenOfLen raw = .ok (some (value, consumed)))
    (hheader : 1 + lenOfLen ≤ consumed) (rest : Bytes) :
    rlpTakeLong (data.take consumed ++ rest) lenOfLen raw = .ok (some (value, consumed)) := by
  obtain ⟨hroom, _⟩ := rlpTakeLong_some h
  unfold rlpTakeLong at h ⊢
  split at h
  next => cases h
  next =>
    obtain ⟨lenBytes, hbytes, htake⟩ := bind_ok.mp h
    have hlen : ¬(data.take consumed ++ rest).length < 1 + lenOfLen := by
      rw [List.length_append, List.length_take_of_le hroom]
      omega
    rw [if_neg hlen, slice_of_take hheader hroom, hbytes, ok_bind]
    exact rlpTake_take htake rest

/-- What an item of nine bytes or more is read as depends on these bytes only. A shorter one can be
a list whose wrapped length ends inside its own header. -/
theorem rlpDecodeItem_take {data item : Bytes} {consumed : Nat}
    (h : rlpDecodeItem data = .ok (some (item, consumed))) (hnine : 9 ≤ consumed) (rest : Bytes) :
    rlpDecodeItem (data.take consumed ++ rest) = .ok (some (item, consumed)) := by
  cases data with
  | nil => cases h
  | cons first tail =>
    obtain ⟨n, rfl⟩ : ∃ n, consumed = n + 1 := ⟨consumed - 1, by omega⟩
    have hhead : (first :: tail).take (n + 1) ++ rest = first :: (tail.take n ++ rest) := rfl
    rcases rlpDecodeItem_form first with hform | ⟨start, stop, hform⟩ | ⟨lenOfLen, raw, hlen, hform⟩
    · rw [hform] at h
      cases h
      omega
    · rw [hform] at h
      rw [hhead, hform, ← hhead]
      exact rlpTake_take h rest
    · rw [hform] at h
      rw [hhead, hform, ← hhead]
      exact rlpTakeLong_take h (by omega) rest

/-- An item of at most 29 bytes can be written on its own in at most 29 bytes. -/
theorem rlpDecodeItem_again {data item : Bytes} {consumed : Nat}
    (h : rlpDecodeItem data = .ok (some (item, consumed))) (hlen : consumed ≤ 29) :
    ∃ encoded : Bytes, 0 < encoded.length ∧ encoded.length ≤ 29 ∧
      ∀ rest, rlpDecodeItem (encoded ++ rest) = .ok (some (item, encoded.length)) := by
  obtain ⟨hroom, hitem⟩ := rlpDecodeItem_some h
  by_cases hnine : 9 ≤ consumed
  · have htake : (data.take consumed).length = consumed := List.length_take_of_le hroom
    refine ⟨data.take consumed, by omega, by omega, fun rest => ?_⟩
    rw [rlpDecodeItem_take h hnine rest, htake]
  · have hheader : rlpHeader 0x80 0xb7 item.length = [UInt8.ofNat (0x80 + item.length)] :=
      rlpHeader_short (by omega)
    refine ⟨rlpHeader 0x80 0xb7 item.length ++ item, ?_, ?_, fun rest => ?_⟩
    · rw [hheader, List.singleton_append, List.length_cons]
      omega
    · rw [hheader, List.singleton_append, List.length_cons]
      omega
    · rw [List.append_assoc, rlpDecodeItem_string (by omega), List.length_append]

section Reads

/-- The bytes of one item, which reads back whatever follows it. -/
structure ReadsAs (encoded item : Bytes) : Prop where
  ne_nil : encoded ≠ []
  decode : ∀ rest, rlpDecodeItem (encoded ++ rest) = .ok (some (item, encoded.length))

theorem readsAs_string {value : Bytes} (h : value.length + 9 < 2 ^ 64) :
    ReadsAs (rlpEncodeBytes value) value :=
  ⟨rlpEncodeBytes_ne_nil value, rlpDecodeItem_encode h⟩

/-- A short list inside a list reads as its own bytes, header included. -/
theorem readsAs_list {encoded : List Bytes} (h : (rlpEncodeList encoded).length < 32) :
    ReadsAs (rlpEncodeList encoded) (rlpEncodeList encoded) := by
  unfold rlpEncodeList at h ⊢
  generalize encoded.flatten = payload at h ⊢
  rw [List.length_append] at h
  have hheader : rlpHeader 0xc0 0xf7 payload.length = [UInt8.ofNat (0xc0 + payload.length)] :=
    rlpHeader_short (by omega)
  rw [hheader, List.singleton_append]
  refine ⟨by simp, fun rest => ?_⟩
  have htag : (UInt8.ofNat (0xc0 + payload.length)).toNat = 0xc0 + payload.length :=
    UInt8.toNat_ofNat_of_lt' (by simp [UInt8.size]; omega)
  have hsingle : ¬0xc0 + payload.length ≤ 0x7f := by omega
  have hstring : ¬0xc0 + payload.length ≤ 0xb7 := by omega
  have hlong : ¬0xc0 + payload.length ≤ 0xbf := by omega
  have hlist : 0xc0 + payload.length ≤ 0xf7 := by omega
  have hlen : (UInt8.ofNat (0xc0 + payload.length) :: payload).length = 1 + payload.length := by
    rw [List.length_cons]
    omega
  rw [List.cons_append]
  simp only [rlpDecodeItem, htag, hsingle, hstring, hlong, hlist, if_true, if_false,
    Nat.add_sub_cancel_left]
  rw [← List.cons_append, rlpTake, if_neg (by rw [List.length_append, hlen]; omega),
    slice_ok.mpr ⟨Nat.zero_le _, by rw [List.length_append, hlen]; omega, rfl⟩, ok_bind,
    List.drop_zero, Nat.sub_zero, List.take_left' hlen, hlen]
  rfl

theorem rlpDecodeItems_reads {encoded items : List Bytes}
    (h : List.Forall₂ ReadsAs encoded items) :
    rlpDecodeItems encoded.flatten.length encoded.flatten = .ok (some items) := by
  induction h with
  | nil => rfl
  | @cons first item encoded items hfirst _ ih =>
    have hpos := List.length_pos_iff.mpr hfirst.ne_nil
    rw [List.flatten_cons]
    refine rlpDecodeItems_next.mpr ⟨_, hfirst.decode _, by omega, ?_⟩
    rw [List.drop_left' rfl]
    exact ih

/-- A list of items reads back item by item. -/
theorem rlpDecodeList_reads {encoded items : List Bytes} (h : List.Forall₂ ReadsAs encoded items)
    (hlen : (rlpEncodeList encoded).length + 9 < 2 ^ 64) :
    rlpDecodeList (rlpEncodeList encoded) = .ok (some items) := by
  rw [rlpEncodeList, List.length_append] at hlen
  obtain ⟨stop, hpayload⟩ := rlpListPayload_list (by omega : encoded.flatten.length + 9 < 2 ^ 64)
  rw [rlpDecodeList, rlpEncodeList, hpayload, ok_bind]
  exact rlpDecodeItems_reads h

theorem length_le_rlpEncodeList {encoded : List Bytes} {item : Bytes} (h : item ∈ encoded) :
    item.length ≤ (rlpEncodeList encoded).length := by
  have hsub : item.length ≤ encoded.flatten.length := (List.sublist_flatten_of_mem h).length_le
  rw [rlpEncodeList, List.length_append]
  omega

end Reads

end ObscuraNetwork
