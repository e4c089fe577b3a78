import ObscuraNetwork.NoteEncryption
import ObscuraNetwork.Rlp
import ObscuraNetwork.Serde

namespace ObscuraNetwork

namespace Encryption

/-- `data[i]` -/
def byteAt (data : Bytes) (i : Nat) : Outcome UInt8 :=
  match data[i]? with
  | some byte => pure byte
  | none => .error (.panic ("index out of bounds: the len is " ++ toString data.length ++
      " but the index is " ++ toString i))

/-- `u16::from_le_bytes([data[i], data[i + 1]]) as usize` -/
def readU16 (data : Bytes) (i : Nat) : Outcome Nat := do
  let low ← byteAt data i
  let high ← byteAt data (i + 1)
  pure (leValue [low, high])

namespace EncryptedNote

/-- The casts to `u16` keep the lowest 16 bits of a length. -/
def toBytes (e : EncryptedNote) : Bytes :=
  let rLen := UInt16.ofNat e.encForRecipient.length
  let cLen := UInt16.ofNat e.encForCompliance.length
  toLeBytes16 rLen ++ e.encForRecipient ++ toLeBytes16 cLen ++ e.encForCompliance

def fromBytes (data : Bytes) : Outcome EncryptedNote := do
  ensure (4 ≤ data.length) (.bail "EncryptedNote too short")
  let rLen ← readU16 data 0
  ensure (2 + rLen + 2 ≤ data.length) (.bail "EncryptedNote truncated (enc_for_recipient)")
  let encForRecipient ← slice data 2 (2 + rLen)
  let cOff := 2 + rLen
  let cLen ← readU16 data cOff
  ensure (cOff + 2 + cLen ≤ data.length) (.bail "EncryptedNote truncated (enc_for_compliance)")
  let encForCompliance ← slice data (cOff + 2) (cOff + 2 + cLen)
  pure { encForRecipient, encForCompliance }

end EncryptedNote

section Codec

theorem byteAt_ok {data : Bytes} {i : Nat} {byte : UInt8} :
    byteAt data i = .ok byte ↔ data[i]? = some byte := by
  unfold byteAt
  cases data[i]? with
  | some byte' => simp
  | none => simp

theorem readU16_total {data : Bytes} {i : Nat} (h : i + 2 ≤ data.length) :
    ∃ n, readU16 data i = .ok n := by
  have hlow : byteAt data i = .ok data[i] := byteAt_ok.mpr (List.getElem?_eq_getElem (by omega))
  have hhigh : byteAt data (i + 1) = .ok data[i + 1] :=
    byteAt_ok.mpr (List.getElem?_eq_getElem (by omega))
  refine ⟨leValue [data[i], data[i + 1]], ?_⟩
  rw [readU16, hlow, ok_bind, hhigh, ok_bind]
  rfl

theorem leValue_toLeBytes16 (x : UInt16) : leValue (toLeBytes16 x) = x.toNat := by
  have hx : x.toNat < 65536 := x.toNat_lt
  simp only [leValue, toLeBytes16, List.foldr_cons, List.foldr_nil, UInt8.toNat_ofNat']
  omega

/-- The bytes that a length is read from are the ones it is written as. -/
theorem readU16_sound {data : Bytes} {i n : Nat} (h : readU16 data i = .ok n) :
    n < 65536 ∧ data.take (i + 2) = data.take i ++ toLeBytes16 (UInt16.ofNat n) := by
  obtain ⟨low, hlow, h⟩ := bind_ok.mp h
  obtain ⟨high, hhigh, h⟩ := bind_ok.mp h
  have hn : low.toNat + 256 * high.toNat = n := by simpa [leValue] using h
  have hl := low.toNat_lt
  have hh := high.toNat_lt
  have hsmall : n < 65536 := by omega
  have hcast : (UInt16.ofNat n).toNat = n := UInt16.toNat_ofNat_of_lt' hsmall
  have hlowByte : UInt8.ofNat n = low := by
    apply UInt8.toNat_inj.mp
    rw [UInt8.toNat_ofNat']
    omega
  have hhighByte : UInt8.ofNat (n / 256) = high := by
    apply UInt8.toNat_inj.mp
    rw [UInt8.toNat_ofNat']
    omega
  refine ⟨hsmall, ?_⟩
  rw [toLeBytes16, hcast, hlowByte, hhighByte, List.take_add_one, List.take_add_one,
    byteAt_ok.mp hlow, byteAt_ok.mp hhigh, List.append_assoc]
  rfl

theorem readU16_complete {data rest : Bytes} {i : Nat} {x : UInt16}
    (h : data.drop i = toLeBytes16 x ++ rest) : readU16 data i = .ok x.toNat := by
  have hlow : data[i]? = some (UInt8.ofNat x.toNat) := by
    have hget := congrArg (fun bs : Bytes => bs[0]?) h
    simpa [toLeBytes16] using hget
  have hhigh : data[i + 1]? = some (UInt8.ofNat (x.toNat / 256)) := by
    have hget := congrArg (fun bs : Bytes => bs[1]?) h
    simpa [toLeBytes16] using hget
  rw [readU16, byteAt_ok.mpr hlow, ok_bind, byteAt_ok.mpr hhigh, ok_bind]
  exact congrArg Except.ok (leValue_toLeBytes16 x)

@[simp] theorem length_toLeBytes16 (x : UInt16) : (toLeBytes16 x).length = 2 := rfl

/-- A blob that is read behind its length is the one written there. -/
theorem blob_sound {data value : Bytes} {i n : Nat} (hlen : readU16 data i = .ok n)
    (hvalue : slice data (i + 2) (i + 2 + n) = .ok value) :
    n = value.length ∧ value.length < 65536 ∧
      data.take (i + 2 + value.length) =
        data.take i ++ toLeBytes16 (UInt16.ofNat value.length) ++ value := by
  obtain ⟨hsmall, hhead⟩ := readU16_sound hlen
  obtain ⟨_, hfits, htaken⟩ := slice_ok.mp hvalue
  have hn : n = value.length := by
    rw [htaken, List.length_take, List.length_drop]
    omega
  have hwhole : i + 2 + n - (i + 2) = n := by omega
  subst hn
  rw [hwhole] at htaken
  refine ⟨rfl, hsmall, ?_⟩
  rw [List.take_add, hhead, ← htaken]

theorem blob_complete {data value rest : Bytes} {i : Nat} (hsmall : value.length < 65536)
    (h : data.drop i = toLeBytes16 (UInt16.ofNat value.length) ++ value ++ rest) :
    i + 2 + value.length ≤ data.length ∧ readU16 data i = .ok value.length ∧
      slice data (i + 2) (i + 2 + value.length) = .ok value := by
  have hlen := congrArg List.length h
  simp only [List.length_drop, List.length_append, length_toLeBytes16] at hlen
  have hfits : i + 2 + value.length ≤ data.length := by omega
  rw [List.append_assoc] at h
  have hread := readU16_complete h
  rw [UInt16.toNat_ofNat_of_lt' hsmall] at hread
  have hdrop : data.drop (i + 2) = value ++ rest := by
    rw [← List.drop_drop, h]
    rfl
  have hwhole : i + 2 + value.length - (i + 2) = value.length := by omega
  refine ⟨hfits, hread, slice_ok.mpr ⟨by omega, hfits, ?_⟩⟩
  rw [hdrop, hwhole, List.take_left' rfl]

theorem fromBytes_sound {data : Bytes} {e : EncryptedNote}
    (h : EncryptedNote.fromBytes data = .ok e) :
    e.encForRecipient.length < 65536 ∧ e.encForCompliance.length < 65536 ∧ e.toBytes <+: data := by
  obtain ⟨_, _, h⟩ := bind_ok.mp h
  obtain ⟨rLen, hrLen, h⟩ := bind_ok.mp h
  obtain ⟨_, _, h⟩ := bind_ok.mp h
  obtain ⟨recipient, hrecipient, h⟩ := bind_ok.mp h
  obtain ⟨cLen, hcLen, h⟩ := bind_ok.mp h
  obtain ⟨_, _, h⟩ := bind_ok.mp h
  obtain ⟨compliance, hcompliance, h⟩ := bind_ok.mp h
  obtain rfl := pure_ok.mp h
  obtain ⟨rfl, hrSmall, hrTake⟩ :=
    blob_sound hrLen (show slice data (0 + 2) (0 + 2 + rLen) = .ok recipient from hrecipient)
  obtain ⟨rfl, hcSmall, hcTake⟩ := blob_sound hcLen hcompliance
  refine ⟨hrSmall, hcSmall, ?_⟩
  rw [Nat.zero_add, List.take_zero, List.nil_append] at hrTake
  rw [hrTake] at hcTake
  exact (congrArg (· <+: data) hcTake).mp (List.take_prefix _ data)

/-- Every index and every slice lies behind a length check. -/
theorem fromBytes_noPanic (data : Bytes) : NoPanic (EncryptedNote.fromBytes data) := by
  refine (noPanic_ensure _ _).bind fun _ hshort => ?_
  have hshort := ensure_ok.mp hshort
  obtain ⟨rLen, hrLen⟩ := readU16_total (show 0 + 2 ≤ data.length by omega)
  rw [hrLen, ok_bind]
  refine (noPanic_ensure _ _).bind fun _ hrFits => ?_
  have hrFits := ensure_ok.mp hrFits
  have hrecipient : slice data 2 (2 + rLen) = .ok ((data.drop 2).take (2 + rLen - 2)) :=
    slice_ok.mpr ⟨Nat.le_add_right 2 rLen, by omega, rfl⟩
  rw [hrecipient, ok_bind]
  obtain ⟨cLen, hcLen⟩ := readU16_total hrFits
  show NoPanic (readU16 data (2 + rLen) >>= _)
  rw [hcLen, ok_bind]
  refine (noPanic_ensure _ _).bind fun _ hcFits => ?_
  have hcFits := ensure_ok.mp hcFits
  have hcompliance := slice_ok.mpr ⟨Nat.le_add_right (2 + rLen + 2) cLen, hcFits, rfl⟩
  rw [hcompliance, ok_bind]
  exact noPanic_ok _

/-- What follows a note is not read. -/
theorem fromBytes_written {e : EncryptedNote} (hr : e.encForRecipient.length < 65536)
    (hc : e.encForCompliance.length < 65536) (rest : Bytes) :
    EncryptedNote.fromBytes (e.toBytes ++ rest) = .ok e := by
  have hwhole : (e.toBytes ++ rest).drop 0 =
      toLeBytes16 (UInt16.ofNat e.encForRecipient.length) ++ e.encForRecipient ++
        (toLeBytes16 (UInt16.ofNat e.encForCompliance.length) ++ e.encForCompliance ++ rest) := by
    simp [EncryptedNote.toBytes]
  have hsecond : (e.toBytes ++ rest).drop (2 + e.encForRecipient.length) =
      toLeBytes16 (UInt16.ofNat e.encForCompliance.length) ++ e.encForCompliance ++ rest := by
    rw [← List.drop_zero (l := e.toBytes ++ rest), hwhole]
    exact List.drop_left' (by rw [List.length_append, length_toLeBytes16])
  obtain ⟨_, hrLen, hrecipient⟩ := blob_complete hr hwhole
  obtain ⟨hfits, hcLen, hcompliance⟩ := blob_complete hc hsecond
  rw [EncryptedNote.fromBytes, ensure_true (by omega), ok_bind, hrLen, ok_bind,
    ensure_true (by omega), ok_bind]
  show ((slice (e.toBytes ++ rest) (0 + 2) (0 + 2 + e.encForRecipient.length)) >>= _) = _
  rw [hrecipient, ok_bind]
  show (readU16 (e.toBytes ++ rest) (2 + e.encForRecipient.length) >>= _) = _
  rw [hcLen, ok_bind, ensure_true hfits, ok_bind, hcompliance]
  rfl

/-- The codec changes no note exactly where both lengths fit 16 bits. -/
theorem note_codec_iff (e : EncryptedNote) :
    (EncryptedNote.fromBytes e.toBytes = .ok e ∧
      ∀ data, NoPanic (EncryptedNote.fromBytes data) ∧
        ∀ e', EncryptedNote.fromBytes data = .ok e' → e'.toBytes <+: data) ↔
      e.encForRecipient.length < 65536 ∧ e.encForCompliance.length < 65536 := by
  constructor
  · intro h
    obtain ⟨hr, hc, _⟩ := fromBytes_sound h.1
    exact ⟨hr, hc⟩
  · intro h
    refine ⟨?_, fun data => ⟨fromBytes_noPanic data, ?_⟩⟩
    · rw [← List.append_nil e.toBytes]
      exact fromBytes_written h.1 h.2 []
    · intro e' hread
      exact (fromBytes_sound hread).2.2

/-- A blob that is written with the length zero is read back empty, and so is the next one where
the first begins with two zeros. -/
theorem fromBytes_wrapped {value padding compliance : Bytes}
    (hlen : UInt16.ofNat value.length = 0) (hvalue : value = 0 :: 0 :: padding) :
    EncryptedNote.fromBytes (EncryptedNote.toBytes ⟨value, compliance⟩) = .ok ⟨[], []⟩ := by
  have hbytes : EncryptedNote.toBytes ⟨value, compliance⟩ = EncryptedNote.toBytes ⟨[], []⟩ ++
      (padding ++ toLeBytes16 (UInt16.ofNat compliance.length) ++ compliance) := by
    rw [EncryptedNote.toBytes, hlen, hvalue]
    rfl
  rw [hbytes]
  exact fromBytes_written (by decide) (by decide) _

theorem long_note_emptied :
    EncryptedNote.fromBytes
        (EncryptedNote.toBytes ⟨List.replicate 65536 0, List.replicate 136 7⟩) =
      .ok ⟨[], []⟩ ∧
    EncryptedNote.fromBytes
        (EncryptedNote.toBytes ⟨List.replicate 65536 0, List.replicate 136 7⟩) ≠
      .ok ⟨List.replicate 65536 0, List.replicate 136 7⟩ := by
  have hlen : UInt16.ofNat (List.replicate 65536 (0 : UInt8)).length = 0 := by
    rw [List.length_replicate]
    rfl
  have hvalue : List.replicate 65536 (0 : UInt8) = 0 :: 0 :: List.replicate 65534 0 := by
    rw [← List.replicate_succ, ← List.replicate_succ]
  refine ⟨fromBytes_wrapped hlen hvalue, fun hsame => ?_⟩
  have hsmall := (fromBytes_sound hsame).1
  rw [List.length_replicate] at hsmall
  omega

end Codec

end Encryption

end ObscuraNetwork
