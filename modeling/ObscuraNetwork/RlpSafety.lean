import ObscuraNetwork.Rlp
import Mathlib.Data.List.Induction

namespace ObscuraNetwork

theorem beValue_lt (bs : Bytes) : beValue bs < 256 ^ bs.length := by
  induction bs using List.reverseRecOn with
  | nil => decide
  | append_singleton bs b ih =>
    have hb := b.toNat_lt
    rw [beValue_concat, List.length_append, List.length_singleton, pow_succ]
    omega

theorem beValue_take_lt (bs : Bytes) {n : Nat} (h : n ≤ 8) : beValue (bs.take n) < 2 ^ 64 := by
  have hvalue := beValue_lt (bs.take n)
  have hbytes : (bs.take n).length ≤ 8 := (List.length_take_le _ _).trans h
  have hpow : 256 ^ (bs.take n).length ≤ 256 ^ 8 := Nat.pow_le_pow_right (by omega) hbytes
  omega

section Headers

def rlpTag (data : Bytes) : Nat := (data.headD 0).toNat

/-- How many bytes of length follow the first byte. -/
def rlpLenOfLen (data : Bytes) : Nat :=
  if 0xb7 < rlpTag data ∧ rlpTag data ≤ 0xbf then rlpTag data - 0xb7
  else if 0xf7 < rlpTag data then rlpTag data - 0xf7
  else 0

/-- The bytes that a header and its content take according to the header, as a number that does not
wrap. -/
def rlpAnnounced (data : Bytes) : Nat :=
  if rlpTag data ≤ 0x7f then 1
  else if rlpTag data ≤ 0xb7 then 1 + (rlpTag data - 0x80)
  else if 0xbf < rlpTag data ∧ rlpTag data ≤ 0xf7 then 1 + (rlpTag data - 0xc0)
  else 1 + rlpLenOfLen data + beValue ((data.drop 1).take (rlpLenOfLen data))

/-- What a list contains according to its header. -/
def rlpPayload (data : Bytes) : Bytes :=
  (data.drop (1 + rlpLenOfLen data)).take (rlpAnnounced data - (1 + rlpLenOfLen data))

/-- A long string announces fewer than `2 ^ 64` bytes and a long list does not announce just so
many, unless they are cut off before they announce anything. -/
structure RlpItemFits (data : Bytes) : Prop where
  string : 0xb7 < rlpTag data → rlpTag data ≤ 0xbf → 1 + rlpLenOfLen data ≤ data.length →
    rlpAnnounced data < 2 ^ 64
  list : 0xf7 < rlpTag data → 1 + rlpLenOfLen data ≤ data.length → rlpAnnounced data ≠ 2 ^ 64

/-- The places of a payload that are the announced lengths of items apart. -/
inductive RlpItemAt (payload : Bytes) : Bytes → Prop
  | start : RlpItemAt payload payload
  | next {rest : Bytes} (h : RlpItemAt payload rest) (hne : rest ≠ [])
      (hheader : 1 + rlpLenOfLen rest ≤ rest.length)
      (hroom : usize (rlpAnnounced rest) ≤ rest.length) :
      RlpItemAt payload (rest.drop (usize (rlpAnnounced rest)))

/-- No length in the header of the list, or in those of the items it is read as, does harm. -/
structure RlpFits (data : Bytes) : Prop where
  header : 0xf7 < rlpTag data → 1 + rlpLenOfLen data ≤ data.length → rlpAnnounced data < 2 ^ 64
  items : 0xc0 ≤ rlpTag data → rlpAnnounced data ≤ data.length →
    ∀ rest, RlpItemAt (rlpPayload data) rest → RlpItemFits rest

end Headers

/-- The iterations of the loop over the items: so many, and what is left of the payload then. -/
inductive RlpLoop (payload : Bytes) : Nat → Bytes → Prop
  | start : RlpLoop payload 0 payload
  | next {n consumed : Nat} {rest item : Bytes} (h : RlpLoop payload n rest)
      (hread : rlpDecodeItem rest = .ok (some (item, consumed))) :
      RlpLoop payload (n + 1) (rest.drop consumed)

/-- The item decoder returns, and what it takes is something and not more than there is. -/
def RlpItemReads (data : Bytes) : Prop :=
  ∃ result, rlpDecodeItem data = .ok result ∧
    ∀ item consumed, result = some (item, consumed) → 1 ≤ consumed ∧ consumed ≤ data.length

structure DecodesSafely (data : Bytes) : Prop where
  returns : ∃ result, rlpDecodeList data = .ok result
  loop : ∀ payload stop, rlpListPayload data = .ok (some (payload, stop)) →
    ∀ n rest, RlpLoop payload n rest → n ≤ payload.length ∧ (rest ≠ [] → RlpItemReads rest)

section Reading

theorem rlpTake_cases (data : Bytes) (start stop : Nat) :
    (data.length < stop ∧ rlpTake data start stop = .ok none) ∨
    (stop ≤ data.length ∧ start ≤ stop ∧
      rlpTake data start stop = .ok (some ((data.drop start).take (stop - start), stop))) ∨
    (stop ≤ data.length ∧ stop < start ∧ ∃ message, rlpTake data start stop = .error message) := by
  unfold rlpTake
  split
  next hshort => exact Or.inl ⟨hshort, rfl⟩
  next hroom =>
    have hroom := Nat.le_of_not_lt hroom
    rcases Nat.lt_or_ge stop start with hinverted | hle
    · refine Or.inr (Or.inr ⟨hroom, hinverted, ?_⟩)
      rw [slice, if_pos hinverted]
      exact ⟨_, rfl⟩
    · refine Or.inr (Or.inl ⟨hroom, hle, ?_⟩)
      rw [slice_ok.mpr ⟨hle, hroom, rfl⟩]
      rfl

/-- A long form with its bytes of length takes what it announces, reduced to 64 bits. -/
theorem rlpTakeLong_announced {data : Bytes} {lenOfLen : Nat} {raw : Bool} (hlen : lenOfLen ≤ 8)
    (hheader : 1 + lenOfLen ≤ data.length) :
    rlpTakeLong data lenOfLen raw = rlpTake data (if raw then 0 else 1 + lenOfLen)
      (usize (1 + lenOfLen + beValue ((data.drop 1).take lenOfLen))) := by
  have hslice : slice data 1 (1 + lenOfLen) = .ok ((data.drop 1).take lenOfLen) :=
    slice_ok.mpr ⟨by omega, hheader, by rw [Nat.add_sub_cancel_left]⟩
  rw [rlpTakeLong, if_neg (Nat.not_lt.mpr hheader), hslice, ok_bind, decodeBeUsize_eq,
    usize_of_lt (beValue_take_lt (data.drop 1) hlen)]

theorem rlpTakeLong_cut {data : Bytes} {lenOfLen : Nat} {raw : Bool}
    (h : data.length < 1 + lenOfLen) : rlpTakeLong data lenOfLen raw = .ok none := by
  rw [rlpTakeLong, if_pos h]
  rfl

theorem rlpLenOfLen_short {data : Bytes} (h : rlpTag data ≤ 0xb7 ∨ 0xbf < rlpTag data)
    (h' : rlpTag data ≤ 0xf7) : rlpLenOfLen data = 0 := by
  rw [rlpLenOfLen, if_neg (by omega), if_neg (by omega)]

theorem rlpLenOfLen_list {data : Bytes} (h : 0xf7 < rlpTag data) :
    rlpLenOfLen data = rlpTag data - 0xf7 := by
  rw [rlpLenOfLen, if_neg (by omega), if_pos h]

theorem rlpAnnounced_list {data : Bytes} (h : 0xbf < rlpTag data) (h' : rlpTag data ≤ 0xf7) :
    rlpAnnounced data = 1 + (rlpTag data - 0xc0) := by
  rw [rlpAnnounced, if_neg (by omega), if_neg (by omega), if_pos ⟨h, h'⟩]

/-- In the long forms the length comes after the first byte. -/
theorem rlpAnnounced_long {data : Bytes}
    (h : 0xb7 < rlpTag data ∧ rlpTag data ≤ 0xbf ∨ 0xf7 < rlpTag data) :
    rlpAnnounced data =
      1 + rlpLenOfLen data + beValue ((data.drop 1).take (rlpLenOfLen data)) := by
  rw [rlpAnnounced, if_neg (by omega), if_neg (by omega), if_neg (by omega)]

theorem rlpAnnounced_long_bounds {data : Bytes} (hlen : rlpLenOfLen data ≤ 8)
    (h : 0xb7 < rlpTag data ∧ rlpTag data ≤ 0xbf ∨ 0xf7 < rlpTag data) :
    1 + rlpLenOfLen data ≤ rlpAnnounced data ∧
      rlpAnnounced data < 2 ^ 64 + (1 + rlpLenOfLen data) := by
  have hvalue := beValue_take_lt (data.drop 1) hlen
  rw [rlpAnnounced_long h]
  omega

theorem rlpTakeLong_header {data : Bytes} {raw : Bool} (hlen : rlpLenOfLen data ≤ 8)
    (h : 0xb7 < rlpTag data ∧ rlpTag data ≤ 0xbf ∨ 0xf7 < rlpTag data)
    (hheader : 1 + rlpLenOfLen data ≤ data.length) :
    rlpTakeLong data (rlpLenOfLen data) raw =
      rlpTake data (if raw then 0 else 1 + rlpLenOfLen data) (usize (rlpAnnounced data)) := by
  rw [rlpTakeLong_announced hlen hheader, rlpAnnounced_long h]

/-- The three ways in which a header announces an item, and how it is taken then. -/
inductive RlpItemForm (data : Bytes) : Prop
  | short (start : Nat) (hitem : rlpDecodeItem data = rlpTake data start (rlpAnnounced data))
      (hstart : start ≤ 1) (hpos : 1 ≤ rlpAnnounced data)
      (hsmall : rlpAnnounced data ≤ 56) (htag : rlpTag data ≤ 0xb7 ∨ 0xbf < rlpTag data)
      (htag' : rlpTag data ≤ 0xf7) (hlen : rlpLenOfLen data = 0)
  | string (hitem : rlpDecodeItem data = rlpTakeLong data (rlpLenOfLen data) false)
      (htag : 0xb7 < rlpTag data) (htag' : rlpTag data ≤ 0xbf) (hlen : rlpLenOfLen data ≤ 8)
  | list (hitem : rlpDecodeItem data = rlpTakeLong data (rlpLenOfLen data) true)
      (htag : 0xf7 < rlpTag data) (hlen : rlpLenOfLen data ≤ 8)

theorem rlpItemForm {data : Bytes} (hne : data ≠ []) : RlpItemForm data := by
  obtain ⟨first, rest, rfl⟩ := List.exists_cons_of_ne_nil hne
  have htag : rlpTag (first :: rest) = first.toNat := rfl
  have hlt := first.toNat_lt
  by_cases hsingle : first.toNat ≤ 0x7f
  · have hannounced : rlpAnnounced (first :: rest) = 1 := by rw [rlpAnnounced, htag, if_pos hsingle]
    have hlen := @rlpLenOfLen_short (first :: rest) (by omega) (by omega)
    have hitem : rlpDecodeItem (first :: rest) = rlpTake (first :: rest) 0 1 := if_pos hsingle
    rw [← hannounced] at hitem
    exact .short 0 hitem (by omega) (by omega) (by omega) (by omega) (by omega) hlen
  by_cases hstring : first.toNat ≤ 0xb7
  · have hannounced : rlpAnnounced (first :: rest) = 1 + (first.toNat - 0x80) := by
      rw [rlpAnnounced, htag, if_neg hsingle, if_pos hstring]
    have hlen := @rlpLenOfLen_short (first :: rest) (by omega) (by omega)
    have hitem : rlpDecodeItem (first :: rest) =
        rlpTake (first :: rest) 1 (1 + (first.toNat - 0x80)) := by
      simp only [rlpDecodeItem, if_neg hsingle, if_pos hstring]
    rw [← hannounced] at hitem
    exact .short 1 hitem (by omega) (by omega) (by omega) (by omega) (by omega) hlen
  by_cases hlong : first.toNat ≤ 0xbf
  · have hlen : rlpLenOfLen (first :: rest) = first.toNat - 0xb7 := by
      rw [rlpLenOfLen, htag, if_pos (by omega)]
    have hitem : rlpDecodeItem (first :: rest) =
        rlpTakeLong (first :: rest) (first.toNat - 0xb7) false := by
      simp only [rlpDecodeItem, if_neg hsingle, if_neg hstring, if_pos hlong]
    rw [← hlen] at hitem
    exact .string hitem (by omega) (by omega) (by omega)
  by_cases hlist : first.toNat ≤ 0xf7
  · have hannounced := @rlpAnnounced_list (first :: rest) (by omega) (by omega)
    have hlen := @rlpLenOfLen_short (first :: rest) (by omega) (by omega)
    have hitem : rlpDecodeItem (first :: rest) =
        rlpTake (first :: rest) 0 (1 + (rlpTag (first :: rest) - 0xc0)) := by
      rw [htag]
      simp only [rlpDecodeItem, if_neg hsingle, if_neg hstring, if_neg hlong, if_pos hlist]
    rw [← hannounced] at hitem
    exact .short 0 hitem (by omega) (by omega) (by omega) (by omega) (by omega) hlen
  · have hlen := @rlpLenOfLen_list (first :: rest) (by omega)
    have hitem : rlpDecodeItem (first :: rest) =
        rlpTakeLong (first :: rest) (rlpTag (first :: rest) - 0xf7) true := by
      rw [htag]
      simp only [rlpDecodeItem, if_neg hsingle, if_neg hstring, if_neg hlong, if_neg hlist]
    rw [← hlen] at hitem
    exact .list hitem (by omega) (by omega)

/-- Cut off before its length, an item is none; else it is taken from some place on, which for a
string lies behind the announced end exactly when the length wraps. -/
theorem rlpDecodeItem_cases {data : Bytes} (hne : data ≠ []) :
    (data.length < 1 + rlpLenOfLen data ∧ rlpDecodeItem data = .ok none) ∨
    (1 + rlpLenOfLen data ≤ data.length ∧ ∃ start, start ≤ 1 + rlpLenOfLen data ∧
      rlpDecodeItem data = rlpTake data start (usize (rlpAnnounced data)) ∧
      (RlpItemFits data ↔
        start ≤ usize (rlpAnnounced data) ∧ 1 ≤ usize (rlpAnnounced data))) := by
  cases rlpItemForm hne with
  | short start hitem hstart hpos hsmall htag htag' hlen =>
    have hroom : 1 ≤ data.length := List.length_pos_iff.mpr hne
    have husize : usize (rlpAnnounced data) = rlpAnnounced data := usize_of_lt (by omega)
    refine Or.inr ⟨by omega, start, by omega, by rw [husize, hitem], ?_⟩
    rw [husize]
    exact iff_of_true ⟨fun _ _ _ => by omega, fun _ _ => by omega⟩ ⟨hstart.trans hpos, hpos⟩
  | string hitem htag htag' hlen =>
    rcases Nat.lt_or_ge data.length (1 + rlpLenOfLen data) with hcut | hheader
    · exact Or.inl ⟨hcut, hitem.trans (rlpTakeLong_cut hcut)⟩
    · have hlong : 0xb7 < rlpTag data ∧ rlpTag data ≤ 0xbf ∨ 0xf7 < rlpTag data :=
        Or.inl ⟨htag, htag'⟩
      have hbounds := rlpAnnounced_long_bounds hlen hlong
      refine Or.inr ⟨hheader, 1 + rlpLenOfLen data, le_rfl, ?_, ?_⟩
      · exact hitem.trans (rlpTakeLong_header hlen hlong hheader)
      · constructor
        · intro hfits
          have hsmall := hfits.string htag htag' hheader
          rw [usize_of_lt hsmall]
          omega
        · intro hstart
          refine ⟨fun _ _ _ => ?_, fun hlist _ => by omega⟩
          unfold usize at hstart
          omega
  | list hitem htag hlen =>
    rcases Nat.lt_or_ge data.length (1 + rlpLenOfLen data) with hcut | hheader
    · exact Or.inl ⟨hcut, hitem.trans (rlpTakeLong_cut hcut)⟩
    · have hbounds := rlpAnnounced_long_bounds hlen (Or.inr htag)
      refine Or.inr ⟨hheader, 0, Nat.zero_le _, ?_, ?_⟩
      · exact hitem.trans (rlpTakeLong_header hlen (Or.inr htag) hheader)
      · constructor
        · intro hfits
          have hwrap := hfits.list htag hheader
          unfold usize
          omega
        · intro hpos
          refine ⟨fun _ hstring _ => by omega, fun _ _ hwrap => ?_⟩
          rw [hwrap] at hpos
          exact absurd hpos.2 (by decide)

theorem rlpItemReads_iff {data : Bytes} (hne : data ≠ []) :
    RlpItemReads data ↔ RlpItemFits data := by
  rcases rlpDecodeItem_cases hne with ⟨hcut, hnone⟩ | ⟨hheader, start, hstart, htake, hfits⟩
  · refine iff_of_true ⟨none, hnone, fun _ _ h => nomatch h⟩ ?_
    exact ⟨fun _ _ hheader => by omega, fun _ hheader => by omega⟩
  · rw [hfits]
    rcases rlpTake_cases data start (usize (rlpAnnounced data)) with
      ⟨hshort, hnone⟩ | ⟨hroom, hle, hsome⟩ | ⟨hroom, hinverted, message, hpanic⟩
    · exact iff_of_true ⟨none, htake.trans hnone, fun _ _ h => nomatch h⟩ (by omega)
    · constructor
      · intro h
        obtain ⟨result, hresult, hconsumed⟩ := h
        rw [htake, hsome] at hresult
        exact ⟨hle, (hconsumed _ _ (Except.ok.inj hresult).symm).1⟩
      · intro h
        refine ⟨_, htake.trans hsome, fun item consumed hpair => ?_⟩
        obtain ⟨_, rfl⟩ := Prod.mk.inj (Option.some.inj hpair)
        exact ⟨h.2, hroom⟩
    · refine iff_of_false (fun h => ?_) (by omega)
      obtain ⟨result, hresult, _⟩ := h
      rw [htake, hpanic] at hresult
      cases hresult

/-- An item that is read takes what its header announces, reduced to 64 bits. -/
theorem rlpDecodeItem_consumed {data item : Bytes} {consumed : Nat}
    (h : rlpDecodeItem data = .ok (some (item, consumed))) :
    data ≠ [] ∧ 1 + rlpLenOfLen data ≤ data.length ∧ consumed = usize (rlpAnnounced data) ∧
      consumed ≤ data.length := by
  have hne : data ≠ [] := by
    rintro rfl
    cases h
  rcases rlpDecodeItem_cases hne with ⟨_, hnone⟩ | ⟨hheader, start, _, htake, _⟩
  · rw [hnone] at h
    cases h
  · refine ⟨hne, hheader, ?_, (rlpDecodeItem_some h).1⟩
    rw [htake] at h
    unfold rlpTake at h
    split at h
    next => cases h
    next =>
      obtain ⟨value, _, hpair⟩ := bind_ok.mp h
      cases hpair
      rfl

theorem rlpDecodeItem_next {data : Bytes} (hne : data ≠ []) (hfits : RlpItemFits data)
    (hheader : 1 + rlpLenOfLen data ≤ data.length)
    (hroom : usize (rlpAnnounced data) ≤ data.length) :
    ∃ item, rlpDecodeItem data = .ok (some (item, usize (rlpAnnounced data))) := by
  rcases rlpDecodeItem_cases hne with ⟨hcut, _⟩ | ⟨_, start, _, htake, hiff⟩
  · omega
  · obtain ⟨hstart, _⟩ := hiff.mp hfits
    refine ⟨(data.drop start).take (usize (rlpAnnounced data) - start), ?_⟩
    rw [htake, rlpTake, if_neg (Nat.not_lt.mpr hroom), slice_ok.mpr ⟨hstart, hroom, rfl⟩]
    rfl

end Reading

section Loop

variable {payload : Bytes}

/-- Where all headers fit, every iteration is at an announced place and has used up a byte. -/
theorem RlpLoop.place (hfits : ∀ rest, RlpItemAt payload rest → RlpItemFits rest) {n : Nat}
    {rest : Bytes} (h : RlpLoop payload n rest) :
    RlpItemAt payload rest ∧ n + rest.length ≤ payload.length := by
  induction h with
  | start => exact ⟨.start, by omega⟩
  | @next n consumed rest item _ hread ih =>
    obtain ⟨hplace, hlen⟩ := ih
    obtain ⟨hne, hheader, rfl, hroom⟩ := rlpDecodeItem_consumed hread
    obtain ⟨result, hresult, hconsumed⟩ := (rlpItemReads_iff hne).mpr (hfits rest hplace)
    rw [hread] at hresult
    have hpos := (hconsumed _ _ (Except.ok.inj hresult).symm).1
    refine ⟨hplace.next hne hheader hroom, ?_⟩
    rw [List.length_drop]
    omega

/-- Where every item that the loop comes to is read, it comes to every announced place. -/
theorem RlpItemAt.exists_loop
    (hreads : ∀ n rest, RlpLoop payload n rest → rest ≠ [] → RlpItemReads rest) {rest : Bytes}
    (h : RlpItemAt payload rest) : ∃ n, RlpLoop payload n rest := by
  induction h with
  | start => exact ⟨0, .start⟩
  | @next rest _ hne hheader hroom ih =>
    obtain ⟨n, hloop⟩ := ih
    have hfits := (rlpItemReads_iff hne).mp (hreads n rest hloop hne)
    obtain ⟨item, hread⟩ := rlpDecodeItem_next hne hfits hheader hroom
    exact ⟨n + 1, hloop.next hread⟩

theorem rlpDecodeItems_returns
    (hreads : ∀ n rest, RlpLoop payload n rest → rest ≠ [] → RlpItemReads rest) {fuel n : Nat}
    {rest : Bytes} (h : RlpLoop payload n rest) (hfuel : rest.length ≤ fuel) :
    ∃ result, rlpDecodeItems fuel rest = .ok result := by
  induction fuel generalizing n rest with
  | zero =>
    rw [List.length_eq_zero_iff.mp (Nat.le_zero.mp hfuel)]
    exact ⟨_, rfl⟩
  | succ fuel ih =>
    cases rest with
    | nil => exact ⟨_, rfl⟩
    | cons first rest =>
      obtain ⟨result, hread, hconsumed⟩ := hreads n _ h (List.cons_ne_nil first rest)
      rw [rlpDecodeItems, hread, ok_bind]
      cases result with
      | none => exact ⟨_, rfl⟩
      | some pair =>
        obtain ⟨item, consumed⟩ := pair
        obtain ⟨hpos, hroom⟩ := hconsumed item consumed rfl
        have hshort : ((first :: rest).drop consumed).length ≤ fuel := by
          rw [List.length_drop]
          omega
        obtain ⟨more, hmore⟩ := ih (h.next hread) hshort
        simp only [if_neg (Nat.ne_of_gt hpos), hmore, ok_bind]
        cases more with
        | none => exact ⟨_, rfl⟩
        | some items => exact ⟨_, rfl⟩

end Loop

section Header

/-- The payload of a list is taken from behind its header on; the end lies before that exactly when
the length wraps. -/
theorem rlpListPayload_cases (data : Bytes) :
    ((rlpTag data < 0xc0 ∨ data.length < 1 + rlpLenOfLen data) ∧
      rlpListPayload data = .ok none) ∨
    (0xc0 ≤ rlpTag data ∧ 1 + rlpLenOfLen data ≤ data.length ∧
      rlpListPayload data = rlpTake data (1 + rlpLenOfLen data) (usize (rlpAnnounced data)) ∧
      ((0xf7 < rlpTag data → rlpAnnounced data < 2 ^ 64) ↔
        1 + rlpLenOfLen data ≤ usize (rlpAnnounced data))) := by
  cases data with
  | nil => exact Or.inl ⟨Or.inl (by decide), rfl⟩
  | cons first rest =>
    have htag : rlpTag (first :: rest) = first.toNat := rfl
    have hlt := first.toNat_lt
    have hroom : 1 ≤ (first :: rest).length := by simp
    by_cases hlow : first.toNat < 0xc0
    · exact Or.inl ⟨Or.inl hlow, if_pos hlow⟩
    by_cases hshort : first.toNat ≤ 0xf7
    · have hannounced := @rlpAnnounced_list (first :: rest) (by omega) (by omega)
      have hlen := @rlpLenOfLen_short (first :: rest) (by omega) (by omega)
      have hpayload : rlpListPayload (first :: rest) =
          rlpTake (first :: rest) 1 (1 + (first.toNat - 0xc0)) := by
        simp only [rlpListPayload, if_neg hlow, if_pos hshort]
      have husize : usize (1 + (first.toNat - 0xc0)) = 1 + (first.toNat - 0xc0) :=
        usize_of_lt (by omega)
      rw [hannounced, hlen, htag, husize]
      exact Or.inr ⟨by omega, by omega, hpayload, by omega⟩
    · have hlist : 0xf7 < rlpTag (first :: rest) := by omega
      have hlen := rlpLenOfLen_list hlist
      have hpayload : rlpListPayload (first :: rest) =
          rlpTakeLong (first :: rest) (rlpTag (first :: rest) - 0xf7) false := by
        rw [htag]
        simp only [rlpListPayload, if_neg hlow, if_neg hshort]
      rw [← hlen] at hpayload
      have hbounds := rlpAnnounced_long_bounds (by omega) (Or.inr hlist)
      rcases Nat.lt_or_ge (first :: rest).length (1 + rlpLenOfLen (first :: rest)) with
        hcut | hheader
      · exact Or.inl ⟨Or.inr hcut, hpayload.trans (rlpTakeLong_cut hcut)⟩
      · refine Or.inr ⟨by omega, hheader, ?_, ?_⟩
        · exact hpayload.trans (rlpTakeLong_header (by omega) (Or.inr hlist) hheader)
        · constructor
          · intro hsmall
            rw [usize_of_lt (hsmall hlist)]
            omega
          · intro hle _
            unfold usize at hle
            omega

theorem rlpAnnounced_lt {data : Bytes}
    (hheader : 0xf7 < rlpTag data → 1 + rlpLenOfLen data ≤ data.length →
      rlpAnnounced data < 2 ^ 64) (htag : 0xc0 ≤ rlpTag data)
    (hroom : 1 + rlpLenOfLen data ≤ data.length) : rlpAnnounced data < 2 ^ 64 := by
  rcases Nat.lt_or_ge 0xf7 (rlpTag data) with hlist | hshort
  · exact hheader hlist hroom
  · rw [rlpAnnounced_list (by omega) hshort]
    omega

theorem le_rlpAnnounced {data : Bytes} (htag : 0xc0 ≤ rlpTag data) :
    1 + rlpLenOfLen data ≤ rlpAnnounced data := by
  rcases Nat.lt_or_ge 0xf7 (rlpTag data) with hlist | hshort
  · rw [rlpAnnounced_long (Or.inr hlist)]
    omega
  · rw [rlpLenOfLen_short (by omega) hshort, rlpAnnounced_list (by omega) hshort]
    omega

theorem rlpListPayload_iff {data payload : Bytes} {stop : Nat}
    (hheader : 0xf7 < rlpTag data → 1 + rlpLenOfLen data ≤ data.length →
      rlpAnnounced data < 2 ^ 64) :
    rlpListPayload data = .ok (some (payload, stop)) ↔ 0xc0 ≤ rlpTag data ∧
      rlpAnnounced data ≤ data.length ∧ payload = rlpPayload data ∧ stop = rlpAnnounced data := by
  rcases rlpListPayload_cases data with ⟨hnot, hnone⟩ | ⟨htag, hroom, htake, _⟩
  · refine iff_of_false (fun h => ?_) (fun h => ?_)
    · rw [hnone] at h
      cases h
    · have hle := le_rlpAnnounced h.1
      omega
  · rw [htake, usize_of_lt (rlpAnnounced_lt hheader htag hroom)]
    have hle := le_rlpAnnounced htag
    rcases rlpTake_cases data (1 + rlpLenOfLen data) (rlpAnnounced data) with
      ⟨hshort, hnone⟩ | ⟨hfull, _, hsome⟩ | ⟨_, hinverted, _⟩
    · rw [hnone]
      refine iff_of_false (fun h => ?_) (by omega)
      cases h
    · rw [hsome]
      constructor
      · intro h
        cases h
        exact ⟨htag, hfull, rfl, rfl⟩
      · rintro ⟨_, _, rfl, rfl⟩
        rfl
    · omega

theorem rlpListPayload_returns {data : Bytes}
    (hheader : 0xf7 < rlpTag data → 1 + rlpLenOfLen data ≤ data.length →
      rlpAnnounced data < 2 ^ 64) : ∃ result, rlpListPayload data = .ok result := by
  rcases rlpListPayload_cases data with ⟨_, hnone⟩ | ⟨htag, hroom, htake, _⟩
  · exact ⟨none, hnone⟩
  · rw [htake, usize_of_lt (rlpAnnounced_lt hheader htag hroom)]
    have hle := le_rlpAnnounced htag
    rcases rlpTake_cases data (1 + rlpLenOfLen data) (rlpAnnounced data) with
      ⟨_, hnone⟩ | ⟨_, _, hsome⟩ | ⟨_, hinverted, _⟩
    · exact ⟨none, hnone⟩
    · exact ⟨_, hsome⟩
    · omega

/-- A list whose length wraps is cut at a place inside its header. -/
theorem rlpListPayload_wraps {data : Bytes} (htag : 0xf7 < rlpTag data)
    (hroom : 1 + rlpLenOfLen data ≤ data.length) (hwrap : 2 ^ 64 ≤ rlpAnnounced data) :
    ∃ message, rlpListPayload data = .error message := by
  rcases rlpListPayload_cases data with ⟨hnot, _⟩ | ⟨_, _, htake, hiff⟩
  · omega
  · have hinside : ¬1 + rlpLenOfLen data ≤ usize (rlpAnnounced data) :=
      fun h => absurd (hiff.mpr h htag) (by omega)
    rcases rlpTake_cases data (1 + rlpLenOfLen data) (usize (rlpAnnounced data)) with
      ⟨hshort, _⟩ | ⟨_, hle, _⟩ | ⟨_, _, message, hpanic⟩
    · omega
    · exact absurd hle hinside
    · exact ⟨message, htake.trans hpanic⟩

theorem rlpItemFits_nil : RlpItemFits [] :=
  ⟨fun htag => absurd htag (by decide), fun htag => absurd htag (by decide)⟩

theorem RlpFits.reads {data payload : Bytes} {stop : Nat} (h : RlpFits data)
    (hpayload : rlpListPayload data = .ok (some (payload, stop))) {n : Nat} {rest : Bytes}
    (hloop : RlpLoop payload n rest) :
    n ≤ payload.length ∧ (rest ≠ [] → RlpItemReads rest) := by
  obtain ⟨htag, hroom, rfl, _⟩ := (rlpListPayload_iff h.header).mp hpayload
  have hfits := h.items htag hroom
  obtain ⟨hplace, hlen⟩ := hloop.place hfits
  exact ⟨by omega, fun hne => (rlpItemReads_iff hne).mpr (hfits rest hplace)⟩

end Header

/-- Decoding returns and ends exactly when no length that the headers announce wraps around. -/
theorem rlpDecodeList_safe_iff (data : Bytes) : DecodesSafely data ↔ RlpFits data := by
  constructor
  · intro h
    have hheader : 0xf7 < rlpTag data → 1 + rlpLenOfLen data ≤ data.length →
        rlpAnnounced data < 2 ^ 64 := by
      intro htag hroom
      by_contra hwrap
      obtain ⟨message, hpanic⟩ := rlpListPayload_wraps htag hroom (Nat.le_of_not_lt hwrap)
      obtain ⟨result, hresult⟩ := h.returns
      rw [rlpDecodeList, hpanic, error_bind] at hresult
      cases hresult
    refine ⟨hheader, fun htag hroom rest hplace => ?_⟩
    have hloop := h.loop _ _ ((rlpListPayload_iff hheader).mpr ⟨htag, hroom, rfl, rfl⟩)
    have hreads : ∀ n rest, RlpLoop (rlpPayload data) n rest → rest ≠ [] → RlpItemReads rest :=
      fun n rest hrun => (hloop n rest hrun).2
    by_cases hne : rest = []
    · rw [hne]
      exact rlpItemFits_nil
    · obtain ⟨n, hrun⟩ := hplace.exists_loop hreads
      exact (rlpItemReads_iff hne).mp (hreads n rest hrun hne)
  · intro h
    refine ⟨?_, fun payload stop hpayload n rest hloop => h.reads hpayload hloop⟩
    obtain ⟨result, hpayload⟩ := rlpListPayload_returns h.header
    rw [rlpDecodeList, hpayload, ok_bind]
    cases result with
    | none => exact ⟨none, rfl⟩
    | some pair =>
      exact rlpDecodeItems_returns (fun n rest hloop => (h.reads hpayload hloop).2) .start le_rfl

section Sample

/-- Nine bytes of a long string that announces `2 ^ 64 - 1` bytes more, in a list. -/
def wrappingString : Bytes := [0xc9, 0xbf, 0xff, 0xff, 0xff, 0xff, 0xff, 0xff, 0xff, 0xff]

/-- A list that announces `2 ^ 64` bytes together with its header, in a list. -/
def endlessList : Bytes := [0xc9, 0xff, 0xff, 0xff, 0xff, 0xff, 0xff, 0xff, 0xff, 0xf7]

theorem wrapping_lengths :
    rlpDecodeList wrappingString =
        .error (.panic "slice index starts at 9 but ends at 8") ∧
      rlpDecodeItem (endlessList.drop 1) = .ok (some ([], 0)) ∧
      ¬DecodesSafely wrappingString ∧ ¬DecodesSafely endlessList := by
  have hpanic : rlpDecodeList wrappingString =
      .error (.panic "slice index starts at 9 but ends at 8") := by decide +kernel
  have hendless : rlpDecodeItem (endlessList.drop 1) = .ok (some ([], 0)) := by decide +kernel
  have hloops : rlpDecodeList endlessList = .error (.panic "memory allocation failed") := by
    decide +kernel
  refine ⟨hpanic, hendless, fun h => ?_, fun h => ?_⟩
  · obtain ⟨result, hresult⟩ := h.returns
    rw [hpanic] at hresult
    cases hresult
  · obtain ⟨result, hresult⟩ := h.returns
    rw [hloops] at hresult
    cases hresult

end Sample

end ObscuraNetwork
