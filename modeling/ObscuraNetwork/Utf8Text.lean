import ObscuraNetwork.Outcome

namespace ObscuraNetwork

/-- The length of a text in bytes of UTF-8. -/
def utf8Len : List Char → Nat
  | [] => 0
  | c :: cs => c.utf8Size + utf8Len cs

/-- `&s[n..]`: a byte offset must fall between two characters. -/
def sliceFrom : List Char → Nat → Outcome (List Char)
  | cs, 0 => pure cs
  | [], _ + 1 => .error (.panic "byte index is out of bounds")
  | c :: cs, n + 1 =>
    if c.utf8Size ≤ n + 1 then sliceFrom cs (n + 1 - c.utf8Size)
    else .error (.panic "byte index is not a char boundary")

/-- `&s[..n]`. -/
def sliceTo : List Char → Nat → Outcome (List Char)
  | _, 0 => pure []
  | [], _ + 1 => .error (.panic "byte index is out of bounds")
  | c :: cs, n + 1 =>
    if c.utf8Size ≤ n + 1 then do
      let rest ← sliceTo cs (n + 1 - c.utf8Size)
      pure (c :: rest)
    else .error (.panic "byte index is not a char boundary")

/-- `s.find(pattern)`: the byte offset of the first occurrence. -/
def findText (pattern : List Char) : List Char → Option Nat
  | [] => if pattern = [] then some 0 else none
  | c :: cs =>
    if pattern <+: c :: cs then some 0 else (findText pattern cs).map fun n => c.utf8Size + n

section Utf8Text

theorem utf8Len_append (xs ys : List Char) : utf8Len (xs ++ ys) = utf8Len xs + utf8Len ys := by
  induction xs with
  | nil => simp [utf8Len]
  | cons c xs ih => rw [List.cons_append, utf8Len, ih, utf8Len, Nat.add_assoc]

theorem length_le_utf8Len (cs : List Char) : cs.length ≤ utf8Len cs := by
  induction cs with
  | nil => exact Nat.le_refl 0
  | cons c cs ih =>
    have hc := c.utf8Size_pos
    rw [List.length_cons, utf8Len]
    omega

/-- Positions between characters are the ones a slice can start from. -/
theorem sliceFrom_append (xs ys : List Char) : sliceFrom (xs ++ ys) (utf8Len xs) = .ok ys := by
  induction xs with
  | nil => cases ys <;> rfl
  | cons c xs ih =>
    have hc := c.utf8Size_pos
    obtain ⟨n, hn⟩ : ∃ n, utf8Len (c :: xs) = n + 1 := ⟨utf8Len (c :: xs) - 1, by
      rw [utf8Len]
      omega⟩
    have hrest : n + 1 - c.utf8Size = utf8Len xs := by
      rw [← hn, utf8Len]
      omega
    have hfits : c.utf8Size ≤ n + 1 := by
      rw [← hn, utf8Len]
      omega
    rw [List.cons_append, hn, sliceFrom, if_pos hfits, hrest, ih]

/-- A slice ends between two characters, and only there. -/
theorem sliceTo_ok {cs head : List Char} {n : Nat} :
    sliceTo cs n = .ok head ↔ utf8Len head = n ∧ head <+: cs := by
  induction cs generalizing n head with
  | nil =>
    cases n with
    | zero =>
      rw [sliceTo, pure_ok, List.prefix_nil]
      constructor
      · rintro rfl
        exact ⟨rfl, rfl⟩
      · rintro ⟨_, rfl⟩
        rfl
    | succ n =>
      rw [sliceTo, List.prefix_nil]
      refine ⟨fun h => by simp at h, ?_⟩
      rintro ⟨hlen, rfl⟩
      simp [utf8Len] at hlen
  | cons c cs ih =>
    have hc := c.utf8Size_pos
    cases n with
    | zero =>
      rw [sliceTo, pure_ok]
      constructor
      · rintro rfl
        exact ⟨rfl, List.nil_prefix⟩
      · rintro ⟨hlen, _⟩
        have hle := length_le_utf8Len head
        exact (List.length_eq_zero_iff.mp (by omega)).symm
    | succ n =>
      cases head with
      | nil =>
        refine ⟨fun h => ?_, fun h => absurd h.1 (Nat.succ_ne_zero n).symm⟩
        rw [sliceTo] at h
        split at h
        next =>
          obtain ⟨rest, _, hrest⟩ := bind_ok.mp h
          simp at hrest
        next => simp at h
      | cons d head =>
        rw [sliceTo, List.cons_prefix_cons, utf8Len]
        split
        next hfits =>
          simp only [bind_ok, pure_ok, List.cons.injEq]
          constructor
          · rintro ⟨rest, hrest, rfl, rfl⟩
            obtain ⟨hlen, hprefix⟩ := ih.mp hrest
            exact ⟨by omega, rfl, hprefix⟩
          · rintro ⟨hlen, rfl, hprefix⟩
            exact ⟨head, ih.mpr ⟨by omega, hprefix⟩, rfl, rfl⟩
        next hlong =>
          refine ⟨fun h => by simp at h, ?_⟩
          rintro ⟨hlen, rfl, _⟩
          omega

theorem sliceTo_append (xs ys : List Char) : sliceTo (xs ++ ys) (utf8Len xs) = .ok xs :=
  sliceTo_ok.mpr ⟨rfl, List.prefix_append xs ys⟩

/-- What is found stands at the offset, and no occurrence starts before it. -/
theorem findText_some {pattern cs : List Char} {n : Nat} (h : findText pattern cs = some n) :
    ∃ before after, cs = before ++ pattern ++ after ∧ utf8Len before = n ∧
      ∀ before' after', cs = before' ++ pattern ++ after' → before.length ≤ before'.length := by
  induction cs generalizing n with
  | nil =>
    unfold findText at h
    split at h
    next hpattern =>
      cases h
      exact ⟨[], [], by rw [hpattern]; rfl, rfl, fun _ _ _ => Nat.zero_le _⟩
    next => simp at h
  | cons c cs ih =>
    unfold findText at h
    split at h
    next hprefix =>
      cases h
      obtain ⟨after, hafter⟩ := hprefix
      exact ⟨[], after, hafter.symm, rfl, fun _ _ _ => Nat.zero_le _⟩
    next hno =>
      obtain ⟨m, hm, rfl⟩ := Option.map_eq_some_iff.mp h
      obtain ⟨before, after, hcs, hlen, hfirst⟩ := ih hm
      refine ⟨c :: before, after, by rw [hcs]; rfl, by rw [utf8Len, hlen], ?_⟩
      intro before' after' hcs'
      cases before' with
      | nil => exact absurd ⟨after', hcs'.symm⟩ hno
      | cons d before' =>
        have htail : cs = before' ++ pattern ++ after' := (List.cons.inj hcs').2
        have hle := hfirst before' after' htail
        simp only [List.length_cons]
        omega

theorem findText_none {pattern cs : List Char} (h : findText pattern cs = none) :
    ¬pattern <:+: cs := by
  induction cs with
  | nil =>
    unfold findText at h
    split at h
    next => simp at h
    next hpattern => exact fun hin => hpattern (List.infix_nil.mp hin)
  | cons c cs ih =>
    unfold findText at h
    split at h
    next => simp at h
    next hno =>
      intro hin
      rcases List.infix_cons_iff.mp hin with hprefix | hrest
      · exact hno hprefix
      · exact ih (Option.map_eq_none_iff.mp h) hrest

/-- Two occurrences of a pattern whose first character is found nowhere else in it do not
overlap. -/
theorem occurrences_apart {a : Char} {rest before after before' after' : List Char}
    (ha : a ∉ rest) (h : before ++ a :: rest ++ after = before' ++ a :: rest ++ after')
    (hle : before.length ≤ before'.length) :
    before = before' ∧ after = after' ∨
      ∃ between, before' = before ++ a :: rest ++ between ∧
        after = between ++ a :: rest ++ after' := by
  rw [List.append_assoc, List.append_assoc] at h
  rcases List.append_eq_append_iff.mp h with ⟨gap, hbefore, hgap⟩ | ⟨gap, hbefore, hgap⟩
  · cases gap with
    | nil =>
      rw [List.append_nil] at hbefore
      have hafter :=
        List.append_cancel_left (show a :: rest ++ after = a :: rest ++ after' from hgap)
      exact Or.inl ⟨hbefore.symm, hafter⟩
    | cons b gap =>
      right
      have htail : rest ++ after = gap ++ (a :: rest ++ after') := (List.cons.inj hgap).2
      have hb : a = b := (List.cons.inj hgap).1
      rcases List.append_eq_append_iff.mp htail with ⟨between, hgap', hafter⟩ | ⟨extra, hrest, hin⟩
      · refine ⟨between, ?_, ?_⟩
        · rw [hbefore, hgap', hb]
          simp
        · rw [hafter]
          simp
      · cases extra with
        | nil =>
          rw [List.append_nil] at hrest
          refine ⟨[], ?_, ?_⟩
          · rw [hbefore, hrest, hb]
            simp
          · exact hin.symm
        | cons d extra =>
          have hd : a = d := (List.cons.inj hin).1
          exact absurd (hrest ▸ hd ▸ List.mem_append_right gap List.mem_cons_self) ha
  · have hlen := congrArg List.length hbefore
    rw [List.length_append] at hlen
    obtain rfl : gap = [] := List.length_eq_zero_iff.mp (by omega)
    rw [List.append_nil] at hbefore
    have hafter := List.append_cancel_left (show a :: rest ++ after' = a :: rest ++ after from hgap)
    exact Or.inl ⟨hbefore, hafter.symm⟩

end Utf8Text

end ObscuraNetwork
