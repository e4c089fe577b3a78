import ObscuraNetwork.BridgeTypes
import ObscuraNetwork.Utf8Text

namespace ObscuraNetwork

namespace SanctionsOracle

def featureMarker : String := "FeatureTypeID=\"345\""

/-- The address in the window behind a marker: the content of its first `VersionDetail` element. -/
def versionDetail (window : List Char) : Outcome (Option String) :=
  match findText "<VersionDetail".toList window with
  | none => pure none
  | some start => do
    let afterOpen ← sliceFrom window start
    match findText ['>'] afterOpen with
    | none => pure none
    | some contentStart => do
      let content ← sliceFrom afterOpen (contentStart + 1)
      match findText "</VersionDetail>".toList content with
      | none => pure none
      | some stop => do
        let text ← sliceTo content stop
        let addr := trimChars text
        if ['0', 'x'] <+: addr ∨ ['0', 'X'] <+: addr then pure (some (String.ofList addr))
        else pure none

/-- The loop over the markers. The text left gets shorter each time, so its length is fuel enough;
without fuel there is no result. -/
def scanLoop : Nat → List Char → List String → Outcome (List String)
  | 0, _, _ => .error (.panic "no fuel")
  | fuel + 1, search, addresses =>
    match findText featureMarker.toList search with
    | none => pure addresses
    | some pos => do
      let search ← sliceFrom search (pos + 19)
      let window ← sliceTo search (min (utf8Len search) 500)
      let found ← versionDetail window
      scanLoop fuel search (addresses ++ found.toList)

def extractEthAddressesFromXml (xml : String) : Outcome (List String) :=
  scanLoop (xml.toList.length + 1) xml.toList []

/-- The window behind a marker ends with the text or between two characters. -/
def WindowFits (after : List Char) : Prop :=
  utf8Len after ≤ 500 ∨ ∃ window, window <+: after ∧ utf8Len window = 500

section SdnScanner

theorem featureMarker_toList :
    featureMarker.toList = 'F' :: "eatureTypeID=\"345\"".toList := by
  decide +kernel

/-- No slice inside a window fails: each starts or ends at something found there. -/
theorem versionDetail_ok (window : List Char) : ∃ found, versionDetail window = .ok found := by
  unfold versionDetail
  split
  next => exact ⟨none, rfl⟩
  next start hstart =>
    obtain ⟨before, after, rfl, rfl, _⟩ := findText_some hstart
    rw [List.append_assoc, sliceFrom_append, ok_bind]
    split
    next => exact ⟨none, rfl⟩
    next contentStart hcontentStart =>
      obtain ⟨head, content, hsplit, rfl, _⟩ := findText_some hcontentStart
      have hopen : utf8Len head + 1 = utf8Len (head ++ ['>']) := by
        rw [utf8Len_append]
        rfl
      rw [hsplit, hopen, sliceFrom_append, ok_bind]
      split
      next => exact ⟨none, rfl⟩
      next stop hstop =>
        obtain ⟨text, tail, hcontent, rfl, _⟩ := findText_some hstop
        rw [hcontent, List.append_assoc, sliceTo_append, ok_bind]
        dsimp only
        split
        · exact ⟨_, rfl⟩
        · exact ⟨_, rfl⟩

theorem window_ok_iff {after : List Char} :
    (∃ window, sliceTo after (min (utf8Len after) 500) = .ok window) ↔ WindowFits after := by
  by_cases hshort : utf8Len after ≤ 500
  · rw [Nat.min_eq_left hshort]
    exact ⟨fun _ => Or.inl hshort, fun _ => ⟨after, sliceTo_ok.mpr ⟨rfl, List.prefix_rfl⟩⟩⟩
  · rw [Nat.min_eq_right (by omega)]
    constructor
    · intro h
      obtain ⟨window, hwindow⟩ := h
      obtain ⟨hlen, hlead⟩ := sliceTo_ok.mp hwindow
      exact Or.inr ⟨window, hlead, hlen⟩
    · intro h
      obtain ⟨window, hlead, hlen⟩ := h.resolve_left hshort
      exact ⟨window, sliceTo_ok.mpr ⟨hlen, hlead⟩⟩

theorem sliceFrom_marker (before after : List Char) :
    sliceFrom (before ++ featureMarker.toList ++ after) (utf8Len before + 19) = .ok after := by
  have hbehind : utf8Len before + 19 = utf8Len (before ++ featureMarker.toList) := by
    rw [utf8Len_append]
    rfl
  rw [hbehind, sliceFrom_append]

/-- Where the first marker of a text stands, the others stand behind it. -/
theorem later_marker {before after before' after' : List Char}
    (hsplit : before ++ featureMarker.toList ++ after = before' ++ featureMarker.toList ++ after')
    (hleast : before.length ≤ before'.length) :
    after = after' ∨ ∃ between, after = between ++ featureMarker.toList ++ after' := by
  rw [featureMarker_toList] at hsplit ⊢
  rcases occurrences_apart (by decide +kernel) hsplit hleast with
    ⟨_, hafter⟩ | ⟨between, _, hafter⟩
  · exact Or.inl hafter
  · exact Or.inr ⟨between, hafter⟩

/-- One round: the window behind the first marker is cut out, then the loop goes on behind it. -/
theorem scanLoop_round {fuel : Nat} {before after : List Char} {addresses : List String} {P : Prop}
    (hfirst : findText featureMarker.toList (before ++ featureMarker.toList ++ after) =
      some (utf8Len before))
    (hrest : ∀ found, (∃ result, scanLoop fuel after found = .ok result) ↔ P) :
    (∃ result, scanLoop (fuel + 1) (before ++ featureMarker.toList ++ after) addresses =
      .ok result) ↔ WindowFits after ∧ P := by
  simp only [scanLoop, hfirst, sliceFrom_marker, ok_bind, bind_ok]
  constructor
  · intro h
    obtain ⟨result, window, hwindow, found, _, hresult⟩ := h
    exact ⟨window_ok_iff.mp ⟨window, hwindow⟩, (hrest _).mp ⟨result, hresult⟩⟩
  · intro h
    obtain ⟨hfits, hp⟩ := h
    obtain ⟨window, hwindow⟩ := window_ok_iff.mpr hfits
    obtain ⟨found, hfound⟩ := versionDetail_ok window
    obtain ⟨result, hresult⟩ := (hrest (addresses ++ found.toList)).mpr hp
    exact ⟨result, window, hwindow, found, hfound, hresult⟩

/-- The scanner gets to the end exactly when every window fits. -/
theorem scanLoop_ok_iff {fuel : Nat} {search : List Char} (hfuel : search.length < fuel)
    (addresses : List String) :
    (∃ result, scanLoop fuel search addresses = .ok result) ↔
      ∀ before after, search = before ++ featureMarker.toList ++ after → WindowFits after := by
  induction fuel generalizing search addresses with
  | zero => exact absurd hfuel (Nat.not_lt_zero _)
  | succ fuel ih =>
    cases hfind : findText featureMarker.toList search with
    | none =>
      have habsent := findText_none hfind
      constructor
      · intro _ before after hsearch
        exact absurd ⟨before, after, hsearch.symm⟩ habsent
      · intro _
        rw [scanLoop, hfind]
        exact ⟨addresses, rfl⟩
    | some pos =>
      obtain ⟨before, after, rfl, rfl, hleast⟩ := findText_some hfind
      have hshorter : after.length < fuel := by
        have hmarker : featureMarker.toList.length = 19 := rfl
        simp only [List.length_append] at hfuel
        omega
      rw [scanLoop_round hfind fun found => ih hshorter found]
      constructor
      · intro h before' after' hsplit
        obtain ⟨hfits, hlater⟩ := h
        rcases later_marker hsplit (hleast before' after' hsplit) with hafter | ⟨between, hafter⟩
        · exact hafter ▸ hfits
        · exact hlater between after' hafter
      · intro h
        refine ⟨h before after rfl, fun between after' hafter => ?_⟩
        exact h (before ++ featureMarker.toList ++ between) after' (by rw [hafter]; simp)

/-- The scanner returns exactly when no character straddles the end of the window behind a
marker; else it panics. -/
theorem extract_ok_iff (xml : String) :
    (∃ addresses, extractEthAddressesFromXml xml = .ok addresses) ↔
      ∀ before after, xml.toList = before ++ featureMarker.toList ++ after → WindowFits after :=
  scanLoop_ok_iff (Nat.lt_succ_self _) []

/-- A marker of the text is followed by a window with this address. -/
def ListedIn (search : List Char) (s : String) : Prop :=
  ∃ before after window, search = before ++ featureMarker.toList ++ after ∧
    sliceTo after (min (utf8Len after) 500) = .ok window ∧ versionDetail window = .ok (some s)

/-- What the scanner collects: the addresses behind all markers. -/
theorem mem_scanLoop {fuel : Nat} {search : List Char} {addresses result : List String}
    (h : scanLoop fuel search addresses = .ok result) (s : String) :
    s ∈ result ↔ s ∈ addresses ∨ ListedIn search s := by
  induction fuel generalizing search addresses with
  | zero => simp [scanLoop] at h
  | succ fuel ih =>
    cases hfind : findText featureMarker.toList search with
    | none =>
      have habsent := findText_none hfind
      rw [scanLoop, hfind, pure_ok] at h
      rw [← h]
      refine ⟨Or.inl, fun hs => hs.resolve_right ?_⟩
      rintro ⟨before, after, _, hsearch, _⟩
      exact habsent ⟨before, after, hsearch.symm⟩
    | some pos =>
      obtain ⟨before, after, rfl, rfl, hleast⟩ := findText_some hfind
      rw [scanLoop, hfind] at h
      simp only [sliceFrom_marker, ok_bind, bind_ok] at h
      obtain ⟨window, hwindow, found, hfound, hrest⟩ := h
      rw [ih hrest, List.mem_append, Option.mem_toList, or_assoc]
      apply or_congr_right
      constructor
      · intro hs
        rcases hs with hs | ⟨between, after', window', hafter, hlater⟩
        · exact ⟨before, after, window, rfl, hwindow, hfound.trans (congrArg Except.ok hs)⟩
        · exact ⟨before ++ featureMarker.toList ++ between, after', window',
            by rw [hafter]; simp, hlater⟩
      · rintro ⟨before', after', window', hsplit, hwindow', hdetail⟩
        rcases later_marker hsplit (hleast before' after' hsplit) with hafter | ⟨between, hafter⟩
        · rw [hafter] at hwindow
          cases Except.ok.inj (hwindow.symm.trans hwindow')
          exact Or.inl (Except.ok.inj (hfound.symm.trans hdetail))
        · exact Or.inr ⟨between, after', window', hafter, hwindow', hdetail⟩

theorem mem_extract {xml : String} {raw : List String}
    (h : extractEthAddressesFromXml xml = .ok raw) (s : String) :
    s ∈ raw ↔ ListedIn xml.toList s := by
  rw [mem_scanLoop h]
  exact or_iff_right List.not_mem_nil

/-- The text behind a marker: 499 letters, then one of two bytes. -/
def straddlingText : List Char := List.replicate 499 'a' ++ ['é']

def straddlingXml : String := String.ofList (featureMarker.toList ++ straddlingText)

theorem extract_stops {xml : String} {before after : List Char}
    (hxml : xml.toList = before ++ featureMarker.toList ++ after) (hcut : ¬WindowFits after) :
    ¬∃ addresses, extractEthAddressesFromXml xml = .ok addresses := by
  intro h
  exact hcut ((scanLoop_ok_iff (Nat.lt_succ_self _) []).mp h before after hxml)

theorem straddlingXml_panics :
    ¬∃ addresses, extractEthAddressesFromXml straddlingXml = .ok addresses := by
  have hxml : straddlingXml.toList = [] ++ featureMarker.toList ++ straddlingText := by
    rw [straddlingXml, String.toList_ofList, List.nil_append]
  have hlong : ¬utf8Len straddlingText ≤ 500 := by decide +kernel
  have hcut : ¬(sliceTo straddlingText 500).isOk = true := by decide +kernel
  refine extract_stops hxml ?_
  intro hfits
  obtain ⟨window, hlead, hlen⟩ := hfits.resolve_left hlong
  exact hcut (isOk_iff.mpr ⟨window, sliceTo_ok.mpr ⟨hlen, hlead⟩⟩)

end SdnScanner

end SanctionsOracle

end ObscuraNetwork
