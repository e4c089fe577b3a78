import Mathlib.Data.List.GetD
import Mathlib.Order.Compare
import Mathlib.Order.Lattice
import Mathlib.Tactic.Common

namespace ObscuraNetwork

section BinarySearch

variable {α : Type}

/-- The loop of the standard library's `binary_search_by`: halve the window until one entry is
left. Each round shortens the window, so its size is fuel enough. -/
def narrow (cmp : α → Ordering) (xs : List α) : Nat → Nat → Nat → Nat
  | 0, base, _ => base
  | fuel + 1, base, size =>
    if 1 < size then
      let half := size / 2
      let mid := base + half
      narrow cmp xs fuel (if (xs[mid]?.map cmp) = some .gt then base else mid) (size - half)
    else base

/-- `<[T]>::binary_search_by`: the index of a match, or the insertion point. -/
def binarySearchBy (cmp : α → Ordering) (xs : List α) : Except Nat Nat :=
  if xs.length = 0 then .error 0
  else
    let base := narrow cmp xs xs.length 0 xs.length
    match xs[base]?.map cmp with
    | some .eq => .ok base
    | some .lt => .error (base + 1)
    | _ => .error base

def partitionPoint (pred : α → Bool) (xs : List α) : Nat :=
  match binarySearchBy (fun x => if pred x then .lt else .gt) xs with
  | .ok i => i
  | .error i => i

/-- The order a comparison must find the entries in: less, then equal, then greater. -/
structure Partitioned (cmp : α → Ordering) (xs : List α) : Prop where
  lt_before : ∀ i j (hi : i < xs.length) (hj : j < xs.length), i ≤ j →
    cmp xs[j] = .lt → cmp xs[i] = .lt
  gt_after : ∀ i j (hi : i < xs.length) (hj : j < xs.length), i ≤ j →
    cmp xs[i] = .gt → cmp xs[j] = .gt

/-- The window invariant: everything behind the window is greater, and its first entry is not,
unless the window still starts at the front. -/
structure Window (cmp : α → Ordering) (xs : List α) (base size : Nat) : Prop where
  fits : base + size ≤ xs.length
  front : ∀ h : base < xs.length, base = 0 ∨ cmp xs[base] ≠ .gt
  behind : ∀ j (hj : j < xs.length), base + size ≤ j → cmp xs[j] = .gt

theorem narrow_window {cmp : α → Ordering} {xs : List α} (p : Partitioned cmp xs)
    (fuel base size : Nat) (hfuel : size ≤ fuel) (hsize : 0 < size) (w : Window cmp xs base size) :
    Window cmp xs (narrow cmp xs fuel base size) 1 := by
  induction fuel generalizing base size with
  | zero => omega
  | succ fuel ih =>
    rw [narrow]
    by_cases h1 : 1 < size
    · have hmid : base + size / 2 < xs.length := by have := w.fits; omega
      simp only [h1, if_true, List.getElem?_eq_getElem hmid, Option.map_some, Option.some.injEq]
      by_cases hgt : cmp xs[base + size / 2] = .gt
      · rw [if_pos hgt]
        refine ih _ _ (by omega) (by omega) ⟨by have := w.fits; omega, w.front, ?_⟩
        intro j hj hle
        exact p.gt_after _ _ hmid hj (by omega) hgt
      · rw [if_neg hgt]
        refine ih _ _ (by omega) (by omega) ⟨by have := w.fits; omega, fun _ => Or.inr hgt, ?_⟩
        intro j hj hle
        exact w.behind j hj (by omega)
    · have : size = 1 := by omega
      simpa [h1, this] using w

/-- What a search over partitioned entries returns: a match, or the boundary between the lesser
and the greater entries when there is none. -/
inductive SearchSpec (cmp : α → Ordering) (xs : List α) : Except Nat Nat → Prop
  | found {i} (h : i < xs.length) (eq : cmp xs[i] = .eq) : SearchSpec cmp xs (.ok i)
  | missing {i} (h : i ≤ xs.length)
      (below : ∀ j (hj : j < xs.length), j < i → cmp xs[j] = .lt)
      (above : ∀ j (hj : j < xs.length), i ≤ j → cmp xs[j] = .gt) : SearchSpec cmp xs (.error i)

theorem binarySearchBy_spec {cmp : α → Ordering} {xs : List α} (p : Partitioned cmp xs) :
    SearchSpec cmp xs (binarySearchBy cmp xs) := by
  unfold binarySearchBy
  by_cases h0 : xs.length = 0
  · rw [if_pos h0]
    exact .missing (by omega) (fun j hj => by omega) (fun j hj => by omega)
  rw [if_neg h0]
  have w := narrow_window p xs.length 0 xs.length (Nat.le_refl _) (by omega)
    ⟨by omega, fun _ => Or.inl rfl, fun j hj hle => by omega⟩
  generalize narrow cmp xs xs.length 0 xs.length = base at w
  have hb : base < xs.length := by have := w.fits; omega
  simp only [List.getElem?_eq_getElem hb, Option.map_some]
  cases hc : cmp xs[base] with
  | eq => exact .found hb hc
  | lt =>
    refine .missing hb (fun j hj hlt => ?_) fun j hj hle => w.behind j hj hle
    exact p.lt_before j base hj hb (by omega) hc
  | gt =>
    have hz : base = 0 := (w.front hb).resolve_right (by simp [hc])
    subst hz
    refine .missing (Nat.le_of_lt hb) (fun j hj hlt => by omega) fun j hj _ => ?_
    exact p.gt_after 0 j hb hj (by omega) hc

section Sorted

variable [LinearOrder α]

theorem pairwise_le_getElem {xs : List α} (sorted : xs.Pairwise (· ≤ ·)) {i j : Nat}
    (hi : i < xs.length) (hj : j < xs.length) (hle : i ≤ j) : xs[i] ≤ xs[j] := by
  rcases Nat.lt_or_eq_of_le hle with hlt | rfl
  · exact List.pairwise_iff_getElem.mp sorted i j hi hj hlt
  · exact le_refl _

theorem partitioned_compare {xs : List α} (sorted : xs.Pairwise (· ≤ ·)) (a : α) :
    Partitioned (fun x => compare x a) xs where
  lt_before i j hi hj hle h := by
    have hxy := pairwise_le_getElem sorted hi hj hle
    exact compare_lt_iff_lt.mpr (lt_of_le_of_lt hxy (compare_lt_iff_lt.mp h))
  gt_after i j hi hj hle h := by
    have hxy := pairwise_le_getElem sorted hi hj hle
    exact compare_gt_iff_gt.mpr (lt_of_lt_of_le (compare_gt_iff_gt.mp h) hxy)

theorem partitioned_lt {xs : List α} (sorted : xs.Pairwise (· ≤ ·)) (a : α) :
    Partitioned (fun x => if decide (x < a) then .lt else .gt) xs where
  lt_before i j hi hj hle h := by
    have hxy := pairwise_le_getElem sorted hi hj hle
    by_cases hlt : xs[j] < a
    · simp [lt_of_le_of_lt hxy hlt]
    · simp [hlt] at h
  gt_after i j hi hj hle h := by
    have hxy := pairwise_le_getElem sorted hi hj hle
    by_cases hlt : xs[i] < a
    · simp [hlt] at h
    · have : ¬xs[j] < a := fun hj => hlt (lt_of_le_of_lt hxy hj)
      simp [this]

theorem binarySearch_isOk {xs : List α} (sorted : xs.Pairwise (· ≤ ·)) (a : α) :
    (binarySearchBy (fun x => compare x a) xs).isOk = true ↔ a ∈ xs := by
  have spec := binarySearchBy_spec (partitioned_compare sorted a)
  generalize binarySearchBy (fun x => compare x a) xs = r at spec
  cases spec with
  | found h eq =>
    have : a ∈ xs := (compare_eq_iff_eq.mp eq) ▸ List.getElem_mem h
    simpa [Except.isOk, Except.toBool] using this
  | @missing i h below above =>
    have : a ∉ xs := by
      intro hm
      obtain ⟨j, hj, rfl⟩ := List.mem_iff_getElem.mp hm
      rcases Nat.lt_or_ge j i with hlt | hge
      · simpa using below j hj hlt
      · simpa using above j hj hge
    simpa [Except.isOk, Except.toBool] using this

/-- `partition_point` splits a sorted list at the first entry that is not below `a`. -/
theorem partitionPoint_lt_spec {xs : List α} (sorted : xs.Pairwise (· ≤ ·)) (a : α) :
    partitionPoint (fun x => decide (x < a)) xs ≤ xs.length ∧
    (∀ j (hj : j < xs.length), j < partitionPoint (fun x => decide (x < a)) xs → xs[j] < a) ∧
    ∀ j (hj : j < xs.length), partitionPoint (fun x => decide (x < a)) xs ≤ j → a ≤ xs[j] := by
  have spec := binarySearchBy_spec (partitioned_lt sorted a)
  unfold partitionPoint
  generalize binarySearchBy (fun x => if decide (x < a) then Ordering.lt else .gt) xs = r at spec ⊢
  cases spec with
  | found h eq => split at eq <;> simp at eq
  | @missing i h below above =>
    refine ⟨h, fun j hj hlt => ?_, fun j hj hle => ?_⟩
    · by_contra hn
      simpa [hn] using below j hj hlt
    · by_contra hn
      simpa [not_le.mp hn] using above j hj hle

end Sorted

end BinarySearch

end ObscuraNetwork
