import Mathlib.Data.Set.Function
import Mathlib.Data.List.GetD
import Mathlib.Tactic.Common
import Mathlib.Tactic.Ring

namespace ObscuraNetwork

section PerfectTree

variable {α : Type} (combine : α → α → α)

/-- The node at a level (leaves at level 0) and an index, over an unbounded leaf supply. -/
def treeNode (leaf : Nat → α) : Nat → Nat → α
  | 0, i => leaf i
  | k + 1, i => combine (treeNode leaf k (2 * i)) (treeNode leaf k (2 * i + 1))

def constNode (z : α) : Nat → α
  | 0 => z
  | k + 1 => combine (constNode z k) (constNode z k)

/-- Fold a leaf up to a root; bit `k` of the index says on which side sibling `k` stands. -/
def walk : Nat → α → List α → α
  | _, c, [] => c
  | i, c, s :: ss => walk (i / 2) (if i % 2 = 0 then combine c s else combine s c) ss

def walkPairs : Nat → α → List α → List (α × α)
  | _, _, [] => []
  | i, c, s :: ss => (if i % 2 = 0 then (c, s) else (s, c)) ::
      walkPairs (i / 2) (if i % 2 = 0 then combine c s else combine s c) ss

def treePairs (leaf : Nat → α) (d : Nat) : Set (α × α) :=
  {p | ∃ k i, k < d ∧ i < 2 ^ (d - (k + 1)) ∧
    p = (treeNode combine leaf k (2 * i), treeNode combine leaf k (2 * i + 1))}

def treePairList (leaf : Nat → α) (d : Nat) : List (α × α) :=
  (List.range d).flatMap fun k => (List.range (2 ^ (d - (k + 1)))).map fun i =>
    (treeNode combine leaf k (2 * i), treeNode combine leaf k (2 * i + 1))

/-- The siblings met on the way up from index `i`, through `n` levels starting at level `k`. -/
def siblingsFrom (leaf : Nat → α) : Nat → Nat → Nat → List α
  | _, _, 0 => []
  | k, i, n + 1 => treeNode combine leaf k (if i % 2 = 0 then i + 1 else i - 1) ::
      siblingsFrom leaf (k + 1) (i / 2) n

/-- The `2^n` nodes at level `k` of a tree of depth `k + n`. -/
def treeRow (leaf : Nat → α) (k n : Nat) : List α :=
  (List.range (2 ^ n)).map (treeNode combine leaf k)

def treeRows (leaf : Nat → α) : Nat → Nat → List (List α)
  | k, 0 => [treeRow combine leaf k 0]
  | k, n + 1 => treeRow combine leaf k (n + 1) :: treeRows leaf (k + 1) n

variable {combine}

theorem treeRow_length (leaf : Nat → α) (k n : Nat) :
    (treeRow combine leaf k n).length = 2 ^ n := by
  simp [treeRow]

theorem treeRow_getElem? (leaf : Nat → α) {k n i : Nat} (hi : i < 2 ^ n) :
    (treeRow combine leaf k n)[i]? = some (treeNode combine leaf k i) := by
  simp [treeRow, List.getElem?_range hi]

variable (combine) in
/-- A row is its nodes two by two, each two under one node of the row above. -/
theorem treeRow_succ (leaf : Nat → α) (k n : Nat) :
    treeRow combine leaf k (n + 1) = (List.range (2 ^ n)).flatMap fun i =>
      [treeNode combine leaf k (2 * i), treeNode combine leaf k (2 * i + 1)] := by
  have hpairs : ∀ m, (List.range (2 * m)).map (treeNode combine leaf k) =
      (List.range m).flatMap fun i =>
        [treeNode combine leaf k (2 * i), treeNode combine leaf k (2 * i + 1)] := by
    intro m
    induction m with
    | zero => rfl
    | succ m ih =>
      rw [show 2 * (m + 1) = 2 * m + 1 + 1 by omega, List.range_succ, List.range_succ,
        List.range_succ, List.map_append, List.map_append, ih, List.flatMap_append]
      simp
  rw [treeRow, pow_succ', hpairs]

variable (combine) in
theorem list_eq_treeRow (z : α) {xs : List α} {n : Nat} (h : xs.length = 2 ^ n) :
    xs = treeRow combine (fun i => xs.getD i z) 0 n := by
  refine List.ext_getElem (by rw [treeRow_length, h]) fun i hi _ => ?_
  simp [treeRow, treeNode, List.getElem?_eq_getElem hi]

theorem treeRows_ne_nil (leaf : Nat → α) (k n : Nat) : treeRows combine leaf k n ≠ [] := by
  cases n <;> simp [treeRows]

variable (combine) in
theorem treeRows_getLast? (leaf : Nat → α) (k n : Nat) :
    (treeRows combine leaf k n).getLast? = some [treeNode combine leaf (k + n) 0] := by
  induction n generalizing k with
  | zero => simp [treeRows, treeRow]
  | succ n ih =>
    rw [treeRows, List.getLast?_cons, ih (k + 1), Option.getD_some, Nat.add_right_comm,
      Nat.add_assoc]

variable (combine) in
theorem treeRow_mem_treeRows (leaf : Nat → α) (k : Nat) {j n : Nat} (hj : j ≤ n) :
    treeRow combine leaf (k + j) (n - j) ∈ treeRows combine leaf k n := by
  induction n generalizing k j with
  | zero =>
    obtain rfl : j = 0 := by omega
    simp [treeRows]
  | succ n ih =>
    cases j with
    | zero => simp [treeRows]
    | succ j =>
      have := ih (k + 1) (j := j) (by omega)
      rw [show k + 1 + j = k + (j + 1) by omega] at this
      rw [treeRows, Nat.add_sub_add_right]
      exact List.mem_cons_of_mem _ this

theorem mem_treePairList {leaf : Nat → α} {d : Nat} {p : α × α} :
    p ∈ treePairList combine leaf d ↔ p ∈ treePairs combine leaf d := by
  rw [treePairList, List.mem_flatMap]
  constructor
  · intro h
    obtain ⟨k, hk, h⟩ := h
    obtain ⟨i, hi, rfl⟩ := List.mem_map.mp h
    exact ⟨k, i, List.mem_range.mp hk, List.mem_range.mp hi, rfl⟩
  · intro h
    obtain ⟨k, i, hk, hi, rfl⟩ := h
    exact ⟨k, List.mem_range.mpr hk, List.mem_map.mpr ⟨i, List.mem_range.mpr hi, rfl⟩⟩

theorem treeNode_congr {leaf leaf' : Nat → α} {k i : Nat}
    (h : ∀ j, i * 2 ^ k ≤ j → j < (i + 1) * 2 ^ k → leaf j = leaf' j) :
    treeNode combine leaf k i = treeNode combine leaf' k i := by
  induction k generalizing i with
  | zero => exact h i (by simp) (by simp)
  | succ k ih =>
    have lower : i * 2 ^ (k + 1) = 2 * i * 2 ^ k := by ring
    have middle : (2 * i + 1) * 2 ^ k = 2 * i * 2 ^ k + 2 ^ k := by ring
    have upper : (i + 1) * 2 ^ (k + 1) = (2 * i + 1 + 1) * 2 ^ k := by ring
    have upper' : (2 * i + 1 + 1) * 2 ^ k = 2 * i * 2 ^ k + 2 ^ k + 2 ^ k := by ring
    have left := ih (i := 2 * i) fun j lo hi => h j (by omega) (by omega)
    have right := ih (i := 2 * i + 1) fun j lo hi => h j (by omega) (by omega)
    simp only [treeNode, left, right]

theorem treeNode_const {leaf : Nat → α} {z : α} {k i : Nat}
    (h : ∀ j, i * 2 ^ k ≤ j → j < (i + 1) * 2 ^ k → leaf j = z) :
    treeNode combine leaf k i = constNode combine z k := by
  have hconst : treeNode combine leaf k i = treeNode combine (fun _ => z) k i := treeNode_congr h
  rw [hconst]
  clear h hconst
  induction k generalizing i with
  | zero => rfl
  | succ k ih => simp only [treeNode, constNode, ih]

theorem walk_append (i : Nat) (c : α) (ss ts : List α) :
    walk combine i c (ss ++ ts) = walk combine (i / 2 ^ ss.length) (walk combine i c ss) ts := by
  induction ss generalizing i c with
  | nil => simp [walk]
  | cons s ss ih =>
    simp only [List.cons_append, walk, List.length_cons, ih]
    rw [Nat.div_div_eq_div_mul, ← pow_succ']

/-- A walk reads no more bits of the index than there are siblings. -/
theorem walk_add_mul (i j : Nat) (c : α) (ss : List α) :
    walk combine (i + 2 ^ ss.length * j) c ss = walk combine i c ss := by
  induction ss generalizing i c with
  | nil => rfl
  | cons s ss ih =>
    have hdouble : 2 ^ (ss.length + 1) * j = 2 * (2 ^ ss.length * j) := by ring
    have hhalf : (i + 2 ^ (ss.length + 1) * j) / 2 = i / 2 + 2 ^ ss.length * j := by omega
    have hbit : (i + 2 ^ (ss.length + 1) * j) % 2 = i % 2 := by omega
    simp only [walk, List.length_cons, hhalf, hbit, ih]

theorem walkPairs_append (i : Nat) (c : α) (ss ts : List α) :
    walkPairs combine i c (ss ++ ts) =
      walkPairs combine i c ss ++
        walkPairs combine (i / 2 ^ ss.length) (walk combine i c ss) ts := by
  induction ss generalizing i c with
  | nil => simp [walkPairs, walk]
  | cons s ss ih =>
    simp only [List.cons_append, walkPairs, walk, List.length_cons, ih]
    rw [Nat.div_div_eq_div_mul, ← pow_succ']

variable (combine) in
theorem walk_is_combination (i : Nat) (c : α) {ss : List α} (h : ss ≠ []) :
    ∃ p ∈ walkPairs combine i c ss, walk combine i c ss = combine p.1 p.2 := by
  obtain ⟨ts, t, rfl⟩ := List.eq_nil_or_concat ss |>.resolve_left h
  rw [List.concat_eq_append, walkPairs_append, walk_append]
  refine ⟨_, List.mem_append_right _ (List.mem_singleton.mpr rfl), ?_⟩
  simp only [walk]
  split <;> rfl

theorem siblingsFrom_length (leaf : Nat → α) (k i n : Nat) :
    (siblingsFrom combine leaf k i n).length = n := by
  induction n generalizing k i with
  | zero => rfl
  | succ n ih => simp [siblingsFrom, ih]

variable (combine) in
/-- One step with the sibling the tree has there leads to the parent. -/
theorem walk_sibling (leaf : Nat → α) (k i : Nat) :
    walk combine i (treeNode combine leaf k i)
        [treeNode combine leaf k (if i % 2 = 0 then i + 1 else i - 1)] =
      treeNode combine leaf (k + 1) (i / 2) := by
  by_cases h : i % 2 = 0
  · have left : 2 * (i / 2) = i := by omega
    simp only [walk, h, if_true, treeNode, left]
  · have left : 2 * (i / 2) = i - 1 := by omega
    have right : i - 1 + 1 = i := by omega
    simp only [walk, h, if_false, treeNode, left, right]

theorem walk_siblings (leaf : Nat → α) (k i n : Nat) :
    walk combine i (treeNode combine leaf k i) (siblingsFrom combine leaf k i n) =
      treeNode combine leaf (k + n) (i / 2 ^ n) := by
  induction n generalizing k i with
  | zero => simp [siblingsFrom, walk]
  | succ n ih =>
    have up := walk_sibling combine leaf k i
    simp only [walk] at up
    simp only [siblingsFrom, walk, up, ih]
    rw [Nat.div_div_eq_div_mul, ← pow_succ', Nat.add_right_comm, Nat.add_assoc k n 1]

/-- The pair-injectivity a soundness argument needs, on the pairs actually combined. -/
abbrev PairInjOn (combine : α → α → α) (S : Set (α × α)) : Prop :=
  Set.InjOn (fun p : α × α => combine p.1 p.2) S

/-- Two walks of one length at one index that end at the same node started at the same leaf. -/
theorem walk_inj {S : Set (α × α)} (inj : PairInjOn combine S) {i : Nat} {c c' : α} {ss ts : List α}
    (hlen : ss.length = ts.length) (hs : ∀ p ∈ walkPairs combine i c ss, p ∈ S)
    (ht : ∀ p ∈ walkPairs combine i c' ts, p ∈ S)
    (h : walk combine i c ss = walk combine i c' ts) : c = c' := by
  induction ss generalizing i c c' ts with
  | nil =>
    obtain rfl : ts = [] := List.length_eq_zero_iff.mp hlen.symm
    exact h
  | cons s ss ih =>
    obtain ⟨t, ts, rfl⟩ := List.exists_cons_of_length_eq_add_one hlen.symm
    have above := ih (by simpa using hlen) (fun p hp => hs p (by simp [walkPairs, hp]))
      (fun p hp => ht p (by simp [walkPairs, hp])) h
    have hhead := hs _ (List.mem_cons_self)
    have hhead' := ht _ (List.mem_cons_self)
    by_cases he : i % 2 = 0
    · simp only [he, if_true] at above hhead hhead'
      exact congrArg Prod.fst (inj hhead hhead' above)
    · simp only [he, if_false] at above hhead hhead'
      exact congrArg Prod.snd (inj hhead hhead' above)

/-- Two trees of one depth with one root have the same leaves. -/
theorem treeNode_inj {leaf leaf' : Nat → α} {S : Set (α × α)} (inj : PairInjOn combine S) {d : Nat}
    (hs : treePairs combine leaf d ⊆ S) (hs' : treePairs combine leaf' d ⊆ S)
    (h : treeNode combine leaf d 0 = treeNode combine leaf' d 0) {i : Nat} (hi : i < 2 ^ d) :
    leaf i = leaf' i := by
  have below : ∀ m, m ≤ d → ∀ i < 2 ^ m,
      treeNode combine leaf (d - m) i = treeNode combine leaf' (d - m) i := by
    intro m
    induction m with
    | zero =>
      intro _ i hi
      obtain rfl : i = 0 := by simpa using hi
      exact h
    | succ m ih =>
      intro hm i hi
      have level : d - m = d - (m + 1) + 1 := by omega
      have parent := ih (by omega) (i / 2) (by rw [pow_succ] at hi; omega)
      have place : i / 2 < 2 ^ (d - (d - (m + 1) + 1)) := by
        rw [← level, Nat.sub_sub_self (by omega)]
        rw [pow_succ] at hi
        omega
      rw [level] at parent
      have pair := inj (hs ⟨d - (m + 1), i / 2, by omega, place, rfl⟩)
        (hs' ⟨d - (m + 1), i / 2, by omega, place, rfl⟩) parent
      obtain ⟨left, right⟩ := Prod.mk.inj pair
      by_cases he : i % 2 = 0
      · have hleft : 2 * (i / 2) = i := by omega
        exact hleft ▸ left
      · have hright : 2 * (i / 2) + 1 = i := by omega
        exact hright ▸ right
  have hleaves := below d le_rfl i hi
  rw [Nat.sub_self] at hleaves
  exact hleaves

/-- A walk of at most `d` steps that reaches a node at level `d` started at one of its
descendants. -/
theorem walk_sound {leaf : Nat → α} {S : Set (α × α)} (inj : PairInjOn combine S) {D : Nat}
    (tree : treePairs combine leaf D ⊆ S) {i : Nat} {c : α} {ss : List α}
    (steps : ∀ p ∈ walkPairs combine i c ss, p ∈ S) {d j : Nat} (hd : d ≤ D) (hj : j < 2 ^ (D - d))
    (hlen : ss.length ≤ d) (h : walk combine i c ss = treeNode combine leaf d j) :
    c = treeNode combine leaf (d - ss.length) (j * 2 ^ ss.length + i % 2 ^ ss.length) := by
  induction ss generalizing i c with
  | nil => simpa [walk, Nat.mod_one] using h
  | cons s ss ih =>
    simp only [List.length_cons] at hlen
    have above := ih (fun p hp => steps p (by simp [walkPairs, hp])) (by omega) h
    generalize hl : ss.length = l at above hlen ih ⊢
    set q := j * 2 ^ l + i / 2 % 2 ^ l with hq
    have level : d - l = d - (l + 1) + 1 := by omega
    rw [level] at above
    have place : j * 2 ^ (l + 1) + i % 2 ^ (l + 1) = 2 * q + i % 2 := by
      rw [hq, pow_succ', Nat.mod_mul]
      ring
    have hmem : (treeNode combine leaf (d - (l + 1)) (2 * q),
        treeNode combine leaf (d - (l + 1)) (2 * q + 1)) ∈ S := by
      refine tree ⟨d - (l + 1), q, by omega, ?_, rfl⟩
      have hlt : i / 2 % 2 ^ l < 2 ^ l := Nat.mod_lt _ (Nat.two_pow_pos l)
      have hle : (j + 1) * 2 ^ l ≤ 2 ^ (D - d) * 2 ^ l := Nat.mul_le_mul_right _ hj
      rw [← pow_add] at hle
      have : D - d + l = D - (d - (l + 1) + 1) := by omega
      rw [this] at hle
      calc q < (j + 1) * 2 ^ l := by rw [hq, Nat.add_mul, Nat.one_mul]; omega
        _ ≤ _ := hle
    have hhead : (if i % 2 = 0 then (c, s) else (s, c)) ∈ S := steps _ (by simp [walkPairs])
    simp only [treeNode] at above
    rw [List.length_cons, hl, place]
    by_cases he : i % 2 = 0
    · simp only [he, if_true] at above hhead
      have := inj hhead hmem above
      rw [he, Nat.add_zero]
      exact congrArg Prod.fst this
    · have h1 : i % 2 = 1 := by omega
      simp only [he, if_false] at above hhead
      have := inj hhead hmem above
      rw [h1]
      exact congrArg Prod.snd this

/-- A walk longer than the tree passes through a leaf and goes on below it. -/
theorem walk_sound_below {leaf : Nat → α} {S : Set (α × α)} (inj : PairInjOn combine S) {D : Nat}
    (tree : treePairs combine leaf D ⊆ S) {i : Nat} {c : α} {ss : List α}
    (steps : ∀ p ∈ walkPairs combine i c ss, p ∈ S) (hlen : D ≤ ss.length)
    (h : walk combine i c ss = treeNode combine leaf D 0) :
    walk combine i c (ss.take (ss.length - D)) = leaf (i / 2 ^ (ss.length - D) % 2 ^ D) := by
  have hsplit := List.take_append_drop (ss.length - D) ss
  have htake : (ss.take (ss.length - D)).length = ss.length - D := by simp
  have hdrop : (ss.drop (ss.length - D)).length = D := by
    rw [List.length_drop]
    omega
  rw [← hsplit, walk_append, htake] at h
  rw [← hsplit, walkPairs_append, htake] at steps
  have below := walk_sound inj tree (fun p hp => steps p (List.mem_append_right _ hp)) le_rfl
    (by simp) hdrop.le h
  simpa only [hdrop, Nat.sub_self, Nat.zero_mul, Nat.zero_add, treeNode] using below

end PerfectTree

end ObscuraNetwork
