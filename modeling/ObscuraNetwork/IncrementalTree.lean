import ObscuraNetwork.PerfectTree

namespace ObscuraNetwork

section IncrementalTree

variable {α : Type} (combine : α → α → α) (z : α)

/-- The node carried up to level `k` when `x` is appended at index `n`: a right child meets the
stored left sibling, a left child an empty subtree. -/
def carried (filled : Nat → α) (x : α) (n : Nat) : Nat → α
  | 0 => x
  | k + 1 =>
    if n / 2 ^ k % 2 = 0 then combine (carried filled x n k) (constNode combine z k)
    else combine (filled k) (carried filled x n k)

/-- The stored subtrees after an append: every level at which the new leaf was a left child. -/
def refill (d : Nat) (filled : Nat → α) (x : α) (n k : Nat) : α :=
  if k < d ∧ n / 2 ^ k % 2 = 0 then carried combine z filled x n k else filled k

/-- What the stored subtrees mean: where binary digit `k` of the leaf count is one, level `k`
holds the left sibling of the next insertion path. The other levels are stale and never read. -/
def FilledSubtrees (leaf : Nat → α) (d n : Nat) (filled : Nat → α) : Prop :=
  ∀ k < d, n / 2 ^ k % 2 = 1 → filled k = treeNode combine leaf k (n / 2 ^ k - 1)

variable {combine z}

theorem filledSubtrees_zero (leaf filled : Nat → α) (d : Nat) :
    FilledSubtrees combine leaf d 0 filled := by
  intro k _ h
  simp at h

/-- Appending a leaf: the old leaves stay, the new one stands at `n`, nothing comes after it. -/
structure Appends (leaf leaf' : Nat → α) (z x : α) (n : Nat) : Prop where
  before : ∀ j < n, leaf' j = leaf j
  here : leaf' n = x
  after : ∀ j, n < j → leaf' j = z

theorem Appends.node_before {leaf leaf' : Nat → α} {x : α} {n k i : Nat}
    (h : Appends leaf leaf' z x n) (hi : i < n / 2 ^ k) :
    treeNode combine leaf' k i = treeNode combine leaf k i := by
  apply treeNode_congr
  intro j _ hj
  have hle : (i + 1) * 2 ^ k ≤ n / 2 ^ k * 2 ^ k := Nat.mul_le_mul_right _ hi
  exact h.before j (by have := Nat.div_mul_le_self n (2 ^ k); omega)

theorem Appends.node_after {leaf leaf' : Nat → α} {x : α} {n k : Nat}
    (h : Appends leaf leaf' z x n) :
    treeNode combine leaf' k (n / 2 ^ k + 1) = constNode combine z k := by
  apply treeNode_const
  intro j hj _
  have hlt : n < (n / 2 ^ k + 1) * 2 ^ k := by
    rw [Nat.mul_comm]
    exact Nat.lt_mul_div_succ n (Nat.two_pow_pos k)
  exact h.after j (by omega)

theorem carried_eq_treeNode {leaf leaf' filled : Nat → α} {x : α} {n d k : Nat}
    (hf : FilledSubtrees combine leaf d n filled) (h : Appends leaf leaf' z x n) (hk : k ≤ d) :
    carried combine z filled x n k = treeNode combine leaf' k (n / 2 ^ k) := by
  induction k with
  | zero => simpa [carried, treeNode] using h.here.symm
  | succ k ih =>
    have half : n / 2 ^ (k + 1) = n / 2 ^ k / 2 := by rw [pow_succ, Nat.div_div_eq_div_mul]
    have below := ih (by omega)
    simp only [carried, treeNode, half, below]
    by_cases he : n / 2 ^ k % 2 = 0
    · have even : 2 * (n / 2 ^ k / 2) = n / 2 ^ k := by omega
      rw [if_pos he, even, h.node_after]
    · have hodd : n / 2 ^ k % 2 = 1 := by omega
      have odd : 2 * (n / 2 ^ k / 2) = n / 2 ^ k - 1 := by omega
      have odd' : n / 2 ^ k - 1 + 1 = n / 2 ^ k := by omega
      rw [if_neg he, odd, odd', hf k (by omega) hodd,
        h.node_before (i := n / 2 ^ k - 1) (by omega)]

theorem succ_div_two_pow (n k : Nat) :
    (n + 1) / 2 ^ k = n / 2 ^ k ∨ (n + 1) / 2 ^ k = n / 2 ^ k + 1 := by
  rw [Nat.succ_div]
  split
  · exact Or.inr rfl
  · exact Or.inl rfl

theorem FilledSubtrees.append {leaf leaf' filled : Nat → α} {x : α} {n d : Nat}
    (hf : FilledSubtrees combine leaf d n filled) (h : Appends leaf leaf' z x n) :
    FilledSubtrees combine leaf' d (n + 1) (refill combine z d filled x n) := by
  intro k hk hodd
  rcases succ_div_two_pow n k with same | next
  · rw [same] at hodd ⊢
    have hne : ¬(k < d ∧ n / 2 ^ k % 2 = 0) := by omega
    have hpos : 0 < n / 2 ^ k := Nat.pos_of_ne_zero fun h0 => by simp [h0] at hodd
    have hlt : n / 2 ^ k - 1 < n / 2 ^ k := Nat.sub_lt hpos Nat.one_pos
    rw [refill, if_neg hne, hf k hk hodd, h.node_before hlt]
  · rw [next] at hodd ⊢
    rw [refill, if_pos ⟨hk, by omega⟩, carried_eq_treeNode hf h hk.le, Nat.add_sub_cancel]

theorem carried_root {leaf leaf' filled : Nat → α} {x : α} {n d : Nat}
    (hf : FilledSubtrees combine leaf d n filled) (h : Appends leaf leaf' z x n) (hn : n < 2 ^ d) :
    carried combine z filled x n d = treeNode combine leaf' d 0 := by
  rw [carried_eq_treeNode hf h le_rfl, Nat.div_eq_of_lt hn]

def padded (z : α) (xs : List α) (i : Nat) : α := xs.getD i z

theorem padded_nil (i : Nat) : padded z [] i = z := rfl

theorem padded_append (xs : List α) (x : α) :
    Appends (padded z xs) (padded z (xs ++ [x])) z x xs.length where
  before j hj := List.getD_append _ _ _ _ hj
  here := by simp [padded]
  after j hj := List.getD_eq_default _ _ (by simp; omega)

theorem padded_mem_or (xs : List α) (i : Nat) :
    padded z xs i ∈ xs ∨ xs.length ≤ i ∧ padded z xs i = z := by
  rcases Nat.lt_or_ge i xs.length with h | h
  · rw [padded, List.getD_eq_getElem _ _ h]
    exact Or.inl (List.getElem_mem h)
  · exact Or.inr ⟨h, List.getD_eq_default _ _ h⟩

end IncrementalTree

end ObscuraNetwork
