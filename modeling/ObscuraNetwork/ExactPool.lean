import ObscuraNetwork.AccountingRuns

namespace ObscuraNetwork

/-- Exact accounting of a run: after every prefix the counters hold the exact sums and no asset is
paid out beyond what was put in, and no pool call panics on an addition. -/
structure AccountsExactly (b : Build) (config : BridgeConfig) (txs : List Tx) : Prop where
  exact : ∀ pre, pre <+: txs →
    ExactAccounting (Runtime.run b config pre) (Runtime.acceptedTxs b config pre)
  solvent : ∀ pre, pre <+: txs → ∀ asset,
    total (Tx.paidOut asset) (Runtime.acceptedTxs b config pre) ≤
      total (Tx.putIn asset) (Runtime.acceptedTxs b config pre)
  noPanic : ∀ pre tx, pre ++ [tx] <+: txs → tx.IsPoolCall →
    NoPanic (Runtime.call b tx (Runtime.run b config pre))

theorem acceptedTxs_concat_ok {b : Build} {config : BridgeConfig} {pre : List Tx} {tx : Tx}
    {s' : Runtime} (h : Runtime.call b tx (Runtime.run b config pre) = .ok s') :
    Runtime.run b config (pre ++ [tx]) = s' ∧
    Runtime.acceptedTxs b config (pre ++ [tx]) = Runtime.acceptedTxs b config pre ++ [tx] := by
  refine ⟨(Runtime.run_concat b config pre tx).trans (settle_ok h), ?_⟩
  have := accepted_append (Runtime.call b) (Runtime.genesis b config) pre [tx]
  exact this.trans (congrArg _ (accepted_singleton_ok h))

theorem acceptedTxs_concat_error {b : Build} {config : BridgeConfig} {pre : List Tx} {tx : Tx}
    {e : Failure} (h : Runtime.call b tx (Runtime.run b config pre) = .error e) :
    Runtime.run b config (pre ++ [tx]) = Runtime.run b config pre ∧
    Runtime.acceptedTxs b config (pre ++ [tx]) = Runtime.acceptedTxs b config pre := by
  refine ⟨(Runtime.run_concat b config pre tx).trans (settle_error h), ?_⟩
  have := accepted_append (Runtime.call b) (Runtime.genesis b config) pre [tx]
  exact this.trans ((congrArg _ (accepted_singleton_error h)).trans (List.append_nil _))

theorem exact_of_fits {b : Build} {config : BridgeConfig} {txs : List Tx}
    (fits : ∀ pre tx, pre ++ [tx] <+: txs → Fits b (Runtime.run b config pre) tx)
    (pre : List Tx) (hpre : pre <+: txs) :
    ExactAccounting (Runtime.run b config pre) (Runtime.acceptedTxs b config pre) := by
  induction pre using List.reverseRecOn with
  | nil => exact exact_genesis b config
  | append_singleton pre tx ih =>
    have hs := ih ((List.prefix_append pre [tx]).trans hpre)
    cases hcall : Runtime.call b tx (Runtime.run b config pre) with
    | error e =>
      obtain ⟨hrun, haccepted⟩ := acceptedTxs_concat_error hcall
      rw [hrun, haccepted]
      exact hs
    | ok s' =>
      obtain ⟨hrun, haccepted⟩ := acceptedTxs_concat_ok hcall
      rw [hrun, haccepted]
      by_cases hpool : tx.IsPoolCall
      · have hiff := poolCall_keeps_iff (run_counted b config pre) hs hpool
        exact (hiff.mpr (fits pre tx hpre)).2 s' hcall
      · exact otherCall_exact hs hpool (Runtime.step_of_call_ok hcall)

/-- The accounts of a run are exact if and only if every transaction fits in the state before it. -/
theorem accounts_exactly_iff (b : Build) (config : BridgeConfig) (txs : List Tx) :
    AccountsExactly b config txs ↔
      ∀ pre tx, pre ++ [tx] <+: txs → Fits b (Runtime.run b config pre) tx := by
  constructor
  · intro h pre tx hpre
    have hs := h.exact pre ((List.prefix_append pre [tx]).trans hpre)
    by_cases hpool : tx.IsPoolCall
    · have hiff := poolCall_keeps_iff (run_counted b config pre) hs hpool
      refine hiff.mp ⟨h.noPanic pre tx hpre hpool, ?_⟩
      intro s' hcall
      obtain ⟨hrun, haccepted⟩ := acceptedTxs_concat_ok hcall
      exact hrun ▸ haccepted ▸ h.exact (pre ++ [tx]) hpre
    · unfold Tx.IsPoolCall at hpool
      unfold Fits
      split at hpool <;> simp_all
  · intro fits
    have exact := exact_of_fits fits
    refine ⟨exact, fun pre hpre asset => (exact pre hpre).solvent asset, ?_⟩
    intro pre tx hpre hpool
    have hs := exact pre ((List.prefix_append pre [tx]).trans hpre)
    have hiff := poolCall_keeps_iff (run_counted b config pre) hs hpool
    exact (hiff.mpr (fits pre tx hpre)).1

def unfundedUnshield : Tx :=
  ⟨⟨[], 0⟩, .obscuraPrivacy (.unshield ⟨mockHeader, ⟨5, ⟨zeroBytes⟩⟩, ⟨zeroBytes⟩, []⟩)⟩

/-- From genesis the Unshield is accepted: the subtraction is clipped and five units are paid out of
an empty pool. -/
theorem unfunded_unshield_accepted :
    Runtime.acceptedTxs .default .default [unfundedUnshield] = [unfundedUnshield] ∧
    total (Tx.putIn ⟨zeroBytes⟩) [unfundedUnshield] = 0 ∧
    total (Tx.paidOut ⟨zeroBytes⟩) [unfundedUnshield] = 5 ∧
    (Runtime.run .default .default [unfundedUnshield]).obscuraPrivacy.supply ⟨zeroBytes⟩ = 0 ∧
    ¬AccountsExactly .default .default [unfundedUnshield] := by
  obtain ⟨s, hs⟩ : ∃ s, Runtime.call .default unfundedUnshield (Runtime.run .default .default []) =
      .ok s := ⟨_, rfl⟩
  have haccepted : Runtime.acceptedTxs .default .default [unfundedUnshield] = [unfundedUnshield] :=
    (acceptedTxs_concat_ok hs).2
  refine ⟨haccepted, by decide, by decide, by decide, fun h => ?_⟩
  have hsolvent := h.solvent _ (List.prefix_refl _) ⟨zeroBytes⟩
  rw [haccepted] at hsolvent
  revert hsolvent
  decide

end ObscuraNetwork
