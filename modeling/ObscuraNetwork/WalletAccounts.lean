import ObscuraNetwork.PoolBalance

namespace ObscuraNetwork

/-- The additions of a transaction stay below `2^64`. -/
def AdditionsFit (b : Build) (s : Runtime) (tx : Tx) : Prop :=
  (∀ msg, tx.call ≠ .obscuraPrivacy (.unshield msg)) → Fits b s tx

section WalletAccounts

variable {b : Build} {config : BridgeConfig} {o : PoolSecrets} {messages : Set Bytes}
  {txs : List Tx} {tx : Tx}

/-- An unshield of a wallet takes no more than the supply: it would have paid out of nothing. -/
theorem wallet_unshield_fits (cf : CollisionFreeOn b.sha256 messages)
    (h : EveryStep (settle (Runtime.call b)) (FromWallet b o messages) (Runtime.genesis b config)
      (txs ++ [tx]))
    (hexact : ExactAccounting (Runtime.run b config txs) (Runtime.acceptedTxs b config txs))
    {msg : UnshieldMessage} (hmsg : tx.call = .obscuraPrivacy (.unshield msg)) :
    Fits b (Runtime.run b config txs) tx := by
  obtain ⟨ctx, call⟩ := tx
  obtain rfl : call = _ := hmsg
  intro hproof hunspent
  have haccept := ObscuraPrivacy.handleUnshield_ok.mpr ⟨hproof, hunspent, rfl⟩
  obtain ⟨s', hs'⟩ : ∃ s', Runtime.call b ⟨ctx, .obscuraPrivacy (.unshield msg)⟩
      (Runtime.run b config txs) = .ok s' := ⟨_, bind_ok.mpr ⟨_, haccept, rfl⟩⟩
  have hinv := run_poolInvariant cf h
  have hsolvent := hinv.once.outflow_le (hinv.value msg.publicInputs.assetId)
  have hsupply := hexact.supply msg.publicInputs.assetId
  rw [(acceptedTxs_concat_ok hs').2] at hsolvent
  have hpaid : total (Tx.paidOut msg.publicInputs.assetId) (Runtime.acceptedTxs b config txs) +
      msg.publicInputs.amount.toNat ≤
        total (Tx.putIn msg.publicInputs.assetId) (Runtime.acceptedTxs b config txs) := by
    simpa [total, Tx.paidOut, Tx.putIn] using hsolvent
  omega

theorem wallet_fits (cf : CollisionFreeOn b.sha256 messages)
    (h : EveryStep (settle (Runtime.call b)) (FromWallet b o messages) (Runtime.genesis b config)
      txs)
    (hfit : ∀ pre tx, pre ++ [tx] <+: txs → AdditionsFit b (Runtime.run b config pre) tx) :
    ∀ pre tx, pre ++ [tx] <+: txs → Fits b (Runtime.run b config pre) tx := by
  induction txs using List.reverseRecOn with
  | nil =>
    intro pre tx hpre
    simp at hpre
  | append_singleton txs last ih =>
    have hearlier := ih (everyStep_concat.mp h).1 fun pre tx hpre =>
      hfit pre tx (hpre.trans (List.prefix_append txs [last]))
    intro pre tx hpre
    rcases List.prefix_concat_iff.mp hpre with hlast | hbefore
    · obtain ⟨rfl, hsingle⟩ := List.append_inj' hlast rfl
      obtain rfl := List.head_eq_of_cons_eq hsingle
      have hexact := exact_of_fits hearlier pre (List.prefix_refl pre)
      by_cases hunshield : ∃ msg, tx.call = .obscuraPrivacy (.unshield msg)
      · obtain ⟨msg, hmsg⟩ := hunshield
        exact wallet_unshield_fits cf h hexact hmsg
      · exact hfit pre tx hpre fun msg hmsg => hunshield ⟨msg, hmsg⟩
    · exact hearlier pre tx hbefore

end WalletAccounts

/-- In a run of honest wallets the subtraction of an unshield is never clipped: as long as the
additions fit, the counters hold the exact sums after every prefix. -/
theorem wallet_supply_exact (b : Build) (config : BridgeConfig) (txs : List Tx) (o : PoolSecrets)
    (messages : Set Bytes) (cf : CollisionFreeOn b.sha256 messages)
    (h : EveryStep (settle (Runtime.call b)) (FromWallet b o messages) (Runtime.genesis b config)
      txs)
    (hfit : ∀ pre tx, pre ++ [tx] <+: txs → AdditionsFit b (Runtime.run b config pre) tx) :
    ∀ pre, pre <+: txs →
      ExactAccounting (Runtime.run b config pre) (Runtime.acceptedTxs b config pre) :=
  exact_of_fits (wallet_fits cf h hfit)

theorem change_additions :
    ∀ pre tx, pre ++ [tx] <+: [unitShield, changeTx, cashOutTx] →
      AdditionsFit .default (Runtime.run .default .default pre) tx := by
  intro pre tx hpre
  rcases pre with _ | ⟨first, _ | ⟨second, _ | ⟨third, rest⟩⟩⟩
  · obtain rfl : tx = unitShield := by simpa using hpre
    intro _ _
    decide
  · obtain ⟨rfl, rfl⟩ : first = unitShield ∧ tx = changeTx := by simpa using hpre
    intro _ _ _
    exact ⟨by decide, by decide⟩
  · obtain ⟨_, _, rfl⟩ : first = unitShield ∧ second = changeTx ∧ tx = cashOutTx := by
      simpa using hpre
    intro hother
    exact absurd rfl (hother _)
  · have hlen := hpre.length_le
    simp only [List.length_append, List.length_cons, List.length_nil] at hlen
    omega

theorem wallet_supply_exact_change :
    ExactAccounting (Runtime.run .default .default [unitShield, changeTx, cashOutTx])
      (Runtime.acceptedTxs .default .default [unitShield, changeTx, cashOutTx]) :=
  wallet_supply_exact .default .default [unitShield, changeTx, cashOutTx] changeSecrets
    {m | m ∈ changeMessages} change_collisionFree change_fromWallet change_additions _
    (List.prefix_refl _)

end ObscuraNetwork
