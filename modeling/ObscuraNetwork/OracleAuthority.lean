import ObscuraNetwork.Runtime

namespace ObscuraNetwork

open ObscuraPrivacy

/-- No two senders can both move the sanctions root in a state. -/
def OneOracle (b : Build) (s : Runtime) : Prop :=
  ∀ ctx ctx' msg msg' s' s'',
    Runtime.call b ⟨ctx, .obscuraPrivacy (.updateSanctionsRoot msg)⟩ s = .ok s' →
    Runtime.call b ⟨ctx', .obscuraPrivacy (.updateSanctionsRoot msg')⟩ s = .ok s'' →
    ctx.sender = ctx'.sender

/-- The guard: an empty oracle entry lets every sender through. -/
theorem handleUpdateSanctionsRoot_iff {sender : Bytes} {msg : UpdateSanctionsRootMessage}
    {s s' : ObscuraPrivacy} :
    handleUpdateSanctionsRoot sender msg s = .ok s' ↔
      (s.sanctionsOracle.getD [] = [] ∨ sender = s.sanctionsOracle.getD []) ∧
        s' = { s with sanctionsRoot := some msg.newRoot } := by
  simp only [handleUpdateSanctionsRoot, bind_ok, ensure_ok, pure_ok]
  constructor
  · intro h
    obtain ⟨_, hsender, rfl⟩ := h
    exact ⟨hsender, rfl⟩
  · intro h
    obtain ⟨hsender, rfl⟩ := h
    exact ⟨(), hsender, rfl⟩

/-- No handler writes the oracle's address. -/
theorem step_sanctionsOracle {b : Build} {s s' : Runtime} {tx : Tx} (h : Runtime.Step b s tx s') :
    s'.obscuraPrivacy.sanctionsOracle = s.obscuraPrivacy.sanctionsOracle := by
  cases h with
  | shield ctx msg privacy h =>
    obtain ⟨commitment, t, total, _, ht, _, rfl⟩ := handleShield_ok.mp h
    exact (((pushCommitment_ledger _ _).trans (insertCommitment_ledger ht)).trans
      (storeEncryptedNote_ledger commitment msg.encryptedNote t)).sanctionsOracle
  | transfer ctx msg privacy h =>
    obtain ⟨_, t, ht, hc⟩ := handleTransfer_ok.mp h
    have hmarked := congrArg ObscuraPrivacy.sanctionsOracle
      (markAllSpent_eq msg.nullifiers s.obscuraPrivacy)
    rw [updateCompliance_ok hc]
    exact (storeOutputs_ledger ht).sanctionsOracle.trans hmarked
  | unshield ctx msg privacy h =>
    obtain ⟨_, _, rfl⟩ := handleUnshield_ok.mp h
    rfl
  | updateSanctionsRoot ctx msg privacy h =>
    rw [handleUpdateSanctionsRoot_ok h]
  | claimDeposit ctx claim s' h =>
    obtain ⟨_, privacy, _, _, _, hp, _, _, _, rfl⟩ := ObscuraBridge.handleClaimDeposit_ok.mp h
    exact ((pushCommitment_ledger _ _).trans (insertCommitment_ledger hp)).sanctionsOracle
  | withdrawBridge ctx msg bridge h => rfl
  | updateHeliosHead ctx update bridge h => rfl

theorem run_sanctionsOracle (b : Build) (config : BridgeConfig) (txs : List Tx) :
    (Runtime.run b config txs).obscuraPrivacy.sanctionsOracle = none := by
  apply Runtime.run_induction (P := fun s _ => s.obscuraPrivacy.sanctionsOracle = none)
  · rfl
  · intro s done tx s' hs hstep
    rw [step_sanctionsOracle hstep, hs]

/-- In every reachable state every sender can set the sanctions root to any value, so that no two
senders are told apart. -/
theorem anyone_moves_sanctions_root (b : Build) (config : BridgeConfig) (txs : List Tx) :
    (∀ (ctx : TxContext) (msg : UpdateSanctionsRootMessage), ∃ s',
      Runtime.call b ⟨ctx, .obscuraPrivacy (.updateSanctionsRoot msg)⟩
        (Runtime.run b config txs) = .ok s' ∧
      s'.obscuraPrivacy.sanctionsRoot = some msg.newRoot) ∧
    ¬OneOracle b (Runtime.run b config txs) := by
  have hunset := run_sanctionsOracle b config txs
  have hset : ∀ (ctx : TxContext) (msg : UpdateSanctionsRootMessage), ∃ s',
      Runtime.call b ⟨ctx, .obscuraPrivacy (.updateSanctionsRoot msg)⟩
        (Runtime.run b config txs) = .ok s' ∧
      s'.obscuraPrivacy.sanctionsRoot = some msg.newRoot := by
    intro ctx msg
    generalize Runtime.run b config txs = s at hunset ⊢
    have hpass : handleUpdateSanctionsRoot ctx.sender msg s.obscuraPrivacy =
        .ok { s.obscuraPrivacy with sanctionsRoot := some msg.newRoot } := by
      refine handleUpdateSanctionsRoot_iff.mpr ⟨Or.inl ?_, rfl⟩
      rw [hunset]
      rfl
    exact ⟨_, bind_ok.mpr ⟨_, hpass, rfl⟩, rfl⟩
  refine ⟨hset, ?_⟩
  intro hone
  obtain ⟨s', hs', _⟩ := hset ⟨[], 0⟩ ⟨zeroBytes⟩
  obtain ⟨s'', hs'', _⟩ := hset ⟨[1], 0⟩ ⟨zeroBytes⟩
  have := hone _ _ _ _ _ _ hs' hs''
  simp at this

/-- Two accounts at genesis. -/
theorem two_senders_at_genesis : ¬OneOracle .default (Runtime.run .default .default []) := by
  intro hone
  have := hone ⟨[1], 0⟩ ⟨[2], 0⟩ ⟨zeroBytes⟩ ⟨zeroBytes⟩ _ _ rfl rfl
  simp at this

end ObscuraNetwork
