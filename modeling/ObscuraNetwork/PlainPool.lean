import ObscuraNetwork.AccountingSteps
import ObscuraNetwork.KnownRoots
import ObscuraNetwork.NullifierSet

namespace ObscuraNetwork

/-- What the privacy module stands for: the leaves of the pool in their order, which notes are
spent, and the totals. There is no tree and no ring buffer. -/
structure PlainPool where
  leaves : List Commitment
  spent : Nullifier → Bool
  supply : AssetId → UInt64
  txCount : UInt64
  volume : UInt64
  sanctionsRoot : Bytes32
  sanctionsOracle : Bytes

structure PlainRuntime where
  pool : PlainPool
  bridge : ObscuraBridge

namespace PlainPool

def genesis : PlainPool where
  leaves := []
  spent _ := false
  supply _ := 0
  txCount := 0
  volume := 0
  sanctionsRoot := zeroBytes
  sanctionsOracle := []

/-- The roots that a spend may name: those of the leaves after each of the last 100 insertions. -/
def recentRoots (b : Build) (p : PlainPool) : List Bytes32 :=
  (List.range (min p.leaves.length 100)).map fun i =>
    fullRoot b.sha256 ((p.leaves.map Commitment.hash).take (p.leaves.length - i))

def add (commitments : List Commitment) (p : PlainPool) : Outcome PlainPool := do
  ensure (p.leaves.length + commitments.length ≤ 2 ^ treeDepth) (.bail "Merkle tree is full")
  pure { p with leaves := p.leaves ++ commitments }

def credit (b : Build) (asset : AssetId) (amount : UInt64) (p : PlainPool) : Outcome PlainPool := do
  let total ← addU64 b (p.supply asset) amount
  pure { p with supply := Function.update p.supply asset total }

def count (b : Build) (amount : UInt64) (p : PlainPool) : Outcome PlainPool := do
  let txCount ← addU64 b p.txCount 1
  let volume ← addU64 b p.volume amount
  pure { p with txCount := txCount, volume := volume }

def spend (nullifiers : List Nullifier) (p : PlainPool) : PlainPool :=
  { p with spent := fun n => p.spent n || decide (n ∈ nullifiers) }

def shield (b : Build) (msg : ShieldMessage) (p : PlainPool) : Outcome PlainPool := do
  let commitment ← Commitment.fromNote b.sha256 msg.note
  let p ← p.add [commitment]
  p.credit b msg.note.assetId msg.note.amount

def checkRoots (b : Build) (msg : TransferMessage) (p : PlainPool) : Outcome Unit := do
  let claimedRoot := msg.publicInputs.merkleRoot
  ensure (claimedRoot = zeroBytes ∨ claimedRoot ∈ p.recentRoots b)
    (.bail ("Unknown Merkle root: " ++ hexEncode claimedRoot.bytes ++
      ". Root may be too old or the note was never shielded."))
  verifyTransferProof b msg.proof msg.publicInputs
  ensure (p.sanctionsRoot = zeroBytes ∨ msg.sanctionsPublicInputs.sanctionsRoot = p.sanctionsRoot)
    (.bail ("Sanctions proof uses stale root. Expected " ++
      quoted (hexEncode p.sanctionsRoot.bytes) ++ ", got " ++
      quoted (hexEncode msg.sanctionsPublicInputs.sanctionsRoot.bytes)))

def transfer (b : Build) (nowSecs : UInt64) (msg : TransferMessage) (p : PlainPool) :
    Outcome PlainPool := do
  p.checkRoots b msg
  ObscuraPrivacy.checkFreshness nowSecs msg.sanctionsPublicInputs
  verifySanctionsProof b msg.sanctionsProof msg.sanctionsPublicInputs
  ensureAll (fun nullifier => p.spent nullifier = false)
    (fun nullifier => .bail ("Note already spent: nullifier " ++ debugBytes nullifier.hash.bytes))
    msg.nullifiers
  let p ← (p.spend msg.nullifiers).add msg.outputCommitments
  p.count b msg.publicInputs.transferAmount

def unshield (b : Build) (msg : UnshieldMessage) (p : PlainPool) : Outcome PlainPool := do
  verifyUnshieldProof b msg.proof msg.publicInputs
  ensure (p.spent msg.nullifier = false) (.bail "Note already spent")
  let asset := msg.publicInputs.assetId
  let left := saturatingSub (p.supply asset) msg.publicInputs.amount
  pure { p.spend [msg.nullifier] with supply := Function.update p.supply asset left }

def updateSanctionsRoot (sender : Bytes) (msg : UpdateSanctionsRootMessage) (p : PlainPool) :
    Outcome PlainPool := do
  ensure (p.sanctionsOracle = [] ∨ sender = p.sanctionsOracle)
    (.bail "Only the sanctions oracle may update the sanctions root")
  pure { p with sanctionsRoot := msg.newRoot }

def call (b : Build) (ctx : TxContext) : CallMessage → PlainPool → Outcome PlainPool
  | .shield msg => shield b msg
  | .transfer msg => transfer b ctx.nowSecs msg
  | .unshield msg => unshield b msg
  | .updateSanctionsRoot msg => updateSanctionsRoot ctx.sender msg

end PlainPool

namespace PlainRuntime

def genesis (config : BridgeConfig) : PlainRuntime :=
  ⟨PlainPool.genesis, ObscuraBridge.genesis config⟩

def claimDeposit (b : Build) (claim : ClaimDeposit) (s : PlainRuntime) : Outcome PlainRuntime := do
  let inputs := claim.publicInputs
  ObscuraBridge.claimChecks b claim s.bridge
  let pool ← s.pool.add [⟨inputs.obscuraRecipient⟩]
  let pool ← pool.credit b bridgedUsdcAsset inputs.amount
  let total ← addU64 b (s.bridge.totalBridgedUsdc.getD 0) inputs.amount
  let claims ← addU64 b (s.bridge.totalClaims.getD 0) 1
  pure ⟨pool, { s.bridge with
    processedDeposits := s.bridge.processedDeposits.set
      (makeDepositKeyStr inputs.bridgeContract inputs.depositId) true
    claimedAmounts := s.bridge.claimedAmounts.set inputs.depositId inputs.amount
    totalBridgedUsdc := some total
    totalClaims := some claims }⟩

def call (b : Build) (tx : Tx) (s : PlainRuntime) : Outcome PlainRuntime :=
  match tx.call with
  | .obscuraPrivacy msg => do
    let pool ← s.pool.call b tx.context msg
    pure { s with pool := pool }
  | .obscuraBridge (.claimDeposit claim) => claimDeposit b claim s
  | .obscuraBridge (.withdrawBridge msg) => do
    let bridge ← s.bridge.handleWithdrawBridge b msg
    pure { s with bridge := bridge }
  | .obscuraBridge (.updateHeliosHead update) => do
    let bridge ← s.bridge.handleUpdateHeliosHead b update
    pure { s with bridge := bridge }

end PlainRuntime

namespace ObscuraPrivacy

/-- The pool that the storage of the module stands for. -/
def plain (s : ObscuraPrivacy) : PlainPool where
  leaves := s.commitments
  spent := s.isSpent
  supply := s.supply
  txCount := s.txCount
  volume := s.volume
  sanctionsRoot := s.currentSanctionsRoot
  sanctionsOracle := s.sanctionsOracle.getD []

section Refinement

variable {b : Build} {s : ObscuraPrivacy}

theorem ensure_congr {p q : Prop} [Decidable p] [Decidable q] (h : p ↔ q) (failure : Failure) :
    ensure p failure = ensure q failure := by
  by_cases hp : p
  · rw [ensure_true hp, ensure_true (h.mp hp)]
  · rw [ensure_false hp, ensure_false fun hq => hp (h.mpr hq)]

theorem insertCommitment_plain (hs : s.tree.Faithful b) (commitment : Commitment) :
    plain <$> insertCommitment b commitment (s.pushCommitment commitment) =
      s.plain.add [commitment] := by
  obtain ⟨hnext, _, _⟩ := faithful_counters hs
  have hleaves : s.plain.leaves.length = s.commitments.length := rfl
  by_cases hroom : s.commitments.length < 2 ^ treeDepth
  · obtain ⟨t, ht⟩ := (insertCommitment_isOk hs commitment).mpr hroom
    obtain ⟨_, hshape⟩ := insertCommitment_ok ht
    have hfits : s.plain.leaves.length + [commitment].length ≤ 2 ^ treeDepth := hroom
    rw [ht, PlainPool.add, ensure_true hfits, ok_bind, hshape]
    rfl
  · have hfull : ¬((s.pushCommitment commitment).merkleNextIndex.getD 0).toNat < 2 ^ treeDepth := by
      show ¬(s.merkleNextIndex.getD 0).toNat < 2 ^ treeDepth
      rwa [hnext]
    have hunfit : ¬s.plain.leaves.length + [commitment].length ≤ 2 ^ treeDepth := hroom
    rw [PlainPool.add, ensure_false hunfit, insertCommitment, ensure_false hfull]
    rfl

theorem storeEncryptedNote_plain (commitment : Commitment) (blob : Bytes) (s : ObscuraPrivacy) :
    (s.storeEncryptedNote commitment blob).plain = s.plain := by
  unfold storeEncryptedNote
  split
  · rfl
  · rfl

theorem setSupply_plain (asset : AssetId) (amount : UInt64) (s : ObscuraPrivacy) :
    (s.setSupply asset amount).plain =
      { s.plain with supply := Function.update s.supply asset amount } := by
  have hsupply : (s.setSupply asset amount).supply = Function.update s.supply asset amount := by
    funext other
    by_cases hother : other = asset
    · rw [hother, Function.update_self]
      simp [supply, setSupply]
    · rw [Function.update_of_ne hother]
      simp [supply, setSupply, StateMap.set_of_ne _ _ hother]
  show PlainPool.mk _ _ _ _ _ _ _ = _
  rw [hsupply]
  rfl

theorem markAllSpent_plain (nullifiers : List Nullifier) (s : ObscuraPrivacy) :
    (s.markAllSpent nullifiers).plain = s.plain.spend nullifiers := by
  have hspent : (s.markAllSpent nullifiers).isSpent =
      fun n => s.isSpent n || decide (n ∈ nullifiers) := by
    funext n
    have hiff := markAllSpent_isSpent nullifiers n s
    rw [Bool.eq_iff_iff, Bool.or_eq_true, decide_eq_true_iff]
    exact hiff
  rw [markAllSpent_eq] at hspent ⊢
  show PlainPool.mk _ _ _ _ _ _ _ = _
  rw [hspent]
  rfl

/-- Adding leaves one after the other is adding them at once. -/
theorem add_cons (p : PlainPool) (commitment : Commitment) (rest : List Commitment) :
    p.add (commitment :: rest) = p.add [commitment] >>= PlainPool.add rest := by
  have hlen : (p.leaves ++ [commitment]).length = p.leaves.length + 1 := by simp
  by_cases hone : p.leaves.length + [commitment].length ≤ 2 ^ treeDepth
  · have hsplit : p.leaves.length + (commitment :: rest).length ≤ 2 ^ treeDepth ↔
        (p.leaves ++ [commitment]).length + rest.length ≤ 2 ^ treeDepth := by
      rw [hlen, List.length_cons]
      omega
    have hjoined : p.leaves ++ commitment :: rest = p.leaves ++ [commitment] ++ rest := by simp
    simp only [PlainPool.add]
    rw [ensure_congr hsplit, ensure_true hone, ok_bind, pure_bind, hjoined]
    rfl
  · have hall : ¬p.leaves.length + (commitment :: rest).length ≤ 2 ^ treeDepth := by
      simp only [List.length_cons, List.length_nil] at hone ⊢
      omega
    simp only [PlainPool.add]
    rw [ensure_false hone, ensure_false hall]
    rfl

theorem add_nil (p : PlainPool) (h : p.leaves.length ≤ 2 ^ treeDepth) : p.add [] = .ok p := by
  have hfits : p.leaves.length + ([] : List Commitment).length ≤ 2 ^ treeDepth := h
  simp only [PlainPool.add]
  rw [ensure_true hfits, ok_bind, List.append_nil]
  rfl

theorem storeOutputs_plain (blobs : List Bytes) (i : Nat) (outputs : List Commitment)
    (hs : s.tree.Faithful b) :
    plain <$> storeOutputs b blobs i outputs s = s.plain.add outputs := by
  induction outputs generalizing i s with
  | nil =>
    rw [add_nil s.plain hs.fits]
    rfl
  | cons commitment rest ih =>
    rw [add_cons, ← insertCommitment_plain hs, bind_map_left, storeOutputs, map_bind]
    cases ht : insertCommitment b commitment (s.pushCommitment commitment) with
    | error e => rfl
    | ok t =>
      have htree := (insertCommitment_faithful hs ht).1
      show plain <$> storeOutputs b blobs (i + 1) rest _ = t.plain.add rest
      cases blobs[i]? with
      | none => exact ih (i + 1) htree
      | some blob =>
        have hstored : (t.storeEncryptedNote commitment blob).tree.Faithful b := by
          rw [storeEncryptedNote_tree]
          exact htree
        rw [← storeEncryptedNote_plain commitment blob t]
        exact ih (i + 1) hstored

theorem handleShield_plain (hs : s.tree.Faithful b) (msg : ShieldMessage) :
    plain <$> handleShield b msg s = s.plain.shield b msg := by
  simp only [handleShield, PlainPool.shield, map_bind, map_pure]
  refine congrArg _ (funext fun commitment => ?_)
  rw [← insertCommitment_plain hs, bind_map_left]
  refine congrArg _ (funext fun t => ?_)
  have hstored := storeEncryptedNote_plain commitment msg.encryptedNote t
  have hsupply := congrArg PlainPool.supply hstored
  rw [PlainPool.credit, ← hstored]
  refine congrArg _ (funext fun total => ?_)
  rw [setSupply_plain]
  rfl

/-- The ring buffer answers for the roots of the list. -/
theorem isKnownRoot_plain (hs : s.tree.Faithful b) (hroots : s.tree.KeepsRoots b)
    (root : Bytes32) : s.isKnownRoot root = true ↔ root ∈ s.plain.recentRoots b := by
  have hlen : s.tree.leaves.length = s.commitments.length := List.length_map _
  rw [isKnownRoot_iff hs hroots, RecentRoot, hlen, PlainPool.recentRoots, List.mem_map]
  constructor
  · intro h
    obtain ⟨n, hpos, hle, hrecent, rfl⟩ := h
    refine ⟨s.commitments.length - n, List.mem_range.mpr ?_, ?_⟩
    · show s.commitments.length - n < min s.commitments.length 100
      omega
    · show fullRoot b.sha256 (s.tree.leaves.take (s.commitments.length - _)) = _
      rw [Nat.sub_sub_self hle]
  · intro h
    obtain ⟨i, hi, rfl⟩ := h
    have hi : i < min s.commitments.length 100 := List.mem_range.mp hi
    exact ⟨s.commitments.length - i, by omega, by omega, by omega, rfl⟩

theorem transferRootChecks_plain (hs : s.tree.Faithful b) (hroots : s.tree.KeepsRoots b)
    (msg : TransferMessage) : transferRootChecks b msg s = s.plain.checkRoots b msg := by
  have hknown : (msg.publicInputs.merkleRoot = zeroBytes ∨
      s.isKnownRoot msg.publicInputs.merkleRoot = true) ↔
      (msg.publicInputs.merkleRoot = zeroBytes ∨
        msg.publicInputs.merkleRoot ∈ s.plain.recentRoots b) := by
    rw [isKnownRoot_plain hs hroots]
  simp only [transferRootChecks, PlainPool.checkRoots]
  rw [ensure_congr hknown]
  rfl

theorem updateCompliance_plain (amount : UInt64) (s : ObscuraPrivacy) :
    plain <$> updateCompliance b amount s = s.plain.count b amount := by
  simp only [updateCompliance, map_bind, map_pure]
  rfl

theorem handleTransfer_plain (hs : s.tree.Faithful b) (hroots : s.tree.KeepsRoots b)
    (nowSecs : UInt64) (msg : TransferMessage) :
    plain <$> handleTransfer b nowSecs msg s = s.plain.transfer b nowSecs msg := by
  have hmarked := markAllSpent_faithful hs msg.nullifiers
  simp only [handleTransfer, finishTransfer, PlainPool.transfer, map_bind,
    transferRootChecks_plain hs hroots, ← markAllSpent_plain,
    ← storeOutputs_plain msg.encryptedOutputs 0 msg.outputCommitments hmarked, bind_map_left,
    updateCompliance_plain]
  rfl

theorem handleUnshield_plain (msg : UnshieldMessage) (s : ObscuraPrivacy) :
    plain <$> handleUnshield b msg s = s.plain.unshield b msg := by
  simp only [handleUnshield, PlainPool.unshield, map_bind, map_pure, setSupply_plain,
    ← markAllSpent_plain]
  rfl

theorem handleUpdateSanctionsRoot_plain (sender : Bytes) (msg : UpdateSanctionsRootMessage)
    (s : ObscuraPrivacy) :
    plain <$> handleUpdateSanctionsRoot sender msg s = s.plain.updateSanctionsRoot sender msg := by
  simp only [handleUpdateSanctionsRoot, map_bind, map_pure]
  rfl

theorem call_plain (hs : s.tree.Faithful b) (hroots : s.tree.KeepsRoots b) (ctx : TxContext)
    (msg : CallMessage) : plain <$> ObscuraPrivacy.call b ctx msg s = s.plain.call b ctx msg := by
  cases msg with
  | shield msg => exact handleShield_plain hs msg
  | transfer msg => exact handleTransfer_plain hs hroots ctx.nowSecs msg
  | unshield msg => exact handleUnshield_plain msg s
  | updateSanctionsRoot msg => exact handleUpdateSanctionsRoot_plain ctx.sender msg s

end Refinement

end ObscuraPrivacy

namespace Runtime

def plain (s : Runtime) : PlainRuntime := ⟨s.obscuraPrivacy.plain, s.obscuraBridge⟩

/-- What the abstraction rests on. -/
def TreeKept (b : Build) (s : Runtime) : Prop :=
  s.obscuraPrivacy.tree.Faithful b ∧ s.obscuraPrivacy.tree.KeepsRoots b

section Refinement

variable {b : Build} {s s' : Runtime} {tx : Tx}

theorem call_treeKept (hs : TreeKept b s) (h : call b tx s = .ok s') : TreeKept b s' := by
  let P : CommitmentTree → Prop := fun t => t.Faithful b ∧ t.KeepsRoots b
  have hinsert : ∀ (s s' : ObscuraPrivacy) (commitment : Commitment), P s.tree →
      ObscuraPrivacy.insertCommitment b commitment (s.pushCommitment commitment) = .ok s' →
      P s'.tree := by
    intro s s' commitment hs h
    exact ⟨(ObscuraPrivacy.insertCommitment_faithful hs.1 h).1,
      insertCommitment_keepsRoots hs.1 hs.2 h⟩
  exact step_tree (P := P) hinsert hs (step_of_call_ok h)

theorem handleClaimDeposit_plain (hs : TreeKept b s) (claim : ClaimDeposit) :
    plain <$> ObscuraBridge.handleClaimDeposit b claim s = s.plain.claimDeposit b claim := by
  simp only [ObscuraBridge.handleClaimDeposit, PlainRuntime.claimDeposit, map_bind, map_pure]
  refine congrArg _ (funext fun _ => ?_)
  rw [show s.plain.pool = s.obscuraPrivacy.plain from rfl,
    ← ObscuraPrivacy.insertCommitment_plain hs.1, bind_map_left]
  refine congrArg _ (funext fun privacy => ?_)
  simp only [PlainPool.credit, bind_assoc, pure_bind, plain, ObscuraPrivacy.setSupply_plain]
  rfl

theorem call_plain (hs : TreeKept b s) (tx : Tx) :
    plain <$> call b tx s = s.plain.call b tx := by
  obtain ⟨ctx, message⟩ := tx
  cases message with
  | obscuraPrivacy msg =>
    have hcall := ObscuraPrivacy.call_plain hs.1 hs.2 ctx msg
    show plain <$> (s.obscuraPrivacy.call b ctx msg >>= fun privacy =>
        pure { s with obscuraPrivacy := privacy }) =
      s.obscuraPrivacy.plain.call b ctx msg >>= fun pool => pure { s.plain with pool := pool }
    rw [← hcall, bind_map_left, map_bind]
    rfl
  | obscuraBridge msg =>
    cases msg with
    | claimDeposit claim => exact handleClaimDeposit_plain hs claim
    | withdrawBridge msg =>
      simp only [call, ObscuraBridge.call, map_bind, map_pure]
      rfl
    | updateHeliosHead update =>
      simp only [call, ObscuraBridge.call, map_bind, map_pure]
      rfl

end Refinement

end Runtime

/-- The storage of the two modules, with its incremental tree, its ring of roots and its maps,
behaves like a list of leaves and a set of spent notes: in every run the same transactions are
accepted, and the state stands for that of the plain pool. -/
theorem runtime_refines_plain (b : Build) (config : BridgeConfig) (txs : List Tx) :
    (Runtime.run b config txs).plain =
        settleAll (PlainRuntime.call b) (PlainRuntime.genesis config) txs ∧
      Runtime.acceptedTxs b config txs =
        accepted (PlainRuntime.call b) (PlainRuntime.genesis config) txs ∧
      ∀ tx, Runtime.plain <$> Runtime.call b tx (Runtime.run b config txs) =
        PlainRuntime.call b tx
          (settleAll (PlainRuntime.call b) (PlainRuntime.genesis config) txs) := by
  have hstart : Runtime.TreeKept b (Runtime.genesis b config) :=
    ⟨genesis_tree_faithful b, genesis_keepsRoots b⟩
  obtain ⟨hstate, haccepted⟩ := settleAll_map_of_invariant (g := id) hstart
    (fun _ _ _ hs h => Runtime.call_treeKept hs h) (fun tx s hs => Runtime.call_plain hs tx) txs
  rw [List.map_id, List.map_id] at haccepted
  rw [List.map_id] at hstate
  refine ⟨hstate, haccepted.symm, fun tx => ?_⟩
  have hkept : Runtime.TreeKept b (Runtime.run b config txs) := run_keepsRoots b config txs
  rw [Runtime.call_plain hkept tx]
  exact congrArg (PlainRuntime.call b tx) hstate

end ObscuraNetwork
