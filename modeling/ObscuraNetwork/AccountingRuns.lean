import ObscuraNetwork.AccountingSteps

namespace ObscuraNetwork

open ObscuraPrivacy ObscuraBridge

theorem handleWithdrawBridge_totals {b : Build} {msg : WithdrawBridge} {s s' : ObscuraBridge}
    (h : handleWithdrawBridge b msg s = .ok s') :
    s'.totalBridged = s.totalBridged ∧ s'.claimCount = s.claimCount := by
  simp only [handleWithdrawBridge, bind_ok, pure_ok] at h
  obtain ⟨_, _, _, _, _, _, _, _, _, _, _, _, rfl⟩ := h
  exact ⟨rfl, rfl⟩

theorem handleUpdateHeliosHead_totals {b : Build} {update : UpdateHeliosHead}
    {s s' : ObscuraBridge} (h : handleUpdateHeliosHead b update s = .ok s') :
    s'.totalBridged = s.totalBridged ∧ s'.claimCount = s.claimCount := by
  simp only [handleUpdateHeliosHead, bind_ok, pure_ok] at h
  obtain ⟨_, _, _, _, _, _, _, _, _, _, rfl⟩ := h
  exact ⟨rfl, rfl⟩

/-- The tree is faithful and no more deposits are claimed than there are leaves. -/
structure Counted (b : Build) (s : Runtime) : Prop where
  faithful : s.obscuraPrivacy.tree.Faithful b
  claims : s.obscuraBridge.claimCount.toNat ≤ s.obscuraPrivacy.commitments.length

theorem Counted.claims_fit {b : Build} {s : Runtime} (hs : Counted b s) :
    s.obscuraBridge.claimCount.toNat + (1 : UInt64).toNat < 2 ^ 64 := by
  have hsmall := (faithful_counters hs.faithful).2.2
  have hclaims := hs.claims
  rw [UInt64.toNat_one]
  omega

theorem step_counted {b : Build} {s s' : Runtime} {tx : Tx} (hs : Counted b s)
    (h : Runtime.Step b s tx s') : Counted b s' := by
  refine ⟨step_faithful hs.faithful h, ?_⟩
  have hclaims := hs.claims
  have hgrow : s.obscuraPrivacy.commitments.length ≤ s'.obscuraPrivacy.commitments.length := by
    rw [step_commitments h, List.length_append]
    omega
  cases h with
  | shield ctx msg privacy h => exact hclaims.trans hgrow
  | transfer ctx msg privacy h => exact hclaims.trans hgrow
  | unshield ctx msg privacy h => exact hclaims.trans hgrow
  | updateSanctionsRoot ctx msg privacy h => exact hclaims.trans hgrow
  | claimDeposit ctx claim s' h =>
    obtain ⟨_, t, shielded, sum, claims, ht, _, _, hcount, rfl⟩ := handleClaimDeposit_ok.mp h
    have hlist := (insertCommitment_faithful hs.faithful ht).2
    have hval := addU64_one hcount hs.claims_fit
    have hlen : t.commitments.length = s.obscuraPrivacy.commitments.length + 1 := by
      rw [hlist]
      simp
    calc claims.toNat = s.obscuraBridge.claimCount.toNat + 1 := hval
      _ ≤ s.obscuraPrivacy.commitments.length + 1 := by omega
      _ = t.commitments.length := hlen.symm
  | withdrawBridge ctx msg bridge h => exact (handleWithdrawBridge_totals h).2 ▸ hclaims
  | updateHeliosHead ctx update bridge h => exact (handleUpdateHeliosHead_totals h).2 ▸ hclaims

theorem run_counted (b : Build) (config : BridgeConfig) (txs : List Tx) :
    Counted b (Runtime.run b config txs) :=
  Runtime.run_induction (P := fun s _ => Counted b s)
    ⟨genesis_tree_faithful b, Nat.zero_le _⟩ (fun _ _ _ _ hs h => step_counted hs h) txs

def Tx.IsPoolCall (tx : Tx) : Prop :=
  match tx.call with
  | .obscuraPrivacy (.updateSanctionsRoot _) => False
  | .obscuraPrivacy _ => True
  | .obscuraBridge (.claimDeposit _) => True
  | .obscuraBridge _ => False

/-- The verdict on a pool call that keeps the accounts: no panic, and exact sums if accepted. -/
def KeepsAccounts (outcome : Outcome Runtime) (done : List Tx) : Prop :=
  NoPanic outcome ∧ ∀ s', outcome = .ok s' → ExactAccounting s' done

theorem keepsAccounts_refused {outcome : Outcome Runtime} {done : List Tx} (h : Refused outcome) :
    KeepsAccounts outcome done :=
  ⟨h.noPanic, fun s' hs' => absurd hs' (h.ne_ok s')⟩

theorem keepsAccounts_ok {s' : Runtime} {done : List Tx} :
    KeepsAccounts (.ok s') done ↔ ExactAccounting s' done := by
  refine ⟨fun h => h.2 s' rfl, fun h => ⟨noPanic_ok s', ?_⟩⟩
  intro t ht
  cases ht
  exact h

theorem not_keepsAccounts_panic {message : String} {done : List Tx} :
    ¬KeepsAccounts (.error (.panic message)) done := fun h => h.1 message rfl

section Additions

variable {b : Build} {x y : UInt64} {k : UInt64 → Outcome Runtime} {done : List Tx}

theorem keepsAccounts_after_add (h : KeepsAccounts (addU64 b x y >>= k) done) :
    KeepsAccounts (k (x + y)) done := by
  by_cases hlt : x.toNat + y.toNat < 2 ^ 64
  · rwa [addU64_of_lt hlt, ok_bind] at h
  · rcases addU64_overflow (b := b) hlt with ⟨message, hadd⟩ | ⟨hadd, _⟩
    · rw [hadd, error_bind] at h
      exact absurd h not_keepsAccounts_panic
    · rwa [hadd, ok_bind] at h

/-- An addition whose result must be exact for the accounts to be kept has to fit. -/
theorem keepsAccounts_add
    (exact : KeepsAccounts (k (x + y)) done → (x + y).toNat = x.toNat + y.toNat) :
    KeepsAccounts (addU64 b x y >>= k) done ↔
      x.toNat + y.toNat < 2 ^ 64 ∧ KeepsAccounts (k (x + y)) done := by
  constructor
  · intro h
    have hafter := keepsAccounts_after_add h
    have hexact := exact hafter
    have := (x + y).toNat_lt
    exact ⟨by omega, hafter⟩
  · intro h
    obtain ⟨hlt, h⟩ := h
    rwa [addU64_of_lt hlt, ok_bind]

end Additions

section PoolCalls

variable {b : Build} {s : Runtime} {done : List Tx} {ctx : TxContext}

theorem shield_keeps_iff (hc : Counted b s) (hs : ExactAccounting s done) (msg : ShieldMessage) :
    KeepsAccounts (Runtime.call b ⟨ctx, .obscuraPrivacy (.shield msg)⟩ s)
        (done ++ [⟨ctx, .obscuraPrivacy (.shield msg)⟩]) ↔
      Fits b s ⟨ctx, .obscuraPrivacy (.shield msg)⟩ := by
  rcases handleShield_spec hc.faithful msg with ⟨hno, hrefused⟩ | ⟨hyes, t, ht, heq⟩
  · exact iff_of_true (keepsAccounts_refused (hrefused.bind _)) fun h => absurd h hno
  · have hcall : Runtime.call b ⟨ctx, .obscuraPrivacy (.shield msg)⟩ s =
        addU64 b (s.obscuraPrivacy.supply msg.note.assetId) msg.note.amount >>= fun sum =>
          .ok { s with obscuraPrivacy := t.setSupply msg.note.assetId sum } := by
      simp only [Runtime.call, ObscuraPrivacy.call, heq]
      cases addU64 b (s.obscuraPrivacy.supply msg.note.assetId) msg.note.amount <;> rfl
    have hfits : Fits b s ⟨ctx, .obscuraPrivacy (.shield msg)⟩ ↔
        (s.obscuraPrivacy.supply msg.note.assetId).toNat + msg.note.amount.toNat < 2 ^ 64 :=
      ⟨fun h => h hyes, fun h _ => h⟩
    rw [hcall, hfits, keepsAccounts_add, keepsAccounts_ok, and_iff_left_iff_imp]
    · intro hlt
      rw [← ht.supply] at hlt ⊢
      exact hs.extend (fun asset => ht.supply ▸ supply_after_add hlt asset)
        (congrArg UInt64.toNat ht.volume) (congrArg UInt64.toNat ht.txCount) rfl rfl
    · intro keeps
      have hafter := (keepsAccounts_ok.mp keeps).supply msg.note.assetId
      have hbefore := hs.supply msg.note.assetId
      simp only [setSupply_supply_self, total_concat, Tx.putIn, Tx.paidOut, if_pos] at hafter
      omega

theorem transfer_keeps_iff (hc : Counted b s) (hs : ExactAccounting s done)
    (msg : TransferMessage) :
    KeepsAccounts (Runtime.call b ⟨ctx, .obscuraPrivacy (.transfer msg)⟩ s)
        (done ++ [⟨ctx, .obscuraPrivacy (.transfer msg)⟩]) ↔
      Fits b s ⟨ctx, .obscuraPrivacy (.transfer msg)⟩ := by
  rcases handleTransfer_spec hc.faithful ctx.nowSecs msg with
    ⟨hno, hrefused⟩ | ⟨hyes, t, ht, heq⟩
  · exact iff_of_true (keepsAccounts_refused (hrefused.bind _)) fun h h' => absurd ⟨h, h'⟩ hno
  · have hcall : Runtime.call b ⟨ctx, .obscuraPrivacy (.transfer msg)⟩ s =
        addU64 b s.obscuraPrivacy.txCount 1 >>= fun count =>
        addU64 b s.obscuraPrivacy.volume msg.publicInputs.transferAmount >>= fun volume =>
          .ok { s with obscuraPrivacy := { t with
            complianceTxCount := some count, complianceTotalVolume := some volume } } := by
      simp only [Runtime.call, ObscuraPrivacy.call, heq, ← ht.txCount, ← ht.volume]
      simp only [updateCompliance, ObscuraPrivacy.txCount, ObscuraPrivacy.volume]
      cases addU64 b (t.complianceTxCount.getD 0) 1 with
      | error e => rfl
      | ok count =>
        cases addU64 b (t.complianceTotalVolume.getD 0) msg.publicInputs.transferAmount <;> rfl
    have hfits : Fits b s ⟨ctx, .obscuraPrivacy (.transfer msg)⟩ ↔
        s.obscuraPrivacy.txCount.toNat + (1 : UInt64).toNat < 2 ^ 64 ∧
        s.obscuraPrivacy.volume.toNat + msg.publicInputs.transferAmount.toNat < 2 ^ 64 :=
      ⟨fun h => h hyes.1 hyes.2, fun h _ _ => h⟩
    rw [hcall, hfits, keepsAccounts_add, keepsAccounts_add, keepsAccounts_ok, ← and_assoc,
      and_iff_left_iff_imp]
    · intro h
      obtain ⟨hcount, hvolume⟩ := h
      exact hs.extend (fun asset => congrArg UInt64.toNat (congrFun ht.supply asset))
        (toNat_add_of_lt hvolume) (toNat_add_of_lt hcount) rfl rfl
    · intro keeps
      have hafter := (keepsAccounts_ok.mp keeps).volume
      rw [total_concat, ← hs.volume] at hafter
      exact hafter
    · intro keeps
      have hafter := (keepsAccounts_ok.mp (keepsAccounts_after_add keeps)).txCount
      rw [total_concat, ← hs.txCount] at hafter
      exact hafter

theorem unshield_keeps_iff (hs : ExactAccounting s done) (msg : UnshieldMessage) :
    KeepsAccounts (Runtime.call b ⟨ctx, .obscuraPrivacy (.unshield msg)⟩ s)
        (done ++ [⟨ctx, .obscuraPrivacy (.unshield msg)⟩]) ↔
      Fits b s ⟨ctx, .obscuraPrivacy (.unshield msg)⟩ := by
  rcases handleUnshield_spec b s.obscuraPrivacy msg with ⟨hno, hrefused⟩ | ⟨hyes, heq⟩
  · exact iff_of_true (keepsAccounts_refused (hrefused.bind _)) fun h h' => absurd ⟨h, h'⟩ hno
  · have hfits : Fits b s ⟨ctx, .obscuraPrivacy (.unshield msg)⟩ ↔ msg.publicInputs.amount.toNat ≤
        (s.obscuraPrivacy.supply msg.publicInputs.assetId).toNat :=
      ⟨fun h => h hyes.1 hyes.2, fun h _ _ => h⟩
    have hcall : Runtime.call b ⟨ctx, .obscuraPrivacy (.unshield msg)⟩ s = .ok { s with
        obscuraPrivacy := (s.obscuraPrivacy.markSpent msg.nullifier).setSupply
          msg.publicInputs.assetId (saturatingSub (s.obscuraPrivacy.supply msg.publicInputs.assetId)
            msg.publicInputs.amount) } := by
      simp only [Runtime.call, ObscuraPrivacy.call, heq, ok_bind]
      rfl
    rw [hcall, hfits, keepsAccounts_ok]
    constructor
    · intro hafter
      have hafter := hafter.supply msg.publicInputs.assetId
      have hbefore := hs.supply msg.publicInputs.assetId
      simp only [setSupply_supply_self, toNat_saturatingSub, total_concat, Tx.putIn, Tx.paidOut,
        if_pos] at hafter
      omega
    · intro hle
      exact hs.extend
        (fun asset => supply_after_sub (s := s.obscuraPrivacy.markSpent msg.nullifier) hle asset)
        rfl rfl rfl rfl

theorem claim_keeps_iff (hc : Counted b s) (hs : ExactAccounting s done) (claim : ClaimDeposit) :
    KeepsAccounts (Runtime.call b ⟨ctx, .obscuraBridge (.claimDeposit claim)⟩ s)
        (done ++ [⟨ctx, .obscuraBridge (.claimDeposit claim)⟩]) ↔
      Fits b s ⟨ctx, .obscuraBridge (.claimDeposit claim)⟩ := by
  rcases handleClaimDeposit_spec hc.faithful claim with ⟨hno, hrefused⟩ | ⟨hyes, t, bridge, ht, heq⟩
  · exact iff_of_true (keepsAccounts_refused hrefused) fun h h' => absurd ⟨h, h'⟩ hno
  · have hfits : Fits b s ⟨ctx, .obscuraBridge (.claimDeposit claim)⟩ ↔
        (s.obscuraPrivacy.supply bridgedUsdcAsset).toNat + claim.publicInputs.amount.toNat <
          2 ^ 64 ∧
        s.obscuraBridge.totalBridged.toNat + claim.publicInputs.amount.toNat < 2 ^ 64 :=
      ⟨fun h => h hyes.1 hyes.2, fun h _ _ => h⟩
    have hclaims := hc.claims_fit
    have hcall : Runtime.call b ⟨ctx, .obscuraBridge (.claimDeposit claim)⟩ s =
        handleClaimDeposit b claim s := rfl
    rw [hcall, hfits, heq, keepsAccounts_add, keepsAccounts_add, addU64_of_lt hclaims, ok_bind,
      ← and_assoc, and_iff_left_iff_imp]
    · intro h
      obtain ⟨hsupply, hbridged⟩ := h
      rw [← ht.supply] at hsupply ⊢
      refine keepsAccounts_ok.mpr (hs.extend (fun asset => ?_) (congrArg UInt64.toNat ht.volume)
        (congrArg UInt64.toNat ht.txCount) (toNat_add_of_lt hbridged) (toNat_add_of_lt hclaims))
      exact ht.supply ▸ supply_after_add hsupply asset
    · intro keeps
      have hafter := (keepsAccounts_ok.mp (keepsAccounts_after_add keeps)).bridged
      rw [total_concat, ← hs.bridged] at hafter
      exact hafter
    · intro keeps
      have hexact := keepsAccounts_ok.mp (keepsAccounts_after_add (keepsAccounts_after_add keeps))
      have hafter := hexact.supply bridgedUsdcAsset
      have hbefore := hs.supply bridgedUsdcAsset
      simp only [setSupply_supply_self, total_concat, Tx.putIn, Tx.paidOut, if_pos] at hafter
      omega

end PoolCalls

theorem poolCall_keeps_iff {b : Build} {s : Runtime} {done : List Tx} {tx : Tx} (hc : Counted b s)
    (hs : ExactAccounting s done) (hpool : tx.IsPoolCall) :
    KeepsAccounts (Runtime.call b tx s) (done ++ [tx]) ↔ Fits b s tx := by
  obtain ⟨ctx, call⟩ := tx
  cases call with
  | obscuraPrivacy msg =>
    cases msg with
    | shield msg => exact shield_keeps_iff hc hs msg
    | transfer msg => exact transfer_keeps_iff hc hs msg
    | unshield msg => exact unshield_keeps_iff hs msg
    | updateSanctionsRoot msg => exact hpool.elim
  | obscuraBridge msg =>
    cases msg with
    | claimDeposit claim => exact claim_keeps_iff hc hs claim
    | withdrawBridge msg => exact hpool.elim
    | updateHeliosHead update => exact hpool.elim

theorem otherCall_exact {b : Build} {s s' : Runtime} {done : List Tx} {tx : Tx}
    (hs : ExactAccounting s done) (hother : ¬tx.IsPoolCall) (h : Runtime.Step b s tx s') :
    ExactAccounting s' (done ++ [tx]) := by
  cases h with
  | shield ctx msg privacy h => exact absurd trivial hother
  | transfer ctx msg privacy h => exact absurd trivial hother
  | unshield ctx msg privacy h => exact absurd trivial hother
  | claimDeposit ctx claim s' h => exact absurd trivial hother
  | updateSanctionsRoot ctx msg privacy h =>
    rw [handleUpdateSanctionsRoot_ok h]
    exact hs.extend (fun _ => rfl) rfl rfl rfl rfl
  | withdrawBridge ctx msg bridge h =>
    obtain ⟨hbridged, hclaims⟩ := handleWithdrawBridge_totals h
    exact hs.extend (fun _ => rfl) rfl rfl (congrArg UInt64.toNat hbridged)
      (congrArg UInt64.toNat hclaims)
  | updateHeliosHead ctx update bridge h =>
    obtain ⟨hbridged, hclaims⟩ := handleUpdateHeliosHead_totals h
    exact hs.extend (fun _ => rfl) rfl rfl (congrArg UInt64.toNat hbridged)
      (congrArg UInt64.toNat hclaims)

end ObscuraNetwork
