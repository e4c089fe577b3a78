import ObscuraNetwork.TreeCapacity

namespace ObscuraNetwork

/-- What a transaction puts into the pool of an asset when it is accepted. -/
def Tx.putIn (asset : AssetId) (tx : Tx) : Nat :=
  match tx.call with
  | .obscuraPrivacy (.shield msg) => if msg.note.assetId = asset then msg.note.amount.toNat else 0
  | .obscuraBridge (.claimDeposit claim) =>
    if bridgedUsdcAsset = asset then claim.publicInputs.amount.toNat else 0
  | _ => 0

def Tx.paidOut (asset : AssetId) (tx : Tx) : Nat :=
  match tx.call with
  | .obscuraPrivacy (.unshield msg) =>
    if msg.publicInputs.assetId = asset then msg.publicInputs.amount.toNat else 0
  | _ => 0

/-- What it adds to the compliance volume and to the number of transfers. -/
def Tx.volume (tx : Tx) : Nat :=
  match tx.call with
  | .obscuraPrivacy (.transfer msg) => msg.publicInputs.transferAmount.toNat
  | _ => 0

def Tx.transfers (tx : Tx) : Nat :=
  match tx.call with
  | .obscuraPrivacy (.transfer _) => 1
  | _ => 0

/-- What it adds to the bridged total and to the number of claims. -/
def Tx.bridged (tx : Tx) : Nat :=
  match tx.call with
  | .obscuraBridge (.claimDeposit claim) => claim.publicInputs.amount.toNat
  | _ => 0

def Tx.claims (tx : Tx) : Nat :=
  match tx.call with
  | .obscuraBridge (.claimDeposit _) => 1
  | _ => 0

def total (f : Tx → Nat) (txs : List Tx) : Nat := (txs.map f).sum

@[simp] theorem total_concat (f : Tx → Nat) (txs : List Tx) (tx : Tx) :
    total f (txs ++ [tx]) = total f txs + f tx := by
  simp [total]

namespace ObscuraPrivacy

def volume (s : ObscuraPrivacy) : UInt64 := s.complianceTotalVolume.getD 0

def txCount (s : ObscuraPrivacy) : UInt64 := s.complianceTxCount.getD 0

structure SameCounters (s s' : ObscuraPrivacy) : Prop where
  supply : s'.supply = s.supply
  volume : s'.volume = s.volume
  txCount : s'.txCount = s.txCount

theorem SameLedger.counters {s s' : ObscuraPrivacy} (h : SameLedger s s') : SameCounters s s' :=
  ⟨h.supply, congrArg (Option.getD · 0) h.complianceTotalVolume,
    congrArg (Option.getD · 0) h.complianceTxCount⟩

theorem markAllSpent_counters (nullifiers : List Nullifier) (s : ObscuraPrivacy) :
    SameCounters s (s.markAllSpent nullifiers) := by
  rw [markAllSpent_eq]
  exact ⟨rfl, rfl, rfl⟩

theorem SameCounters.trans {s t u : ObscuraPrivacy} (h : SameCounters s t)
    (h' : SameCounters t u) : SameCounters s u :=
  ⟨h'.supply.trans h.supply, h'.volume.trans h.volume, h'.txCount.trans h.txCount⟩

/-- What `handle_shield` asks of a message before it adds to the supply. -/
structure ShieldChecks (msg : ShieldMessage) (s : ObscuraPrivacy) : Prop where
  amount : msg.note.amount ≠ 0
  ownerPubkey : msg.note.ownerPubkey.length = 32
  room : s.commitments.length < 2 ^ treeDepth

end ObscuraPrivacy

namespace ObscuraBridge

def totalBridged (s : ObscuraBridge) : UInt64 := s.totalBridgedUsdc.getD 0

def claimCount (s : ObscuraBridge) : UInt64 := s.totalClaims.getD 0

end ObscuraBridge

structure ExactAccounting (s : Runtime) (done : List Tx) : Prop where
  supply : ∀ asset, ((s.obscuraPrivacy.supply asset).toNat : Int) =
    total (Tx.putIn asset) done - total (Tx.paidOut asset) done
  volume : s.obscuraPrivacy.volume.toNat = total Tx.volume done
  txCount : s.obscuraPrivacy.txCount.toNat = total Tx.transfers done
  bridged : s.obscuraBridge.totalBridged.toNat = total Tx.bridged done
  claims : s.obscuraBridge.claimCount.toNat = total Tx.claims done

theorem ExactAccounting.solvent {s : Runtime} {done : List Tx} (h : ExactAccounting s done)
    (asset : AssetId) : total (Tx.paidOut asset) done ≤ total (Tx.putIn asset) done := by
  have := h.supply asset
  omega

/-- The condition on a transaction and the state before it: if it passes the checks of its handler,
its additions stay below `2^64` and its subtraction above zero. -/
def Fits (b : Build) (s : Runtime) (tx : Tx) : Prop :=
  match tx.call with
  | .obscuraPrivacy (.shield msg) =>
    ObscuraPrivacy.ShieldChecks msg s.obscuraPrivacy →
      (s.obscuraPrivacy.supply msg.note.assetId).toNat + msg.note.amount.toNat < 2 ^ 64
  | .obscuraPrivacy (.transfer msg) =>
    ObscuraPrivacy.TransferChecks b tx.context.nowSecs msg s.obscuraPrivacy →
      s.obscuraPrivacy.commitments.length + msg.outputCommitments.length ≤ 2 ^ treeDepth →
      s.obscuraPrivacy.txCount.toNat + 1 < 2 ^ 64 ∧
      s.obscuraPrivacy.volume.toNat + msg.publicInputs.transferAmount.toNat < 2 ^ 64
  | .obscuraPrivacy (.unshield msg) =>
    verifyUnshieldProof b msg.proof msg.publicInputs = .ok () →
      s.obscuraPrivacy.isSpent msg.nullifier = false →
      msg.publicInputs.amount.toNat ≤ (s.obscuraPrivacy.supply msg.publicInputs.assetId).toNat
  | .obscuraBridge (.claimDeposit claim) =>
    ObscuraBridge.claimChecks b claim s.obscuraBridge = .ok () →
      s.obscuraPrivacy.commitments.length < 2 ^ treeDepth →
      (s.obscuraPrivacy.supply bridgedUsdcAsset).toNat + claim.publicInputs.amount.toNat < 2 ^ 64 ∧
      s.obscuraBridge.totalBridged.toNat + claim.publicInputs.amount.toNat < 2 ^ 64
  | _ => True

theorem exact_genesis (b : Build) (config : BridgeConfig) :
    ExactAccounting (Runtime.genesis b config) [] where
  supply _ := rfl
  volume := rfl
  txCount := rfl
  bridged := rfl
  claims := rfl

theorem ExactAccounting.extend {s s' : Runtime} {done : List Tx} {tx : Tx}
    (hs : ExactAccounting s done)
    (supply : ∀ asset, (s'.obscuraPrivacy.supply asset).toNat + tx.paidOut asset =
      (s.obscuraPrivacy.supply asset).toNat + tx.putIn asset)
    (volume : s'.obscuraPrivacy.volume.toNat = s.obscuraPrivacy.volume.toNat + tx.volume)
    (txCount : s'.obscuraPrivacy.txCount.toNat = s.obscuraPrivacy.txCount.toNat + tx.transfers)
    (bridged : s'.obscuraBridge.totalBridged.toNat =
      s.obscuraBridge.totalBridged.toNat + tx.bridged)
    (claims : s'.obscuraBridge.claimCount.toNat = s.obscuraBridge.claimCount.toNat + tx.claims) :
    ExactAccounting s' (done ++ [tx]) := by
  refine ⟨fun asset => ?_, ?_, ?_, ?_, ?_⟩
  · have hbefore := hs.supply asset
    have hstep := supply asset
    rw [total_concat, total_concat]
    omega
  · rw [total_concat, volume, hs.volume]
  · rw [total_concat, txCount, hs.txCount]
  · rw [total_concat, bridged, hs.bridged]
  · rw [total_concat, claims, hs.claims]

section Supplies

variable {s : ObscuraPrivacy} {asset : AssetId} {amount : UInt64}

theorem supply_after_add (hfits : (s.supply asset).toNat + amount.toNat < 2 ^ 64) (a : AssetId) :
    ((s.setSupply asset (s.supply asset + amount)).supply a).toNat =
      (s.supply a).toNat + if asset = a then amount.toNat else 0 := by
  by_cases h : asset = a
  · subst h
    rw [ObscuraPrivacy.setSupply_supply_self, toNat_add_of_lt hfits, if_pos rfl]
  · rw [ObscuraPrivacy.setSupply_supply_of_ne _ _ (Ne.symm h), if_neg h, Nat.add_zero]

theorem supply_after_sub (hfits : amount.toNat ≤ (s.supply asset).toNat) (a : AssetId) :
    ((s.setSupply asset (saturatingSub (s.supply asset) amount)).supply a).toNat +
      (if asset = a then amount.toNat else 0) = (s.supply a).toNat := by
  by_cases h : asset = a
  · subst h
    rw [ObscuraPrivacy.setSupply_supply_self, toNat_saturatingSub, if_pos rfl]
    omega
  · rw [ObscuraPrivacy.setSupply_supply_of_ne _ _ (Ne.symm h), if_neg h, Nat.add_zero]

end Supplies

end ObscuraNetwork
