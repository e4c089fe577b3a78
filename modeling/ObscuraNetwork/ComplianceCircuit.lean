import ObscuraNetwork.PoolAccounting
import ObscuraNetwork.TransferGate
import ObscuraNetwork.UsdcBacking

namespace ObscuraNetwork

open ObscuraPrivacy

structure ComplianceWitness where
  amounts : List UInt64
  regulatoryLimit : UInt64
  deriving DecidableEq

structure CompliancePublicOutputs where
  totalVolume : UInt64
  regulatoryLimit : UInt64
  withinLimit : Bool
  txCount : UInt32
  deriving DecidableEq

/-- The fold of `main` with `checked_add` and `expect`. -/
def addVolume : UInt64 → List UInt64 → Outcome UInt64
  | acc, [] => pure acc
  | acc, a :: rest => do
    ensure (acc.toNat + a.toNat < 2 ^ 64) (.panic "volume overflow")
    addVolume (acc + a) rest

/-- `main` of the compliance circuit. -/
def complianceMain (witness : ComplianceWitness) : Outcome CompliancePublicOutputs := do
  let totalVolume ← addVolume 0 witness.amounts
  pure
    { totalVolume
      regulatoryLimit := witness.regulatoryLimit
      withinLimit := decide (totalVolume ≤ witness.regulatoryLimit)
      txCount := UInt32.ofNat witness.amounts.length }

/-- `prove_compliance` in front of a prover. -/
def proveCompliance {α : Type} (prover : ComplianceWitness → Outcome α) (amounts : List UInt64)
    (regulatoryLimit : UInt64) : Outcome α := do
  ensure (amounts ≠ []) (.bail "No amounts provided")
  prover { amounts, regulatoryLimit }

/-- The amount a transfer states. -/
def Tx.transferAmount (tx : Tx) : Option UInt64 :=
  match tx.call with
  | .obscuraPrivacy (.transfer msg) => some msg.publicInputs.transferAmount
  | _ => none

def transferAmounts (txs : List Tx) : List UInt64 := txs.filterMap Tx.transferAmount

def sumOf (amounts : List UInt64) : Nat := (amounts.map UInt64.toNat).sum

/-- The counters are the totals of what was accepted, cut to 64 bits; a checked build never cuts. -/
structure CountersWrap (b : Build) (s : ObscuraPrivacy) (done : List Tx) : Prop where
  volume : s.volume.toNat = total Tx.volume done % 2 ^ 64
  txCount : s.txCount.toNat = total Tx.transfers done % 2 ^ 64
  checked : b.overflowChecks = true → total Tx.volume done < 2 ^ 64

section Disclosure

variable {b : Build}

theorem addVolume_spec (acc : UInt64) (amounts : List UInt64) :
    (acc.toNat + sumOf amounts < 2 ^ 64 ∧ ∃ volume, addVolume acc amounts = .ok volume ∧
      volume.toNat = acc.toNat + sumOf amounts) ∨
    2 ^ 64 ≤ acc.toNat + sumOf amounts ∧
      addVolume acc amounts = .error (.panic "volume overflow") := by
  induction amounts generalizing acc with
  | nil =>
    have hacc := acc.toNat_lt
    exact Or.inl ⟨by simpa [sumOf] using hacc, acc, rfl, by simp [sumOf]⟩
  | cons a rest ih =>
    have hsum : sumOf (a :: rest) = a.toNat + sumOf rest := by simp [sumOf]
    rw [addVolume, hsum]
    by_cases hfits : acc.toNat + a.toNat < 2 ^ 64
    · have hadd : (acc + a).toNat = acc.toNat + a.toNat := toNat_add_of_lt hfits
      rw [ensure_true hfits, ok_bind, ← Nat.add_assoc, ← hadd]
      exact ih (acc + a)
    · rw [ensure_false hfits]
      exact Or.inr ⟨by omega, rfl⟩

theorem transferAmount_cases (tx : Tx) :
    (tx.transferAmount = none ∧ tx.volume = 0 ∧ tx.transfers = 0) ∨
    ∃ a, tx.transferAmount = some a ∧ tx.volume = a.toNat ∧ tx.transfers = 1 := by
  obtain ⟨ctx, call⟩ := tx
  cases call with
  | obscuraPrivacy msg =>
    cases msg with
    | transfer msg => exact Or.inr ⟨_, rfl, rfl, rfl⟩
    | shield msg => exact Or.inl ⟨rfl, rfl, rfl⟩
    | unshield msg => exact Or.inl ⟨rfl, rfl, rfl⟩
    | updateSanctionsRoot msg => exact Or.inl ⟨rfl, rfl, rfl⟩
  | obscuraBridge msg => cases msg <;> exact Or.inl ⟨rfl, rfl, rfl⟩

/-- The amounts that are stated are what the totals add up. -/
theorem transferAmounts_totals (txs : List Tx) :
    sumOf (transferAmounts txs) = total Tx.volume txs ∧
      (transferAmounts txs).length = total Tx.transfers txs := by
  induction txs with
  | nil => exact ⟨rfl, rfl⟩
  | cons tx rest ih =>
    obtain ⟨hvolume, htransfers⟩ := ih
    simp only [sumOf, transferAmounts, total, List.map_cons, List.sum_cons] at hvolume htransfers ⊢
    rcases transferAmount_cases tx with ⟨hamount, hv, ht⟩ | ⟨a, hamount, hv, ht⟩
    · rw [List.filterMap_cons_none hamount, hvolume, htransfers, hv, ht]
      omega
    · rw [List.filterMap_cons_some hamount, List.map_cons, List.sum_cons, List.length_cons, hvolume,
        htransfers, hv, ht]
      omega

theorem CountersWrap.same {s s' : ObscuraPrivacy} {done : List Tx} {tx : Tx}
    (hs : CountersWrap b s done) (hv : s'.volume = s.volume) (hc : s'.txCount = s.txCount)
    (hvolume : tx.volume = 0) (htransfers : tx.transfers = 0) :
    CountersWrap b s' (done ++ [tx]) := by
  refine ⟨?_, ?_, fun hb => ?_⟩
  · rw [hv, hs.volume, total_concat, hvolume, Nat.add_zero]
  · rw [hc, hs.txCount, total_concat, htransfers, Nat.add_zero]
  · rw [total_concat, hvolume, Nat.add_zero]
    exact hs.checked hb

theorem CountersWrap.count {s t s' : ObscuraPrivacy} {done : List Tx} {ctx : TxContext}
    {msg : TransferMessage} (hs : CountersWrap b s done) (ht : SameCounters s t)
    (h : updateCompliance b msg.publicInputs.transferAmount t = .ok s') :
    CountersWrap b s' (done ++ [⟨ctx, .obscuraPrivacy (.transfer msg)⟩]) := by
  simp only [updateCompliance, bind_ok, pure_ok] at h
  obtain ⟨count, hcount, volume, hvolume, rfl⟩ := h
  have hvolumeBefore : t.complianceTotalVolume.getD 0 = s.volume := ht.volume
  have hcountBefore : t.complianceTxCount.getD 0 = s.txCount := ht.txCount
  rw [hvolumeBefore] at hvolume
  rw [hcountBefore] at hcount
  refine ⟨?_, ?_, fun hb => ?_⟩
  · show volume.toNat = _
    rw [addU64_ok hvolume, UInt64.toNat_add, hs.volume, total_concat, Nat.mod_add_mod]
    rfl
  · show count.toNat = _
    rw [addU64_ok hcount, UInt64.toNat_add, hs.txCount, total_concat, Nat.mod_add_mod]
    rfl
  · have hfits := addU64_checked hvolume hb
    rw [hs.volume, Nat.mod_eq_of_lt (hs.checked hb)] at hfits
    rw [total_concat]
    exact hfits

theorem step_counters {s s' : Runtime} {done : List Tx} {tx : Tx}
    (hs : CountersWrap b s.obscuraPrivacy done) (h : Runtime.Step b s tx s') :
    CountersWrap b s'.obscuraPrivacy (done ++ [tx]) := by
  cases h with
  | shield ctx msg privacy h =>
    obtain ⟨commitment, t, _, _, ht, _, rfl⟩ := handleShield_ok.mp h
    have hsame := (((pushCommitment_ledger _ _).trans (insertCommitment_ledger ht)).trans
      (storeEncryptedNote_ledger commitment msg.encryptedNote t)).counters
    exact hs.same hsame.volume hsame.txCount rfl rfl
  | transfer ctx msg privacy h =>
    obtain ⟨_, t, ht, hc⟩ := handleTransfer_ok.mp h
    exact hs.count ((markAllSpent_counters _ _).trans (storeOutputs_ledger ht).counters) hc
  | unshield ctx msg privacy h =>
    obtain ⟨_, _, rfl⟩ := handleUnshield_ok.mp h
    exact hs.same rfl rfl rfl rfl
  | updateSanctionsRoot ctx msg privacy h =>
    rw [handleUpdateSanctionsRoot_ok h]
    exact hs.same rfl rfl rfl rfl
  | claimDeposit ctx claim s' h =>
    obtain ⟨_, privacy, _, _, _, hp, _, _, _, rfl⟩ := ObscuraBridge.handleClaimDeposit_ok.mp h
    have hsame := ((pushCommitment_ledger _ _).trans (insertCommitment_ledger hp)).counters
    exact hs.same hsame.volume hsame.txCount rfl rfl
  | withdrawBridge ctx msg bridge h => exact hs.same rfl rfl rfl rfl
  | updateHeliosHead ctx update bridge h => exact hs.same rfl rfl rfl rfl

theorem run_counters (b : Build) (config : BridgeConfig) (txs : List Tx) :
    CountersWrap b (Runtime.run b config txs).obscuraPrivacy
      (Runtime.acceptedTxs b config txs) := by
  apply Runtime.run_induction (P := fun s done => CountersWrap b s.obscuraPrivacy done)
  · exact ⟨rfl, rfl, fun _ => by decide⟩
  · intro s done tx s' hs hstep
    exact step_counters hs hstep

theorem sumOf_perm {amounts amounts' : List UInt64} (h : amounts.Perm amounts') :
    sumOf amounts = sumOf amounts' := (h.map UInt64.toNat).sum_nat

end Disclosure

/-- What the circuit discloses of the accepted transfers, taken in any order, is what the module's
counters say, the number of transfers cut to 32 bits, as long as the volume fits 64 bits. Beyond
that the counter of an unchecked build has wrapped and the circuit refuses. -/
theorem disclosure_agrees (b : Build) (config : BridgeConfig) (txs : List Tx) (limit : UInt64)
    {amounts : List UInt64}
    (h : amounts.Perm (transferAmounts (Runtime.acceptedTxs b config txs))) :
    let s := (Runtime.run b config txs).obscuraPrivacy
    (amounts = [] ∧ s.volume = 0 ∧ s.txCount = 0 ∧
      proveCompliance complianceMain amounts limit = .error (.bail "No amounts provided")) ∨
    (amounts ≠ [] ∧ s.volume.toNat = sumOf amounts ∧
      proveCompliance complianceMain amounts limit =
        .ok ⟨s.volume, limit, decide (s.volume ≤ limit), s.txCount.toUInt32⟩) ∨
    b.overflowChecks = false ∧ s.volume.toNat + 2 ^ 64 ≤ sumOf amounts ∧
      proveCompliance complianceMain amounts limit = .error (.panic "volume overflow") := by
  intro s
  have hcounters := run_counters b config txs
  obtain ⟨hsum, hlength⟩ := transferAmounts_totals (Runtime.acceptedTxs b config txs)
  have hvolume : s.volume.toNat = sumOf amounts % 2 ^ 64 := by
    rw [sumOf_perm h, hsum]
    exact hcounters.volume
  have hcount : s.txCount.toNat = amounts.length % 2 ^ 64 := by
    rw [h.length_eq, hlength]
    exact hcounters.txCount
  by_cases hnone : amounts = []
  · subst hnone
    exact Or.inl ⟨rfl, UInt64.toNat_inj.mp hvolume, UInt64.toNat_inj.mp hcount, rfl⟩
  · right
    rw [proveCompliance, ensure_true hnone, ok_bind, complianceMain]
    rcases addVolume_spec 0 amounts with ⟨hfits, volume, hadd, htotal⟩ | ⟨hlarge, hadd⟩
    · rw [UInt64.toNat_zero, Nat.zero_add] at hfits htotal
      have hexact : s.volume.toNat = sumOf amounts := hvolume.trans (Nat.mod_eq_of_lt hfits)
      have hsame : volume = s.volume := UInt64.toNat_inj.mp (htotal.trans hexact.symm)
      have hcut : UInt32.ofNat amounts.length = s.txCount.toUInt32 := by
        apply UInt32.toNat_inj.mp
        rw [UInt32.toNat_ofNat', UInt64.toNat_toUInt32, hcount]
        omega
      left
      refine ⟨hnone, hexact, ?_⟩
      rw [hadd, ok_bind, hsame, hcut]
      rfl
    · rw [UInt64.toNat_zero, Nat.zero_add] at hlarge
      right
      refine ⟨?_, by omega, ?_⟩
      · by_contra hb
        have hchecked := hcounters.checked (Bool.not_eq_false _ ▸ hb)
        rw [← hsum, ← sumOf_perm h] at hchecked
        omega
      · rw [hadd, error_bind]

/-- A mock transfer that states an amount of five. -/
def fiveTransfer : Tx :=
  ⟨⟨[], 0⟩, .obscuraPrivacy (.transfer
    { idleTransfer with publicInputs := ⟨5, ⟨zeroBytes⟩, zeroBytes⟩ })⟩

theorem disclosure_agrees_twice :
    proveCompliance complianceMain [5, 5] 10 = .ok ⟨10, 10, true, 2⟩ ∧
      (Runtime.run .default .default [fiveTransfer, fiveTransfer]).obscuraPrivacy.volume = 10 := by
  have hvolume :
      (Runtime.run .default .default [fiveTransfer, fiveTransfer]).obscuraPrivacy.volume = 10 := rfl
  have hcount :
      (Runtime.run .default .default [fiveTransfer, fiveTransfer]).obscuraPrivacy.txCount = 2 := rfl
  have hagrees := disclosure_agrees .default .default [fiveTransfer, fiveTransfer] 10
    (List.Perm.refl [5, 5])
  simp only [hvolume, hcount] at hagrees
  rcases hagrees with ⟨hnone, _⟩ | ⟨_, _, hproof⟩ | ⟨_, hlarge, _⟩
  · cases hnone
  · exact ⟨hproof, hvolume⟩
  · exact absurd hlarge (by decide)

end ObscuraNetwork
