import ObscuraNetwork.BridgeEffects
import ObscuraNetwork.BridgeKeys
import ObscuraNetwork.ExactPool

namespace ObscuraNetwork

open ObscuraBridge

def Tx.heliosUpdate (tx : Tx) : List HeliosPublicInputs :=
  match tx.call with
  | .obscuraBridge (.updateHeliosHead update) => [update.publicInputs]
  | _ => []

def heliosUpdates (txs : List Tx) : List HeliosPublicInputs := txs.flatMap Tx.heliosUpdate

theorem heliosUpdates_concat (txs : List Tx) (tx : Tx) :
    heliosUpdates (txs ++ [tx]) = heliosUpdates txs ++ tx.heliosUpdate := by
  simp [heliosUpdates]

/-- The root and the slot trusted after a list of updates: those of the last one, or of genesis. -/
def trustedHead (config : BridgeConfig) (updates : List HeliosPublicInputs) : Bytes32 × UInt64 :=
  match updates.getLast? with
  | some u => (u.newBeaconRoot, u.newSlot)
  | none => (config.helios.initialTrustedBeaconRoot, config.helios.initialTrustedSlot)

theorem trustedHead_concat (config : BridgeConfig) (updates : List HeliosPublicInputs)
    (u : HeliosPublicInputs) :
    trustedHead config (updates ++ [u]) = (u.newBeaconRoot, u.newSlot) := by
  simp [trustedHead]

/-- An update continues the chain: it names the trusted root, and its slot is later but, once a slot
is trusted, not by more than the configured gap. -/
structure Continues (config : BridgeConfig) (head : Bytes32 × UInt64) (u : HeliosPublicInputs) :
    Prop where
  prevTrustedRoot : u.prevTrustedRoot = head.1
  newSlot : head.2 < u.newSlot
  slotGap : 0 < head.2 → u.newSlot.toNat - head.2.toNat ≤ config.helios.maxSlotGap.toNat

/-- The entry of the finalized blocks that the last update naming a block leaves. -/
def LastNaming (updates : List HeliosPublicInputs) (key : String) (slot : UInt64) : Prop :=
  ∃ earlier u later, updates = earlier ++ u :: later ∧ key = blockKey u.executionBlockHash ∧
    slot = u.newSlot ∧ ∀ v ∈ later, v.executionBlockHash ≠ u.executionBlockHash

theorem LastNaming.concat {updates : List HeliosPublicInputs} {key : String} {slot : UInt64}
    {v : HeliosPublicInputs} (h : LastNaming updates key slot)
    (hv : key ≠ blockKey v.executionBlockHash) : LastNaming (updates ++ [v]) key slot := by
  obtain ⟨earlier, u, later, rfl, hkey, hslot, hlast⟩ := h
  refine ⟨earlier, u, later ++ [v], by simp, hkey, hslot, ?_⟩
  intro w hw
  rcases List.mem_append.mp hw with hw | hw
  · exact hlast w hw
  · rw [List.mem_singleton.mp hw]
    exact fun heq => hv (by rw [hkey, heq])

theorem LastNaming.self (updates : List HeliosPublicInputs) (u : HeliosPublicInputs) :
    LastNaming (updates ++ [u]) (blockKey u.executionBlockHash) u.newSlot :=
  ⟨updates, u, [], rfl, rfl, rfl, by simp⟩

/-- The Helios part of the bridge's storage against the updates accepted so far. -/
structure HeliosInvariant (config : BridgeConfig) (s : ObscuraBridge)
    (updates : List HeliosPublicInputs) : Prop where
  heliosConfig : s.heliosConfig = some config.helios
  trustedRoot : s.trustedBeaconRoot = some (trustedHead config updates).1
  trustedSlot : s.trustedSlot = some (trustedHead config updates).2
  chain : ∀ pre u, pre ++ [u] <+: updates → Continues config (trustedHead config pre) u
  slots : ∀ u ∈ updates, u.newSlot ≤ (trustedHead config updates).2
  increasing : (updates.map HeliosPublicInputs.newSlot).Pairwise (· < ·)
  finalized : ∀ key slot, s.finalizedEthBlocks key = some slot →
    LastNaming updates key slot ∧ 0 < slot ∧ slot ≤ (trustedHead config updates).2

theorem helios_genesis (config : BridgeConfig) :
    HeliosInvariant config (ObscuraBridge.genesis config) [] where
  heliosConfig := rfl
  trustedRoot := rfl
  trustedSlot := rfl
  chain pre u h := by simp at h
  slots u h := by simp at h
  increasing := List.Pairwise.nil
  finalized key slot h := by simp [ObscuraBridge.genesis] at h

theorem HeliosInvariant.continues {b : Build} {config : BridgeConfig} {s : ObscuraBridge}
    {updates : List HeliosPublicInputs} (hs : HeliosInvariant config s updates)
    {update : UpdateHeliosHead} (h : UpdateAccepted b update s) :
    Continues config (trustedHead config updates) update.publicInputs := by
  have hroot := h.prevTrustedRoot
  have hslot := h.newSlot
  have hgap := h.slotGap
  simp only [checkSlotGap, ensure_ok] at hgap
  rw [hs.trustedSlot, Option.getD_some] at hslot hgap
  rw [hs.heliosConfig, Option.getD_some] at hgap
  refine ⟨?_, hslot, ?_⟩
  · rw [hroot, hs.trustedRoot, Option.getD_some]
  · intro hpos
    have hle : ¬config.helios.maxSlotGap <
        saturatingSub update.publicInputs.newSlot (trustedHead config updates).2 :=
      fun hlt => hgap ⟨hpos, hlt⟩
    rw [UInt64.lt_iff_toNat_lt, toNat_saturatingSub] at hle
    omega

theorem HeliosInvariant.after_update {b : Build} {config : BridgeConfig} {s : ObscuraBridge}
    {updates : List HeliosPublicInputs} (hs : HeliosInvariant config s updates)
    {update : UpdateHeliosHead} (h : UpdateAccepted b update s) (count : UInt64) :
    HeliosInvariant config { s with
        trustedBeaconRoot := some update.publicInputs.newBeaconRoot
        trustedSlot := some update.publicInputs.newSlot
        finalizedEthBlocks := s.finalizedEthBlocks.set
          (blockKey update.publicInputs.executionBlockHash) update.publicInputs.newSlot
        heliosUpdateCount := some count }
      (updates ++ [update.publicInputs]) := by
  have hnext := hs.continues h
  have hlater : ∀ slot, slot ≤ (trustedHead config updates).2 →
      slot < update.publicInputs.newSlot :=
    fun slot hslot => UInt64.lt_of_le_of_lt hslot hnext.newSlot
  refine ⟨hs.heliosConfig, ?_, ?_, ?_, ?_, ?_, ?_⟩
  · rw [trustedHead_concat]
  · rw [trustedHead_concat]
  · intro pre u hpre
    rcases List.prefix_concat_iff.mp hpre with heq | hpre
    · obtain ⟨rfl, hu⟩ := List.append_inj' heq rfl
      cases hu
      exact hnext
    · exact hs.chain pre u hpre
  · intro u hu
    rw [trustedHead_concat]
    rcases List.mem_append.mp hu with hu | hu
    · exact UInt64.le_of_lt (hlater _ (hs.slots u hu))
    · rw [List.mem_singleton.mp hu]
      exact UInt64.le_refl _
  · rw [List.map_append, List.pairwise_append]
    refine ⟨hs.increasing, List.pairwise_singleton _ _, ?_⟩
    intro slot hslot slot' hslot'
    obtain ⟨u, hu, rfl⟩ := List.mem_map.mp hslot
    rw [List.mem_singleton.mp hslot']
    exact hlater _ (hs.slots u hu)
  · intro key slot hentry
    rw [trustedHead_concat]
    by_cases hkey : key = blockKey update.publicInputs.executionBlockHash
    · subst hkey
      have hslot : some update.publicInputs.newSlot = some slot :=
        (StateMap.set_self _ _ _).symm.trans hentry
      cases hslot
      have hpos : 0 < update.publicInputs.newSlot := by
        have := UInt64.lt_iff_toNat_lt.mp hnext.newSlot
        apply UInt64.lt_iff_toNat_lt.mpr
        simp only [UInt64.toNat_zero]
        omega
      exact ⟨LastNaming.self updates _, hpos, UInt64.le_refl _⟩
    · have hentry : s.finalizedEthBlocks key = some slot :=
        (StateMap.set_of_ne _ _ hkey).symm.trans hentry
      obtain ⟨hlast, hpos, hle⟩ := hs.finalized key slot hentry
      exact ⟨hlast.concat hkey, hpos, UInt64.le_of_lt (hlater slot hle)⟩

theorem step_helios {b : Build} {config : BridgeConfig} {s s' : Runtime} {tx : Tx}
    {updates : List HeliosPublicInputs} (hs : HeliosInvariant config s.obscuraBridge updates)
    (h : Runtime.Step b s tx s') :
    HeliosInvariant config s'.obscuraBridge (updates ++ tx.heliosUpdate) := by
  cases h with
  | shield ctx msg privacy h => simpa [Tx.heliosUpdate] using hs
  | transfer ctx msg privacy h => simpa [Tx.heliosUpdate] using hs
  | unshield ctx msg privacy h => simpa [Tx.heliosUpdate] using hs
  | updateSanctionsRoot ctx msg privacy h => simpa [Tx.heliosUpdate] using hs
  | claimDeposit ctx claim s' h =>
    obtain ⟨_, _, _, _, _, _, _, _, _, rfl⟩ := handleClaimDeposit_ok.mp h
    simp only [Tx.heliosUpdate, List.append_nil]
    exact { hs with }
  | withdrawBridge ctx msg bridge h =>
    obtain ⟨_, _, _, _, _, _, rfl⟩ := handleWithdrawBridge_ok.mp h
    simp only [Tx.heliosUpdate, List.append_nil]
    exact { hs with }
  | updateHeliosHead ctx update bridge h =>
    obtain ⟨hchecks, count, _, rfl⟩ := handleUpdateHeliosHead_ok.mp h
    exact hs.after_update hchecks count

theorem run_helios (b : Build) (config : BridgeConfig) (txs : List Tx) :
    HeliosInvariant config (Runtime.run b config txs).obscuraBridge
      (heliosUpdates (Runtime.acceptedTxs b config txs)) := by
  refine Runtime.run_induction (P := fun s done =>
    HeliosInvariant config s.obscuraBridge (heliosUpdates done)) (helios_genesis config) ?_ txs
  intro s done tx s' hs hstep
  rw [heliosUpdates_concat]
  exact step_helios hs hstep

theorem step_trustedSlot_le {b : Build} {s s' : Runtime} {tx : Tx} (h : Runtime.Step b s tx s') :
    s.obscuraBridge.trustedSlot.getD 0 ≤ s'.obscuraBridge.trustedSlot.getD 0 := by
  cases h with
  | shield ctx msg privacy h => exact UInt64.le_refl _
  | transfer ctx msg privacy h => exact UInt64.le_refl _
  | unshield ctx msg privacy h => exact UInt64.le_refl _
  | updateSanctionsRoot ctx msg privacy h => exact UInt64.le_refl _
  | claimDeposit ctx claim s' h =>
    obtain ⟨_, _, _, _, _, _, _, _, _, rfl⟩ := handleClaimDeposit_ok.mp h
    exact UInt64.le_refl _
  | withdrawBridge ctx msg bridge h =>
    obtain ⟨_, _, _, _, _, _, rfl⟩ := handleWithdrawBridge_ok.mp h
    exact UInt64.le_refl _
  | updateHeliosHead ctx update bridge h =>
    obtain ⟨hchecks, _, _, rfl⟩ := handleUpdateHeliosHead_ok.mp h
    exact UInt64.le_of_lt hchecks.newSlot

theorem run_trustedSlot_le (b : Build) (config : BridgeConfig) (pre post : List Tx) :
    (Runtime.run b config pre).obscuraBridge.trustedSlot.getD 0 ≤
      (Runtime.run b config (pre ++ post)).obscuraBridge.trustedSlot.getD 0 := by
  induction post using List.reverseRecOn with
  | nil =>
    rw [List.append_nil]
    exact UInt64.le_refl _
  | append_singleton post tx ih =>
    rw [← List.append_assoc]
    cases hcall : Runtime.call b tx (Runtime.run b config (pre ++ post)) with
    | error e =>
      rw [(acceptedTxs_concat_error hcall).1]
      exact ih
    | ok s' =>
      rw [(acceptedTxs_concat_ok hcall).1]
      exact UInt64.le_trans ih (step_trustedSlot_le (Runtime.step_of_call_ok hcall))

/-- A block that passes the gate while a slot is trusted was named by an accepted update. -/
theorem HeliosInvariant.finalized_named {config : BridgeConfig} {s : ObscuraBridge}
    {updates : List HeliosPublicInputs} (hs : HeliosInvariant config s updates)
    {blockHash : Bytes32} (h : s.checkFinalized blockHash = .ok ())
    (hpos : 0 < s.trustedSlot.getD 0) : ∃ u ∈ updates, u.executionBlockHash = blockHash := by
  simp only [checkFinalized, ensure_ok] at h
  cases hentry : s.finalizedEthBlocks (blockKey blockHash) with
  | none =>
    rw [hentry] at h
    exact absurd ⟨hpos, rfl⟩ h
  | some slot =>
    obtain ⟨⟨earlier, u, later, rfl, hkey, _⟩, _⟩ := hs.finalized _ _ hentry
    exact ⟨u, by simp, (blockKey_injective hkey).symm⟩

/-- The history of the Helios head over a run. -/
structure HeliosHistory (b : Build) (config : BridgeConfig) (txs : List Tx) : Prop where
  chain : ∀ pre u, pre ++ [u] <+: heliosUpdates (Runtime.acceptedTxs b config txs) →
    Continues config (trustedHead config pre) u
  increasing : ((heliosUpdates (Runtime.acceptedTxs b config txs)).map
    HeliosPublicInputs.newSlot).Pairwise (· < ·)
  trustedRoot : (Runtime.run b config txs).obscuraBridge.trustedBeaconRoot =
    some (trustedHead config (heliosUpdates (Runtime.acceptedTxs b config txs))).1
  trustedSlot : (Runtime.run b config txs).obscuraBridge.trustedSlot =
    some (trustedHead config (heliosUpdates (Runtime.acceptedTxs b config txs))).2
  finalized : ∀ key slot,
    (Runtime.run b config txs).obscuraBridge.finalizedEthBlocks key = some slot →
    LastNaming (heliosUpdates (Runtime.acceptedTxs b config txs)) key slot ∧ 0 < slot ∧
      slot ≤ (Runtime.run b config txs).obscuraBridge.trustedSlot.getD 0
  staysTrusted : ∀ pre, pre <+: txs →
    0 < (Runtime.run b config pre).obscuraBridge.trustedSlot.getD 0 →
    0 < (Runtime.run b config txs).obscuraBridge.trustedSlot.getD 0
  claimsProven : ∀ pre ctx claim s', pre ++ [⟨ctx, .obscuraBridge (.claimDeposit claim)⟩] <+: txs →
    Runtime.call b ⟨ctx, .obscuraBridge (.claimDeposit claim)⟩ (Runtime.run b config pre) =
      .ok s' →
    0 < (Runtime.run b config pre).obscuraBridge.trustedSlot.getD 0 →
    ∃ u ∈ heliosUpdates (Runtime.acceptedTxs b config pre),
      u.executionBlockHash = claim.publicInputs.ethBlockHash

/-- In every run the accepted updates form one chain from the genesis root, the stored head and the
finalized blocks are theirs, and a claim names a block of an earlier update once a slot is
trusted. -/
theorem helios_chain (b : Build) (config : BridgeConfig) (txs : List Tx) :
    HeliosHistory b config txs := by
  have hs := run_helios b config txs
  refine ⟨hs.chain, hs.increasing, hs.trustedRoot, hs.trustedSlot, ?_, ?_, ?_⟩
  · intro key slot hentry
    rw [hs.trustedSlot]
    exact hs.finalized key slot hentry
  · intro pre hpre hpos
    obtain ⟨post, rfl⟩ := hpre
    exact UInt64.lt_of_lt_of_le hpos (run_trustedSlot_le b config pre post)
  · intro pre ctx claim s' _ hcall hpos
    obtain ⟨hchecks, _⟩ := handleClaimDeposit_ok.mp hcall
    exact (run_helios b config pre).finalized_named (claimChecks_ok.mp hchecks).finalized hpos

end ObscuraNetwork
