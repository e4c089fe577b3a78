import ObscuraNetwork.BridgeSolvency
import Mathlib.Data.List.Dedup
import Mathlib.Data.List.Perm.Basic

namespace ObscuraNetwork

/-- Overwriting an entry with the last one and dropping the last removes the entry. -/
theorem set_last_dropLast_perm {α : Type} {xs : List α} {i : Nat} (h : i < xs.length)
    (default : α) : ((xs.set i (xs.getLastD default)).dropLast).Perm (xs.eraseIdx i) := by
  obtain ⟨ys, last, rfl⟩ := (List.eq_nil_or_concat' xs).resolve_left (by
    intro hnil
    rw [hnil] at h
    cases h)
  rw [List.getLastD_concat]
  rw [List.length_append, List.length_singleton] at h
  rcases Nat.lt_or_eq_of_le (Nat.le_of_lt_succ h) with hlt | rfl
  · rw [List.set_append_left _ _ hlt, List.dropLast_concat, List.eraseIdx_append_of_lt_length hlt,
      List.eraseIdx_eq_take_drop_succ, List.set_eq_take_append_cons_drop, if_pos hlt]
    refine List.perm_middle.trans ?_
    exact (List.perm_append_singleton last _).symm
  · rw [List.set_append_right _ _ le_rfl, Nat.sub_self, List.set_cons_zero, List.dropLast_concat,
      List.eraseIdx_append_of_length_le le_rfl, Nat.sub_self, List.eraseIdx_cons_zero,
      List.append_nil]

/-- What every state keeps of the constructor's call, whatever the actions are. -/
theorem auditAll_preserves {σ ι : Type} {ledger : σ → Ledger}
    {act : ι → σ → Outcome (BridgeEffect × σ)} {P : σ → Prop}
    (hact : ∀ i s effect s', P s → act i s = .ok (effect, s') → P s') {s : σ} (h : P s)
    (actions : List ι) : P (auditAll ledger act s actions).contract := by
  refine run_invariant (P := fun (a : Audited σ) _ => P a.contract) h ?_ actions
  intro a _ i a' ha hstep
  simp only [audit, bind_ok, pure_ok, Prod.exists] at hstep
  obtain ⟨effect, s', haction, rfl⟩ := hstep
  exact hact i a.contract effect s' ha haction

namespace BridgeV2

/-- What a call can do to the signers and the threshold. -/
inductive SignerStep (s : BridgeV2) : List Bytes20 → Nat → Prop
  | same : SignerStep s s.relayerSigners s.threshold
  | added {signer : Bytes20} (hzero : signer ≠ zeroAddress) (hnew : signer ∉ s.relayerSigners)
      (hroom : s.relayerSigners.length < maxSigners) :
      SignerStep s (s.relayerSigners ++ [signer]) s.threshold
  | removed {i : Nat} {signers : List Bytes20} (hi : i < s.relayerSigners.length)
      (hmore : s.threshold < s.relayerSigners.length)
      (hperm : signers.Perm (s.relayerSigners.eraseIdx i)) : SignerStep s signers s.threshold
  | setThreshold {threshold : Nat} (hpositive : 1 ≤ threshold)
      (hle : threshold ≤ s.relayerSigners.length) : SignerStep s s.relayerSigners threshold

theorem inArray_iff {arr : List Bytes20} {addr : Bytes20} :
    inArray arr addr = true ↔ addr ∈ arr := by
  simp [inArray]

theorem isRelayer_iff {addr : Bytes20} {s : BridgeV2} :
    s.isRelayer addr = true ↔ addr ∈ s.relayerSigners := inArray_iff

section Steps

variable {keccak256 : Bytes → Bytes32} {ecrecover : Bytes32 → UInt8 → Bytes → Bytes → Bytes20}
  {chainId : Nat} {bridge : Bytes20} {s s' : BridgeV2}

theorem removeSigner_step {ctx : CallContext bridge} {signer : Bytes20}
    (h : s.removeSigner ctx signer = .ok s') :
    SignerStep s s'.relayerSigners s'.threshold := by
  simp only [removeSigner, bind_ok, ensure_ok] at h
  obtain ⟨_, _, _, hmore, h⟩ := h
  split at h
  next i hi =>
    cases h
    have hlt := (List.findIdx?_eq_some_iff_getElem.mp hi).1
    exact .removed hlt hmore (set_last_dropLast_perm hlt signer)
  next => cases h

theorem call_signers {ctx : CallContext bridge} {message : BridgeV2Call} {effect : BridgeEffect}
    (h : s.call keccak256 ecrecover chainId ctx message = .ok (effect, s')) :
    SignerStep s s'.relayerSigners s'.threshold := by
  cases message with
  | deposit amount obscuraRecipient =>
    simp only [call, bind_ok, pure_ok, Prod.exists, Prod.mk.injEq] at h
    obtain ⟨depositId, ledger, _, _, rfl⟩ := h
    exact .same
  | releaseMultisig depositId recipient withdrawalNonce signatures =>
    simp only [call, releaseMultisig, bind_ok, pure_ok, Prod.mk.injEq] at h
    obtain ⟨_, ⟨_, _, _, _, _, _, _, _, seen, _, _, _, ledger, _, rfl⟩, _, rfl⟩ := h
    exact .same
  | addSigner signer =>
    simp only [call, addSigner, bind_ok, ensure_ok, pure_ok, Prod.mk.injEq] at h
    obtain ⟨_, ⟨_, _, _, hzero, _, hnew, _, hroom, rfl⟩, _, rfl⟩ := h
    refine .added hzero (fun hmem => ?_) hroom
    rw [isRelayer_iff.mpr hmem] at hnew
    cases hnew
  | removeSigner signer =>
    simp only [call, bind_ok, pure_ok, Prod.mk.injEq] at h
    obtain ⟨_, hremoved, _, rfl⟩ := h
    exact removeSigner_step hremoved
  | setThreshold newThreshold =>
    simp only [call, setThreshold, bind_ok, ensure_ok, pure_ok, Prod.mk.injEq] at h
    obtain ⟨_, ⟨_, _, _, hpositive, _, hle, rfl⟩, _, rfl⟩ := h
    exact .setThreshold hpositive hle
  | transferOwnership newOwner =>
    simp only [call, transferOwnership, bind_ok, pure_ok, Prod.mk.injEq] at h
    obtain ⟨_, ⟨_, _, _, _, rfl⟩, _, rfl⟩ := h
    exact .same

theorem act_signers {action : BridgeAction bridge BridgeV2Call} {effect : BridgeEffect}
    (h : act keccak256 ecrecover chainId action s = .ok (effect, s')) :
    SignerStep s s'.relayerSigners s'.threshold := by
  cases action with
  | call ctx message => exact call_signers h
  | usdcTransfer sender hsender recipient amount =>
    simp only [act, bind_ok, pure_ok, Prod.mk.injEq] at h
    obtain ⟨ledger, _, _, rfl⟩ := h
    exact .same

end Steps

/-- The signers and the threshold that the constructor's checks ask for. -/
structure ValidSigners (s : BridgeV2) : Prop where
  nonzero : zeroAddress ∉ s.relayerSigners
  room : s.relayerSigners.length ≤ maxSigners
  positive : 1 ≤ s.threshold
  enough : s.threshold ≤ s.relayerSigners.length

/-- A release can still be authorised: there are as many different signers as it takes. -/
structure SignerSet (s : BridgeV2) : Prop where
  nonzero : zeroAddress ∉ s.relayerSigners
  distinct : s.relayerSigners.Nodup
  room : s.relayerSigners.length ≤ 10
  positive : 1 ≤ s.threshold
  authorisable : s.threshold ≤ s.relayerSigners.dedup.length

theorem ValidSigners.signerSet {s : BridgeV2} (h : ValidSigners s)
    (hdistinct : s.relayerSigners.Nodup) : SignerSet s where
  nonzero := h.nonzero
  distinct := hdistinct
  room := h.room
  positive := h.positive
  authorisable := by
    rw [hdistinct.dedup]
    exact h.enough

section Invariant

variable {s s' : BridgeV2}

theorem construct_valid {owner : Bytes20} {signers : List Bytes20} {threshold : Nat}
    {ledger : Ledger} (h : construct owner signers threshold ledger = .ok s) :
    s.relayerSigners = signers ∧ ValidSigners s := by
  simp only [construct, bind_ok, ensure_ok, ensureAll_ok, pure_ok] at h
  obtain ⟨_, henough, _, hpositive, _, hroom, _, hzero, rfl⟩ := h
  exact ⟨rfl, fun hmem => hzero zeroAddress hmem rfl, hroom, hpositive, henough⟩

theorem SignerStep.valid (h : ValidSigners s)
    (hstep : SignerStep s s'.relayerSigners s'.threshold) : ValidSigners s' := by
  obtain ⟨owner, threshold, signers, ledger⟩ := s'
  simp only at hstep
  cases hstep with
  | same => exact ⟨h.nonzero, h.room, h.positive, h.enough⟩
  | @added signer hzero hnew hroom =>
    have hlen : (s.relayerSigners ++ [signer]).length = s.relayerSigners.length + 1 :=
      List.length_append
    refine ⟨fun hmem => ?_, ?_, h.positive, ?_⟩
    · rcases List.mem_append.mp hmem with hold | hlast
      · exact h.nonzero hold
      · exact hzero (List.mem_singleton.mp hlast).symm
    · show (s.relayerSigners ++ [signer]).length ≤ maxSigners
      omega
    · have henough := h.enough
      show s.threshold ≤ (s.relayerSigners ++ [signer]).length
      omega
  | removed hi hmore hperm =>
    have hlen := hperm.length_eq
    rw [List.length_eraseIdx_of_lt hi] at hlen
    have hroom := h.room
    refine ⟨fun hmem => ?_, ?_, h.positive, ?_⟩
    · exact h.nonzero (List.mem_of_mem_eraseIdx (hperm.mem_iff.mp hmem))
    · show signers.length ≤ maxSigners
      omega
    · show s.threshold ≤ signers.length
      omega
  | setThreshold hpositive hle => exact ⟨h.nonzero, h.room, hpositive, hle⟩

theorem SignerStep.nodup (h : s.relayerSigners.Nodup) {threshold : Nat} {signers : List Bytes20}
    (hstep : SignerStep s signers threshold) : signers.Nodup := by
  cases hstep with
  | same => exact h
  | added hzero hnew hroom =>
    rw [← List.concat_eq_append]
    exact h.concat hnew
  | removed hi hmore hperm => exact hperm.nodup_iff.mpr (h.sublist (List.eraseIdx_sublist _ _))
  | setThreshold hpositive hle => exact h

variable {keccak256 : Bytes → Bytes32} {ecrecover : Bytes32 → UInt8 → Bytes → Bytes → Bytes20}
  {chainId : Nat} {bridge : Bytes20}

theorem auditAll_valid (h : ValidSigners s) (actions : List (BridgeAction bridge BridgeV2Call)) :
    ValidSigners (auditAll ledger (act keccak256 ecrecover chainId) s actions).contract :=
  auditAll_preserves (fun _ _ _ _ hs hact => (act_signers hact).valid hs) h actions

theorem auditAll_nodup (h : s.relayerSigners.Nodup)
    (actions : List (BridgeAction bridge BridgeV2Call)) :
    (auditAll ledger (act keccak256 ecrecover chainId) s actions).contract.relayerSigners.Nodup :=
  auditAll_preserves (P := fun s : BridgeV2 => s.relayerSigners.Nodup)
    (fun _ _ _ _ hs hact => (act_signers hact).nodup hs) h actions

end Invariant

end BridgeV2

/-- The signer set is kept in every state exactly when the constructor is given no signer twice. -/
theorem signer_set_kept_iff (keccak256 : Bytes → Bytes32)
    (ecrecover : Bytes32 → UInt8 → Bytes → Bytes → Bytes20) (chainId : Nat) (bridge owner : Bytes20)
    (signers : List Bytes20) (threshold : Nat) (usdc : Erc20) {deployed : BridgeV2}
    (hdeployed : BridgeV2.construct owner signers threshold (Ledger.initial usdc) = .ok deployed) :
    (∀ actions : List (BridgeAction bridge BridgeV2Call), BridgeV2.SignerSet
      (auditAll BridgeV2.ledger (BridgeV2.act keccak256 ecrecover chainId) deployed
        actions).contract) ↔ signers.Nodup := by
  obtain ⟨hsigners, hvalid⟩ := BridgeV2.construct_valid hdeployed
  constructor
  · intro h
    rw [← hsigners]
    exact (h []).distinct
  · intro hdistinct actions
    rw [← hsigners] at hdistinct
    exact (BridgeV2.auditAll_valid hvalid actions).signerSet
      (BridgeV2.auditAll_nodup hdistinct actions)

section Sample

/-- The owner lowers the threshold, removes a signer and lets another one in. -/
def sampleRotation : List (BridgeAction sampleBridge BridgeV2Call) :=
  let owner : CallContext sampleBridge := ⟨sampleOwner, by decide, 0, .moves⟩
  [.call owner (.setThreshold 1), .call owner (.removeSigner relayer1),
    .call owner (.addSigner sampleUser)]

theorem signer_set_kept_distinct : BridgeV2.SignerSet
    (auditAll BridgeV2.ledger (BridgeV2.act (fun _ => FixedBytes.replicate 32 0)
      (fun _ _ _ _ => zeroAddress) 11155111) sampleDeployed sampleRotation).contract := by
  have hdeployed : BridgeV2.construct sampleOwner sampleSigners 2 (Ledger.initial sampleUsdc) =
      .ok sampleDeployed := rfl
  have hdistinct : sampleSigners.Nodup := by decide
  exact (signer_set_kept_iff _ (fun _ _ _ _ => zeroAddress) 11155111 sampleBridge sampleOwner
    sampleSigners 2 sampleUsdc hdeployed).mpr hdistinct sampleRotation

/-- The constructor takes one signer twice for a threshold of two. -/
theorem repeated_signer_deploys : ∃ deployed : BridgeV2,
    BridgeV2.construct sampleOwner [sampleUser, sampleUser] 2 (Ledger.initial sampleUsdc) =
        .ok deployed ∧
      ¬deployed.relayerSigners.Nodup ∧ deployed.relayerSigners.dedup.length < deployed.threshold :=
  ⟨_, rfl, by decide, by decide⟩

end Sample

end ObscuraNetwork
