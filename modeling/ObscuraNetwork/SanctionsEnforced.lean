import ObscuraNetwork.OracleAuthority
import ObscuraNetwork.OracleServer
import ObscuraNetwork.RecipientLink
import ObscuraNetwork.TransferGate

namespace ObscuraNetwork

open ObscuraPrivacy SanctionsOracle

/-- The sanctions root a transaction asks for. -/
def Tx.newSanctionsRoot (tx : Tx) : Option Bytes32 :=
  match tx.call with
  | .obscuraPrivacy (.updateSanctionsRoot msg) => some msg.newRoot
  | _ => none

/-- The root of the last update of a run. -/
def lastSanctionsRoot (txs : List Tx) : Option Bytes32 :=
  txs.reverse.findSome? Tx.newSanctionsRoot

section Enforced

variable {b : Build}

theorem lastSanctionsRoot_concat (txs : List Tx) (tx : Tx) :
    lastSanctionsRoot (txs ++ [tx]) = tx.newSanctionsRoot.or (lastSanctionsRoot txs) := by
  rw [lastSanctionsRoot, List.reverse_concat, List.findSome?_cons]
  cases tx.newSanctionsRoot <;> rfl

/-- Only an update writes the stored root. -/
theorem step_sanctionsRoot {s s' : Runtime} {tx : Tx} (h : Runtime.Step b s tx s') :
    s'.obscuraPrivacy.sanctionsRoot =
      tx.newSanctionsRoot.or s.obscuraPrivacy.sanctionsRoot := by
  cases h with
  | shield ctx msg privacy h =>
    obtain ⟨commitment, t, total, _, ht, _, rfl⟩ := handleShield_ok.mp h
    exact (((pushCommitment_ledger _ _).trans (insertCommitment_ledger ht)).trans
      (storeEncryptedNote_ledger commitment msg.encryptedNote t)).sanctionsRoot
  | transfer ctx msg privacy h =>
    obtain ⟨_, t, ht, hc⟩ := handleTransfer_ok.mp h
    have hmarked := congrArg ObscuraPrivacy.sanctionsRoot
      (markAllSpent_eq msg.nullifiers s.obscuraPrivacy)
    rw [updateCompliance_ok hc]
    exact (storeOutputs_ledger ht).sanctionsRoot.trans hmarked
  | unshield ctx msg privacy h =>
    obtain ⟨_, _, rfl⟩ := handleUnshield_ok.mp h
    rfl
  | updateSanctionsRoot ctx msg privacy h =>
    rw [handleUpdateSanctionsRoot_ok h]
    rfl
  | claimDeposit ctx claim s' h =>
    obtain ⟨_, privacy, _, _, _, hp, _, _, _, rfl⟩ := ObscuraBridge.handleClaimDeposit_ok.mp h
    exact ((pushCommitment_ledger _ _).trans (insertCommitment_ledger hp)).sanctionsRoot
  | withdrawBridge ctx msg bridge h => rfl
  | updateHeliosHead ctx update bridge h => rfl

/-- A transaction that fails asks for no root: the oracle's address is never set, so that no update
is refused. -/
theorem refused_newSanctionsRoot {s : Runtime} {tx : Tx} {e : Failure}
    (hunset : s.obscuraPrivacy.sanctionsOracle = none) (h : Runtime.call b tx s = .error e) :
    tx.newSanctionsRoot = none := by
  obtain ⟨ctx, call⟩ := tx
  unfold Tx.newSanctionsRoot
  split
  next msg hcall =>
    cases hcall
    have hpass : handleUpdateSanctionsRoot ctx.sender msg s.obscuraPrivacy =
        .ok { s.obscuraPrivacy with sanctionsRoot := some msg.newRoot } := by
      refine handleUpdateSanctionsRoot_iff.mpr ⟨Or.inl ?_, rfl⟩
      rw [hunset]
      rfl
    have hok : Runtime.call b ⟨ctx, .obscuraPrivacy (.updateSanctionsRoot msg)⟩ s =
        .ok { s with obscuraPrivacy := { s.obscuraPrivacy with
          sanctionsRoot := some msg.newRoot } } := bind_ok.mpr ⟨_, hpass, rfl⟩
    rw [hok] at h
    cases h
  next => rfl

/-- The root in force is that of the last update, whoever sent it. -/
theorem run_sanctionsRoot (config : BridgeConfig) (txs : List Tx) :
    (Runtime.run b config txs).obscuraPrivacy.sanctionsRoot = lastSanctionsRoot txs := by
  induction txs using List.reverseRecOn with
  | nil => rfl
  | append_singleton txs tx ih =>
    rw [Runtime.run_concat, lastSanctionsRoot_concat, ← ih]
    cases h : Runtime.call b tx (Runtime.run b config txs) with
    | ok s' =>
      rw [settle_ok h]
      exact step_sanctionsRoot (Runtime.step_of_call_ok h)
    | error e =>
      rw [settle_error h, refused_newSanctionsRoot (run_sanctionsOracle b config txs) h]
      rfl

theorem accepted_not_listed {sha256 : Bytes → Bytes32} {addresses : List Bytes32} {d : Nat}
    {tree : SanctionsMerkleTree} {root : Bytes32} {witness : SanctionsWitness}
    (hb : Built sha256 addresses d tree) (hroot : tree.root = .ok root)
    (acc : SanctionsAccepted sha256 witness) (hwitness : witness.sanctionsRoot = root)
    (cf : CollisionFreeOn sha256 (BuildHashes tree ∪ CircuitHashes sha256 witness)) :
    witness.recipient ∉ addresses := by
  have hbuilt : root = _ := Except.ok.inj (hroot.symm.trans (built_root hb))
  have hleft := path_pins_leaf hb cf Set.subset_union_left (Or.inr .left)
    (fun p hp => Or.inr (.leftNode p hp)) (acc.leftWalk.trans (hwitness.trans hbuilt))
  have hright := path_pins_leaf hb cf Set.subset_union_left (Or.inr .right)
    (fun p hp => Or.inr (.rightNode p hp)) (acc.rightWalk.trans (hwitness.trans hbuilt))
  rw [adjacent_positions hb.sorted acc.adjacent (acc.above.trans acc.below) hleft hright] at hright
  intro hlisted
  exact not_mem_between hb.sorted hleft hright acc.above acc.below
    ((hb.mem _).mpr (Or.inr (Or.inr ⟨_, hlisted, rfl⟩)))

theorem tooOld_now (now : UInt64) : tooOld now now = false :=
  tooOld_eq_false.mpr (Or.inr (by omega))

/-- While the last update of a run names the root of a list's tree, a transfer that carries a
sanctions run is about no address of the list, and every address that the oracle of this list
clears can be put in its place. -/
theorem sanctions_enforced {config : BridgeConfig} {txs : List Tx} {slice : AddressSlice}
    {tree : SanctionsMerkleTree} {root : Bytes32} {ctx : TxContext} {msg : TransferMessage}
    {s' : Runtime} (hbuild : build b.sha256 slice.addresses = .ok tree)
    (hroot : tree.root = .ok root) (hset : root ≠ zeroBytes)
    (hlast : lastSanctionsRoot txs = some root)
    (hcall : Runtime.call b ⟨ctx, .obscuraPrivacy (.transfer msg)⟩ (Runtime.run b config txs) =
      .ok s') :
    (∀ witness out, sanctionsMain b.sha256 witness = .ok out →
      msg.sanctionsPublicInputs = out.publicInputs →
      CollisionFreeOn b.sha256 (BuildHashes tree ∪ CircuitHashes b.sha256 witness) →
      witness.recipient ∉ slice.addresses) ∧
    ∀ address, tree.isSanctioned b.sha256 address = false → ∀ timestamp, ∃ served out,
      tree.nonMembershipWitness b.sha256 address timestamp = .ok served ∧
        sanctionsMain b.sha256 (served.forRecipient address ctx.nowSecs) = .ok out ∧
        Runtime.call b ⟨ctx, .obscuraPrivacy (.transfer
          { msg with sanctionsPublicInputs := out.publicInputs })⟩ (Runtime.run b config txs) =
            .ok s' := by
  obtain ⟨built, d, hbuilt, hb⟩ := build_ok b.sha256 slice.addresses
  cases Except.ok.inj (hbuild.symm.trans hbuilt)
  have hstored := (run_sanctionsRoot (b := b) config txs).trans hlast
  have hcurrent : (Runtime.run b config txs).obscuraPrivacy.currentSanctionsRoot = root := by
    rw [currentSanctionsRoot, hstored]
    rfl
  generalize Runtime.run b config txs = s at hcall hcurrent ⊢
  simp only [Runtime.call, ObscuraPrivacy.call, bind_ok, pure_ok] at hcall
  obtain ⟨privacy, hp, rfl⟩ := hcall
  constructor
  · intro witness out hmain hinputs cf
    obtain ⟨haccepted, rfl⟩ := sanctionsMain_ok.mp hmain
    have hroots := (handleTransfer_ok.mp hp).1.roots
    simp only [transferRootChecks, bind_ok, ensure_ok, hcurrent, hinputs] at hroots
    obtain ⟨_, _, _, _, hgate⟩ := hroots
    exact accepted_not_listed hb hroot haccepted (hgate.resolve_left hset) cf
  · intro address hclear timestamp
    have hm : hashAddr b.sha256 address ∉ tree.sortedAddrHashes := by
      intro hlisted
      rw [(isSanctioned_iff hb address).mpr hlisted] at hclear
      cases hclear
    obtain ⟨served, hserved, haccepted⟩ := nonMembershipWitness_unlisted hb timestamp hm
    have hservedRoot : served.sanctionsRoot = root :=
      (Except.ok.inj (hroot.symm.trans (witness_root hserved))).symm
    refine ⟨served, _, hserved, sanctionsMain_ok.mpr ⟨haccepted ctx.nowSecs, rfl⟩, ?_⟩
    have hother := handleTransfer_other_sanctions
      ((served.forRecipient address ctx.nowSecs).outputs b.sha256).publicInputs hp
      (Or.inr (hservedRoot.trans hcurrent.symm)) (tooOld_now ctx.nowSecs)
    simp only [Runtime.call, ObscuraPrivacy.call, hother]
    rfl

end Enforced

section Sample

/-- Anyone sends the root of the list. -/
def listUpdate : Tx := ⟨⟨[], 0⟩, .obscuraPrivacy (.updateSanctionsRoot ⟨listedRoot⟩)⟩

def clearedTransfer : TransferMessage :=
  { idleTransfer with
    sanctionsPublicInputs := (cleanWitness.outputs ObscuraNetwork.sha256).publicInputs }

theorem listed_run : (Runtime.run .default .default [listUpdate]).obscuraPrivacy =
    { ObscuraPrivacy.genesis .default with sanctionsRoot := some listedRoot } := rfl

theorem clearedTransfer_accepted :
    ∃ s', Runtime.call .default ⟨⟨[], 0⟩, .obscuraPrivacy (.transfer clearedTransfer)⟩
      (Runtime.run .default .default [listUpdate]) = .ok s' := by
  have hroot : clearedTransfer.sanctionsPublicInputs.sanctionsRoot =
      (Runtime.run .default .default [listUpdate]).obscuraPrivacy.currentSanctionsRoot := by
    rw [listed_run]
    rfl
  have hchecks : TransferChecks .default 0 clearedTransfer
      (Runtime.run .default .default [listUpdate]).obscuraPrivacy := by
    refine mock_transferChecks rfl rfl (Or.inl rfl) (Or.inr hroot) rfl ?_
    intro nullifier hnullifier
    cases hnullifier
  have hpass : ∃ privacy, handleTransfer .default 0 clearedTransfer
      (Runtime.run .default .default [listUpdate]).obscuraPrivacy = .ok privacy :=
    ⟨_, handleTransfer_ok.mpr ⟨hchecks, _, rfl, rfl⟩⟩
  obtain ⟨privacy, hp⟩ := hpass
  exact ⟨_, bind_ok.mpr ⟨privacy, hp, rfl⟩⟩

theorem cleanRecipient_clear :
    listedTree.isSanctioned ObscuraNetwork.sha256 cleanWitness.recipient = false := by
  decide +kernel

/-- After the update the transfer is about an unlisted address, and the oracle's own witness for it
does as well. -/
theorem sanctions_enforced_cleared :
    ∃ s', Runtime.call .default ⟨⟨[], 0⟩, .obscuraPrivacy (.transfer clearedTransfer)⟩
        (Runtime.run .default .default [listUpdate]) = .ok s' ∧
      cleanWitness.recipient ∉ [sanctionedAddress] ∧
      ∃ served out,
        listedTree.nonMembershipWitness ObscuraNetwork.sha256 cleanWitness.recipient 0 =
          .ok served ∧
        sanctionsMain ObscuraNetwork.sha256 (served.forRecipient cleanWitness.recipient 0) =
          .ok out ∧
        Runtime.call .default ⟨⟨[], 0⟩, .obscuraPrivacy (.transfer
          { clearedTransfer with sanctionsPublicInputs := out.publicInputs })⟩
          (Runtime.run .default .default [listUpdate]) = .ok s' := by
  obtain ⟨s', hs'⟩ := clearedTransfer_accepted
  have hset : listedRoot ≠ zeroBytes := by decide +kernel
  obtain ⟨about, service⟩ := @sanctions_enforced .default .default [listUpdate]
    ⟨[sanctionedAddress], by decide⟩ listedTree listedRoot _ _ _ listedTree_built rfl hset rfl hs'
  refine ⟨s', hs', ?_, service _ cleanRecipient_clear 0⟩
  exact about cleanWitness _ (sanctionsMain_ok.mpr ⟨cleanWitness_accepted, rfl⟩) rfl
    (collisionFreeOn_of_nodup listedStrings_cover listedStrings_distinct)

end Sample

end ObscuraNetwork
