import ObscuraNetwork.Quorum
import ObscuraNetwork.Secp256k1
import ObscuraNetwork.SignerSet

namespace ObscuraNetwork

namespace BridgeV2

/-- A signature that `recoverSigner` reads: 65 bytes, and a last one that stands for 27 or 28. -/
def WellFormedSignature (sig : Bytes) : Prop :=
  sig.length = 65 ∧ (sig.getD 64 0 = 0 ∨ sig.getD 64 0 = 1 ∨ sig.getD 64 0 = 27 ∨
    sig.getD 64 0 = 28)

section Count

variable {ecrecover : Bytes32 → UInt8 → Bytes → Bytes → Bytes20} {msgHash : Bytes32}

theorem recoverSigner_wellFormed {sig : Bytes} (h : WellFormedSignature sig) :
    ∃ recovered, recoverSigner ecrecover msgHash sig = .ok recovered := by
  obtain ⟨hlen, hv⟩ := h
  have hvalid : (if sig.getD 64 0 < 27 then sig.getD 64 0 + 27 else sig.getD 64 0) = 27 ∨
      (if sig.getD 64 0 < 27 then sig.getD 64 0 + 27 else sig.getD 64 0) = 28 := by
    rcases hv with h | h | h | h
    · rw [h]
      exact Or.inl rfl
    · rw [h]
      exact Or.inr rfl
    · rw [h]
      exact Or.inl rfl
    · rw [h]
      exact Or.inr rfl
  refine ⟨ecrecover msgHash (if sig.getD 64 0 < 27 then sig.getD 64 0 + 27 else sig.getD 64 0)
    (sig.take 32) ((sig.drop 32).take 32), ?_⟩
  simp only [recoverSigner, ensure_true hlen, ok_bind, ensure_true hvalid]
  rfl

/-- With room for a quorum the loop collects the different signers among the recovered ones. -/
theorem countSigners_collect {s : BridgeV2} (hroom : s.threshold ≤ maxSigners)
    {recovered : Bytes → Bytes20} {signatures : List Bytes}
    (h : ∀ sig ∈ signatures, recoverSigner ecrecover msgHash sig = .ok (recovered sig))
    (seen : List Bytes20) : countSigners ecrecover msgHash s signatures seen =
      .ok (Quorum.collect s.threshold s.isRelayer (signatures.map recovered) seen) := by
  induction signatures generalizing seen with
  | nil => rfl
  | cons sig rest ih =>
    have hrest := ih fun sig hsig => h sig (List.mem_cons_of_mem _ hsig)
    rw [countSigners, List.map_cons, Quorum.collect]
    split
    next hmore =>
      rw [h sig List.mem_cons_self, ok_bind]
      have hseen : inArray seen (recovered sig) = false ↔ recovered sig ∉ seen := by
        rw [← Bool.not_eq_true, inArray_iff]
      simp only [hseen]
      split
      next =>
        have hslot : seen.length < 10 := Nat.lt_of_lt_of_le hmore hroom
        rw [ensure_true hslot, ok_bind]
        exact hrest _
      next => exact hrest _
    next => rfl

/-- The loop never leaves the ten slots, and what it has seen are different signers whose addresses
were recovered. Enough are seen exactly when the signatures of that many signers are there. -/
theorem countSigners_quorum {s : BridgeV2} (hvalid : ValidSigners s) {signatures : List Bytes}
    (h : ∀ sig ∈ signatures, WellFormedSignature sig) :
    ∃ seen, countSigners ecrecover msgHash s signatures [] = .ok seen ∧
      seen.length ≤ s.threshold ∧ seen.length ≤ signatures.length ∧
      (s.threshold ≤ seen.length ↔ ∃ quorum : Finset Bytes20, s.threshold ≤ quorum.card ∧
        ∀ signer ∈ quorum, signer ∈ s.relayerSigners ∧
          ∃ sig ∈ signatures, recoverSigner ecrecover msgHash sig = .ok signer) := by
  have hex : ∀ sig, ∃ recovered, sig ∈ signatures →
      recoverSigner ecrecover msgHash sig = .ok recovered := by
    intro sig
    by_cases hsig : sig ∈ signatures
    · obtain ⟨recovered, hrecovered⟩ := recoverSigner_wellFormed (h sig hsig)
      exact ⟨recovered, fun _ => hrecovered⟩
    · exact ⟨zeroAddress, fun hin => absurd hin hsig⟩
  choose recovered hrecovered using hex
  have hroom : s.threshold ≤ maxSigners := hvalid.enough.trans hvalid.room
  have hlength : (Quorum.collect s.threshold s.isRelayer (signatures.map recovered) []).length ≤
      signatures.length := by
    refine Quorum.collect_length_le_add.trans_eq ?_
    rw [List.length_nil, Nat.zero_add, List.length_map]
  refine ⟨_, countSigners_collect hroom hrecovered [], Quorum.collect_length_le (Nat.zero_le _),
    hlength, ?_⟩
  have hadmitted : ∀ signer, signer ∈ signatures.map recovered ∧ s.isRelayer signer = true ↔
      signer ∈ s.relayerSigners ∧
        ∃ sig ∈ signatures, recoverSigner ecrecover msgHash sig = .ok signer := by
    intro signer
    rw [isRelayer_iff, List.mem_map, and_comm]
    refine and_congr_right fun _ => exists_congr fun sig => and_congr_right fun hsig => ?_
    rw [hrecovered sig hsig, Except.ok.injEq]
  rw [Quorum.quorum_le_collect]
  simp only [hadmitted]

end Count

end BridgeV2

theorem SolvencyInvariant.locked_le {bridge : Bytes20} {l : Ledger} {h : History}
    (inv : SolvencyInvariant bridge l h) {id : Nat} (hlocked : (l.deposits id).status = 1) :
    (l.deposits id).amount ≤ l.usdc.balanceOf bridge := by
  have hid := Finset.mem_range.mpr ((inv.live id).mp (Or.inl hlocked))
  have howed : (l.deposits id).owed = (l.deposits id).amount := if_pos hlocked
  have hsum := Finset.single_le_sum (f := fun id => (l.deposits id).owed)
    (fun _ _ => Nat.zero_le _) hid
  rw [← howed]
  exact hsum.trans inv.backed

theorem Ledger.payOut_moves {label : String} {bridge : Bytes20} {ctx : CallContext bridge}
    (hmoves : ctx.usdc = .moves) {depositId : Nat} {l : Ledger}
    (hfunds : (l.deposits depositId).amount ≤ l.usdc.balanceOf bridge) (recipient : Bytes20)
    (withdrawalNonce : Bytes32) :
    ∃ l', l.payOut label ctx depositId recipient withdrawalNonce = .ok l' := by
  simp only [payOut, bind_ok, ensure_ok, pure_ok, Prod.exists]
  exact ⟨_, true, _, Erc20.transfer_true.mpr ⟨hmoves, hfunds, rfl⟩, (), rfl, rfl⟩

theorem Ledger.payOut_noPanic {label : String} {bridge : Bytes20} {ctx : CallContext bridge}
    {depositId : Nat} {recipient : Bytes20} {withdrawalNonce : Bytes32} (l : Ledger) :
    NoPanic (l.payOut label ctx depositId recipient withdrawalNonce) := by
  have htransfer : ∀ (t : Erc20) (sender recipient : Bytes20) (amount : Nat),
      NoPanic (t.transfer ctx.usdc sender recipient amount) := by
    intro t sender recipient amount
    cases ctx.usdc with
    | moves => exact (noPanic_ensure _ _).bind fun _ _ => noPanic_ok _
    | returnsFalse => exact noPanic_ok _
    | reverts => exact noPanic_bail _
  refine (htransfer _ _ _ _).bind fun pair _ => ?_
  exact (noPanic_ensure _ _).bind fun _ _ => noPanic_ok _

namespace BridgeV2

variable {keccak256 : Bytes → Bytes32} {ecrecover : Bytes32 → UInt8 → Bytes → Bytes → Bytes20}
  {chainId : Nat} {bridge : Bytes20}

theorem auditAll_solvency {owner : Bytes20} {signers : List Bytes20} {threshold : Nat}
    {usdc : Erc20} {deployed : BridgeV2}
    (hdeployed : construct owner signers threshold (Ledger.initial usdc) = .ok deployed)
    (actions : List (BridgeAction bridge BridgeV2Call)) :
    SolvencyInvariant bridge
      (auditAll ledger (act keccak256 ecrecover chainId) deployed actions).contract.ledger
      (auditAll ledger (act keccak256 ecrecover chainId) deployed actions).history := by
  have hstart := initial_invariant bridge usdc
  rw [← construct_ledger hdeployed] at hstart
  exact auditAll_invariant (fun _ _ _ _ => act_step) hstart actions

theorem releaseMultisig_ok_iff {s : BridgeV2} {ctx : CallContext bridge} {depositId : Nat}
    {recipient : Bytes20} {withdrawalNonce : Bytes32} {signatures : List Bytes}
    (hmoves : ctx.usdc = .moves)
    (hnonce : s.ledger.usedWithdrawalNonces withdrawalNonce = false)
    (hlocked : (s.ledger.deposits depositId).status = 1) (hrecipient : recipient ≠ zeroAddress)
    (hfunds : (s.ledger.deposits depositId).amount ≤ s.ledger.usdc.balanceOf bridge)
    {seen : List Bytes20} (hseen : countSigners ecrecover (signedMessage keccak256
      (releaseHash keccak256 chainId depositId recipient withdrawalNonce)) s signatures [] =
        .ok seen) :
    (∃ s', s.releaseMultisig keccak256 ecrecover chainId ctx depositId recipient withdrawalNonce
      signatures = .ok s') ↔ s.threshold ≤ signatures.length ∧ s.threshold ≤ seen.length := by
  obtain ⟨ledger, hpaid⟩ : ∃ ledger,
      s.ledger.payOut "" ctx depositId recipient withdrawalNonce = .ok ledger :=
    Ledger.payOut_moves hmoves hfunds recipient withdrawalNonce
  simp only [releaseMultisig, bind_ok, ensure_ok, pure_ok]
  constructor
  · intro h
    obtain ⟨_, _, _, _, _, _, _, _, henough, seen', hseen', _, hcount, _⟩ := h
    rw [hseen] at hseen'
    cases hseen'
    exact ⟨henough, hcount⟩
  · intro h
    exact ⟨_, (), hnonce, (), hlocked, (), hrecipient, (), h.1, seen, hseen, (), h.2, ledger, hpaid,
      rfl⟩

theorem releaseMultisig_noPanic {s : BridgeV2} {ctx : CallContext bridge} {depositId : Nat}
    {recipient : Bytes20} {withdrawalNonce : Bytes32} {signatures : List Bytes}
    {seen : List Bytes20} (hseen : countSigners ecrecover (signedMessage keccak256
      (releaseHash keccak256 chainId depositId recipient withdrawalNonce)) s signatures [] =
        .ok seen) :
    NoPanic (s.releaseMultisig keccak256 ecrecover chainId ctx depositId recipient withdrawalNonce
      signatures) := by
  rw [releaseMultisig]
  refine (noPanic_ensure _ _).bind fun _ _ => ?_
  refine (noPanic_ensure _ _).bind fun _ _ => ?_
  refine (noPanic_ensure _ _).bind fun _ _ => ?_
  refine (noPanic_ensure _ _).bind fun _ _ => ?_
  dsimp only
  rw [hseen, ok_bind]
  refine (noPanic_ensure _ _).bind fun _ _ => ?_
  exact (Ledger.payOut_noPanic _).bind fun _ _ => noPanic_ok _

end BridgeV2

open BridgeV2 in
/-- In every reachable state a release of a locked deposit under well-formed signatures goes through
exactly when these recover to a threshold of different signers. An outsider is none of them, nor is
the zero address of a failed recovery; and the call does not run out of its ten slots. -/
theorem release_iff_quorum (keccak256 : Bytes → Bytes32)
    (ecrecover : Bytes32 → UInt8 → Bytes → Bytes → Bytes20) (chainId : Nat) (bridge owner : Bytes20)
    (signers : List Bytes20) (threshold : Nat) (usdc : Erc20) {deployed : BridgeV2}
    (hdeployed : construct owner signers threshold (Ledger.initial usdc) = .ok deployed)
    (actions : List (BridgeAction bridge BridgeV2Call)) (ctx : CallContext bridge)
    (hmoves : ctx.usdc = .moves) (depositId : Nat) (recipient : Bytes20)
    (withdrawalNonce : Bytes32) (signatures : List Bytes)
    (hsignatures : ∀ sig ∈ signatures, WellFormedSignature sig) :
    let s := (auditAll ledger (act keccak256 ecrecover chainId) deployed actions).contract
    let msgHash := signedMessage keccak256
      (releaseHash keccak256 chainId depositId recipient withdrawalNonce)
    let released := s.releaseMultisig keccak256 ecrecover chainId ctx depositId recipient
      withdrawalNonce signatures
    (s.ledger.usedWithdrawalNonces withdrawalNonce = false →
      (s.ledger.deposits depositId).status = 1 → recipient ≠ zeroAddress →
      ((∃ s', released = .ok s') ↔ ∃ quorum : Finset Bytes20, s.threshold ≤ quorum.card ∧
        ∀ signer ∈ quorum, signer ∈ s.relayerSigners ∧
          ∃ sig ∈ signatures, recoverSigner ecrecover msgHash sig = .ok signer)) ∧
    zeroAddress ∉ s.relayerSigners ∧ NoPanic released := by
  intro s msgHash released
  have hvalid : ValidSigners s := auditAll_valid (construct_valid hdeployed).2 actions
  have inv : SolvencyInvariant bridge s.ledger _ := auditAll_solvency hdeployed actions
  obtain ⟨seen, hseen, _, hlength, hquorum⟩ :=
    @countSigners_quorum ecrecover msgHash s hvalid signatures hsignatures
  refine ⟨fun hnonce hlocked hrecipient => ?_, hvalid.nonzero, releaseMultisig_noPanic hseen⟩
  rw [← hquorum]
  refine (releaseMultisig_ok_iff hmoves hnonce hlocked hrecipient (inv.locked_le hlocked)
    hseen).trans ⟨And.right, fun hcount => ⟨?_, hcount⟩⟩
  exact hcount.trans hlength

section Sample

/-- A signature as it is packed for the contract. -/
def packSignature (r s : Nat) (v : UInt8) : Bytes := toBeBytes 32 r ++ toBeBytes 32 s ++ [v]

theorem packSignature_wellFormed (r s : Nat) {v : UInt8} (h : v = 0 ∨ v = 1 ∨ v = 27 ∨ v = 28) :
    BridgeV2.WellFormedSignature (packSignature r s v) := by
  have hlast : (packSignature r s v).getD 64 0 = v := by
    rw [packSignature, List.getD_eq_getElem?_getD, List.getElem?_append_right (by simp)]
    simp
  refine ⟨by simp [packSignature], ?_⟩
  rw [hlast]
  exact h

/-- The first relayer's signature of the release of deposit 0 to the user under nonce 1. -/
def signature1 : Bytes :=
  packSignature 0xe9713309e4a19872f7236da8ffe2cbe99a81c6a8e1432cd3210504697b5f0fa0
    0x1203d0e830e6e09b698409201a92e1f86301c3a48c75ea2c2508e24c435206ad 27

/-- The second relayer's signature of the same release, with `v` counted from zero. -/
def signature2 : Bytes :=
  packSignature 0xa8b399e78ba4004f69f2b3b5e77a92ccd5170b5fbf24d31764be1d53d5336133
    0x634aebee2469dd74abcffceeace2ab9a0971bff6ae22336bc6fa3e57d3377f98 1

def sampleDigest : Bytes32 := BridgeV2.signedMessage keccak256
  (BridgeV2.releaseHash keccak256 11155111 0 sampleUser (FixedBytes.replicate 32 1))

theorem signature1_recovers :
    BridgeV2.recoverSigner Secp256k1.ecrecover sampleDigest signature1 = .ok relayer1 := by
  decide +kernel

theorem signature2_recovers :
    BridgeV2.recoverSigner Secp256k1.ecrecover sampleDigest signature2 = .ok relayer2 := by
  decide +kernel

def sampleDeposit : List (BridgeAction sampleBridge BridgeV2Call) :=
  [.call (sampleCtx .moves) (.deposit 2000000 (FixedBytes.replicate 32 7))]

theorem release_iff_quorum_two : ∃ s',
    (auditAll BridgeV2.ledger (BridgeV2.act keccak256 Secp256k1.ecrecover 11155111) sampleDeployed
      sampleDeposit).contract.releaseMultisig keccak256 Secp256k1.ecrecover 11155111
        (sampleCtx .moves) 0 sampleUser (FixedBytes.replicate 32 1) [signature1, signature2] =
      .ok s' := by
  have hdeployed : BridgeV2.construct sampleOwner sampleSigners 2 (Ledger.initial sampleUsdc) =
      .ok sampleDeployed := rfl
  have hsignatures : ∀ sig ∈ [signature1, signature2], BridgeV2.WellFormedSignature sig := by
    intro sig hsig
    simp only [List.mem_cons, List.not_mem_nil, or_false] at hsig
    rcases hsig with rfl | rfl
    · exact packSignature_wellFormed _ _ (by decide)
    · exact packSignature_wellFormed _ _ (by decide)
  have hreleased := (release_iff_quorum keccak256 Secp256k1.ecrecover 11155111 sampleBridge
    sampleOwner sampleSigners 2 sampleUsdc hdeployed sampleDeposit (sampleCtx .moves) rfl 0
    sampleUser (FixedBytes.replicate 32 1) _ hsignatures).1
  refine (hreleased rfl rfl (by decide)).mpr ⟨{relayer1, relayer2}, by decide,
    fun signer hsigner => ?_⟩
  rcases Finset.mem_insert.mp hsigner with rfl | hlast
  · exact ⟨by decide, signature1, by simp, signature1_recovers⟩
  · rw [Finset.mem_singleton.mp hlast]
    exact ⟨by decide, signature2, by simp, signature2_recovers⟩

end Sample

end ObscuraNetwork
