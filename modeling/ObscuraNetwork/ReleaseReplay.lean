import ObscuraNetwork.CollisionFree
import ObscuraNetwork.GenuineDeposit
import ObscuraNetwork.MultisigRelease

namespace ObscuraNetwork

/-- The arguments of a release that its signers sign. -/
structure ReleaseRequest where
  depositId : Nat
  recipient : Bytes20
  withdrawalNonce : Bytes32

namespace ReleaseRequest

variable (keccak256 : Bytes → Bytes32) (chainId : Nat)

def payload (r : ReleaseRequest) : Bytes :=
  toBeBytes 32 r.depositId ++ r.recipient.bytes ++ r.withdrawalNonce.bytes ++ toBeBytes 32 chainId

/-- The payload hash behind the prefix of `personal_sign`. -/
def message (r : ReleaseRequest) : Bytes :=
  0x19 :: ("Ethereum Signed Message:\n32".toList.map fun c => UInt8.ofNat c.toNat) ++
    (keccak256 (r.payload chainId)).bytes

def digest (r : ReleaseRequest) : Bytes32 := keccak256 (r.message keccak256 chainId)

theorem digest_eq (r : ReleaseRequest) :
    r.digest keccak256 chainId = BridgeV2.signedMessage keccak256
      (BridgeV2.releaseHash keccak256 chainId r.depositId r.recipient r.withdrawalNonce) := rfl

/-- What is hashed for the two releases. -/
def hashed (r r' : ReleaseRequest) : Set Bytes :=
  {r.payload chainId, r.message keccak256 chainId, r'.payload chainId,
    r'.message keccak256 chainId}

variable {keccak256 chainId} {r r' : ReleaseRequest}

theorem payload_injective (hr : r.depositId < 2 ^ 256) (hr' : r'.depositId < 2 ^ 256)
    (h : r.payload chainId = r'.payload chainId) : r = r' := by
  have hlen : ∀ r : ReleaseRequest,
      (toBeBytes 32 r.depositId ++ r.recipient.bytes ++ r.withdrawalNonce.bytes).length = 84 := by
    intro r
    simp
  obtain ⟨hfields, _⟩ := List.append_inj h ((hlen r).trans (hlen r').symm)
  obtain ⟨hfields, hnonce⟩ := List.append_inj hfields (by simp)
  obtain ⟨hid, hrecipient⟩ := List.append_inj hfields (by simp)
  have hvalue := congrArg beValue hid
  rw [beValue_toBeBytes, beValue_toBeBytes, Nat.mod_eq_of_lt (by omega),
    Nat.mod_eq_of_lt (by omega)] at hvalue
  cases r
  cases r'
  simp only at hvalue hrecipient hnonce
  rw [hvalue, FixedBytes.ext_bytes hrecipient, FixedBytes.ext_bytes hnonce]

theorem digest_injective (hcf : CollisionFreeOn keccak256 (hashed keccak256 chainId r r'))
    (hr : r.depositId < 2 ^ 256) (hr' : r'.depositId < 2 ^ 256)
    (h : r.digest keccak256 chainId = r'.digest keccak256 chainId) : r = r' := by
  have hmessage : r.message keccak256 chainId = r'.message keccak256 chainId := by
    apply hcf _ _ h
    · simp [hashed]
    · simp [hashed]
  have hhash : keccak256 (r.payload chainId) = keccak256 (r'.payload chainId) :=
    FixedBytes.ext_bytes (List.append_cancel_left hmessage)
  have hpayload : r.payload chainId = r'.payload chainId := by
    apply hcf _ _ hhash
    · simp [hashed]
    · simp [hashed]
  exact payload_injective hr hr' hpayload

end ReleaseRequest

/-- Who has signed which digest, and with which bytes. -/
abbrev Signed := Bytes20 → Bytes32 → Bytes → Prop

/-- Digests, each with a signature that is presented for it. -/
abbrev Presented := Set (Bytes32 × Bytes)

/-- A presented signature that recovers to one of the accounts has been made by this account. -/
def Unforgeable (ecrecover : Bytes32 → UInt8 → Bytes → Bytes → Bytes20)
    (accounts : List Bytes20) (signed : Signed) (presented : Presented) : Prop :=
  ∀ msgHash sig, (msgHash, sig) ∈ presented → ∀ signer ∈ accounts,
    BridgeV2.recoverSigner ecrecover msgHash sig = .ok signer → signed signer msgHash sig

/-- The accounts have made no signature for two of the digests that it is presented for. -/
def SignedOnce (accounts : List Bytes20) (signed : Signed) (presented : Presented) : Prop :=
  ∀ msgHash msgHash' sig, (msgHash, sig) ∈ presented → (msgHash', sig) ∈ presented →
    ∀ signer ∈ accounts, ∀ signer' ∈ accounts, signed signer msgHash sig →
      signed signer' msgHash' sig → msgHash = msgHash'

theorem Unforgeable.mono {ecrecover : Bytes32 → UInt8 → Bytes → Bytes → Bytes20}
    {accounts : List Bytes20} {signed : Signed} {presented presented' : Presented}
    (h : Unforgeable ecrecover accounts signed presented') (hsub : presented ⊆ presented') :
    Unforgeable ecrecover accounts signed presented :=
  fun msgHash sig hmem => h msgHash sig (hsub hmem)

/-- The signatures of a list, each for both releases. -/
def ReleaseRequest.presented (keccak256 : Bytes → Bytes32) (chainId : Nat)
    (r r' : ReleaseRequest) (signatures : List Bytes) : Presented :=
  {p | (p.1 = r.digest keccak256 chainId ∨ p.1 = r'.digest keccak256 chainId) ∧ p.2 ∈ signatures}

/-- Every signature of the list was made by one of the accounts for the digest of the request. -/
def ReleaseRequest.ProducedBy (keccak256 : Bytes → Bytes32) (chainId : Nat) (signed : Signed)
    (accounts : List Bytes20) (r : ReleaseRequest) (signatures : List Bytes) : Prop :=
  ∀ sig ∈ signatures, ∃ signer ∈ accounts, signed signer (r.digest keccak256 chainId) sig

namespace BridgeV2

variable {keccak256 : Bytes → Bytes32} {ecrecover : Bytes32 → UInt8 → Bytes → Bytes → Bytes20}
  {chainId : Nat} {bridge : Bytes20}

/-- Whatever the loop has seen was recovered from one of the signatures and is a signer. -/
theorem mem_of_countSigners {msgHash : Bytes32} {s : BridgeV2} {signatures : List Bytes}
    {seen seen' : List Bytes20}
    (h : countSigners ecrecover msgHash s signatures seen = .ok seen') {signer : Bytes20}
    (hsigner : signer ∈ seen') : signer ∈ seen ∨ (signer ∈ s.relayerSigners ∧
      ∃ sig ∈ signatures, recoverSigner ecrecover msgHash sig = .ok signer) := by
  induction signatures generalizing seen with
  | nil =>
    cases h
    exact Or.inl hsigner
  | cons sig rest ih =>
    have hrest : ∀ {seen : List Bytes20},
        countSigners ecrecover msgHash s rest seen = .ok seen' →
          signer ∈ seen ∨ (signer ∈ s.relayerSigners ∧
            ∃ sig' ∈ sig :: rest, recoverSigner ecrecover msgHash sig' = .ok signer) := by
      intro seen hcount
      rcases ih hcount with hseen | ⟨hmember, sig', hsig', hrecovered⟩
      · exact Or.inl hseen
      · exact Or.inr ⟨hmember, sig', List.mem_cons_of_mem sig hsig', hrecovered⟩
    rw [countSigners] at h
    split at h
    next =>
      simp only [bind_ok] at h
      obtain ⟨recovered, hrecovered, h⟩ := h
      split at h
      next hnew =>
        obtain ⟨_, _, h⟩ := bind_ok.mp h
        rcases hrest h with hseen | hlater
        · rcases List.mem_append.mp hseen with hold | hlast
          · exact Or.inl hold
          · rw [List.mem_singleton.mp hlast]
            exact Or.inr ⟨isRelayer_iff.mp hnew.1, sig, List.mem_cons_self, hrecovered⟩
        · exact Or.inr hlater
      next => exact hrest h
    next =>
      cases h
      exact Or.inl hsigner

/-- A release that goes through has been signed by a signer. -/
theorem exists_signer_of_release {s s' : BridgeV2} {ctx : CallContext bridge} {r : ReleaseRequest}
    {signatures : List Bytes} (hpositive : 1 ≤ s.threshold)
    (h : s.releaseMultisig keccak256 ecrecover chainId ctx r.depositId r.recipient
      r.withdrawalNonce signatures = .ok s') :
    ∃ signer ∈ s.relayerSigners, ∃ sig ∈ signatures,
      recoverSigner ecrecover (r.digest keccak256 chainId) sig = .ok signer := by
  rw [ReleaseRequest.digest_eq]
  simp only [releaseMultisig, bind_ok, ensure_ok] at h
  obtain ⟨_, _, _, _, _, _, _, _, seen, hseen, _, hcount, _⟩ := h
  have hsome : 0 < seen.length := by omega
  obtain ⟨signer, hsigner⟩ := List.exists_mem_of_length_pos hsome
  obtain ⟨hmember, hsig⟩ := (mem_of_countSigners hseen hsigner).resolve_left List.not_mem_nil
  exact ⟨signer, hmember, hsig⟩

end BridgeV2

open BridgeV2 in
/-- Signatures made for a release on one bridge are of no use on another bridge of the chain for any
other deposit id, recipient or nonce. -/
theorem other_release_refused (keccak256 : Bytes → Bytes32)
    (ecrecover : Bytes32 → UInt8 → Bytes → Bytes → Bytes20) (chainId : Nat) {bridge other : Bytes20}
    (deployed : BridgeV2) {owner : Bytes20} {signers : List Bytes20} {threshold : Nat}
    {usdc : Erc20} {deployed' : BridgeV2}
    (hdeployed' : construct owner signers threshold (Ledger.initial usdc) = .ok deployed')
    (actions : List (BridgeAction bridge BridgeV2Call))
    (actions' : List (BridgeAction other BridgeV2Call)) {r r' : ReleaseRequest}
    (hr : r.depositId < 2 ^ 256) (hr' : r'.depositId < 2 ^ 256) (hne : r' ≠ r)
    (hcf : CollisionFreeOn keccak256 (ReleaseRequest.hashed keccak256 chainId r r'))
    (signed : Signed) (signatures : List Bytes) :
    let s := (auditAll ledger (act keccak256 ecrecover chainId) deployed actions).contract
    let s' := (auditAll ledger (act keccak256 ecrecover chainId) deployed' actions').contract
    let accounts := s.relayerSigners ++ s'.relayerSigners
    let presented := r.presented keccak256 chainId r' signatures
    Unforgeable ecrecover accounts signed presented → SignedOnce accounts signed presented →
      r.ProducedBy keccak256 chainId signed s.relayerSigners signatures →
      ∀ (ctx : CallContext other) (after : BridgeV2), s'.releaseMultisig keccak256 ecrecover chainId
        ctx r'.depositId r'.recipient r'.withdrawalNonce signatures ≠ .ok after := by
  intro s s' accounts presented hunforgeable honce hproduced ctx after hreleased
  have hvalid' : ValidSigners s' := auditAll_valid (construct_valid hdeployed').2 actions'
  obtain ⟨signer', hsigner', sig, hsig, hrecovered⟩ :=
    exists_signer_of_release hvalid'.positive hreleased
  obtain ⟨signer, hsigner, hsigned⟩ := hproduced sig hsig
  have hmem : (r.digest keccak256 chainId, sig) ∈ presented := ⟨Or.inl rfl, hsig⟩
  have hmem' : (r'.digest keccak256 chainId, sig) ∈ presented := ⟨Or.inr rfl, hsig⟩
  have haccount : signer ∈ accounts := List.mem_append_left _ hsigner
  have haccount' : signer' ∈ accounts := List.mem_append_right _ hsigner'
  have hsigned' : signed signer' (r'.digest keccak256 chainId) sig :=
    hunforgeable _ _ hmem' signer' haccount' hrecovered
  have hdigest : r.digest keccak256 chainId = r'.digest keccak256 chainId :=
    honce _ _ sig hmem hmem' signer haccount signer' haccount' hsigned hsigned'
  exact hne (ReleaseRequest.digest_injective hcf hr hr' hdigest).symm

section Sample

def sampleOther : Bytes20 := FixedBytes.replicate 20 0xcc

/-- It shares two signers with the first bridge. -/
def sampleOtherDeployed : BridgeV2 :=
  ⟨sampleOwner, 2, [relayer2, relayer1, sampleUser], Ledger.initial sampleUsdc⟩

def sampleOtherCtx : CallContext sampleOther := ⟨sampleUser, by decide, 1, .moves⟩

def sampleOtherDeposit : List (BridgeAction sampleOther BridgeV2Call) :=
  [.call sampleOtherCtx (.deposit 3000000 (FixedBytes.replicate 32 8))]

def sampleRequest (nonce : UInt8) : ReleaseRequest :=
  ⟨0, sampleUser, FixedBytes.replicate 32 nonce⟩

def otherDigest : Bytes32 := (sampleRequest 2).digest keccak256 11155111

def sampleHashed : List Bytes :=
  [(sampleRequest 1).payload 11155111, (sampleRequest 1).message keccak256 11155111,
    (sampleRequest 2).payload 11155111, (sampleRequest 2).message keccak256 11155111]

theorem sampleHashed_distinct : (sampleHashed.map keccak256).Nodup := by decide +kernel

theorem sampleHashed_collisionFree {i j : UInt8} (hi : i = 1 ∨ i = 2) (hj : j = 1 ∨ j = 2) :
    CollisionFreeOn keccak256
      (ReleaseRequest.hashed keccak256 11155111 (sampleRequest i) (sampleRequest j)) := by
  refine collisionFreeOn_of_nodup (fun m hm => ?_) sampleHashed_distinct
  rcases hi with rfl | rfl <;> rcases hj with rfl | rfl <;> rcases hm with rfl | rfl | rfl | rfl <;>
    simp [sampleHashed]

/-- The first two relayers have signed a digest, and nobody has signed another one. -/
def signedByTwo (digest : Bytes32) (sig₁ sig₂ : Bytes) : Signed := fun signer msgHash sig =>
  msgHash = digest ∧ ((signer = relayer1 ∧ sig = sig₁) ∨ (signer = relayer2 ∧ sig = sig₂))

theorem signedByTwo_once (digest : Bytes32) (sig₁ sig₂ : Bytes) (accounts : List Bytes20)
    (presented : Presented) : SignedOnce accounts (signedByTwo digest sig₁ sig₂) presented :=
  fun _ _ _ _ _ _ _ _ _ hsigned hsigned' => hsigned.1.trans hsigned'.1.symm

/-- It is enough that for the other presented digest the signatures recover to strangers. -/
theorem signedByTwo_unforgeable {digest other : Bytes32} {sig₁ sig₂ : Bytes}
    {accounts : List Bytes20} {presented : Presented}
    (h₁ : BridgeV2.recoverSigner Secp256k1.ecrecover digest sig₁ = .ok relayer1)
    (h₂ : BridgeV2.recoverSigner Secp256k1.ecrecover digest sig₂ = .ok relayer2)
    (hother : ∀ sig ∈ [sig₁, sig₂],
      BridgeV2.recoverSigner Secp256k1.ecrecover other sig ∉ accounts.map Except.ok)
    (hpresented : ∀ msgHash sig, (msgHash, sig) ∈ presented →
      (msgHash = digest ∨ msgHash = other) ∧ sig ∈ [sig₁, sig₂]) :
    Unforgeable Secp256k1.ecrecover accounts (signedByTwo digest sig₁ sig₂) presented := by
  intro msgHash sig hmem signer hsigner hrecovered
  obtain ⟨rfl | rfl, hsig⟩ := hpresented msgHash sig hmem
  · refine ⟨rfl, ?_⟩
    rcases List.mem_pair.mp hsig with rfl | rfl
    · rw [h₁, Except.ok.injEq] at hrecovered
      exact Or.inl ⟨hrecovered.symm, rfl⟩
    · rw [h₂, Except.ok.injEq] at hrecovered
      exact Or.inr ⟨hrecovered.symm, rfl⟩
  · exact absurd (hrecovered ▸ List.mem_map_of_mem hsigner) (hother sig hsig)

def sampleSignatures : List Bytes := [signature1, signature2]

def sampleSigned : Signed := signedByTwo sampleDigest signature1 signature2

/-- The accounts of both bridges. -/
def sampleAccounts : List Bytes20 := sampleSigners ++ sampleOtherDeployed.relayerSigners

theorem sampleSigned_unforgeable {nonce : UInt8} (h : nonce = 1 ∨ nonce = 2) :
    Unforgeable Secp256k1.ecrecover sampleAccounts sampleSigned
      ((sampleRequest 1).presented keccak256 11155111 (sampleRequest nonce) sampleSignatures) := by
  have hother : ∀ sig ∈ [signature1, signature2],
      BridgeV2.recoverSigner Secp256k1.ecrecover otherDigest sig ∉
        sampleAccounts.map Except.ok := by decide +kernel
  refine signedByTwo_unforgeable signature1_recovers signature2_recovers hother ?_
  rintro msgHash sig ⟨hdigest, hsig⟩
  refine ⟨?_, hsig⟩
  rcases h with rfl | rfl
  · exact Or.inl (hdigest.elim id id)
  · exact hdigest

theorem sampleSigned_producedBy :
    (sampleRequest 1).ProducedBy keccak256 11155111 sampleSigned sampleSigners
      sampleSignatures := by
  intro sig hsig
  rcases List.mem_pair.mp hsig with rfl | rfl
  · exact ⟨relayer1, by decide, rfl, Or.inl ⟨rfl, rfl⟩⟩
  · exact ⟨relayer2, by decide, rfl, Or.inr ⟨rfl, rfl⟩⟩

/-- The two bridges after a deposit each. -/
def sampleFirst : BridgeV2 :=
  (auditAll BridgeV2.ledger (BridgeV2.act keccak256 Secp256k1.ecrecover 11155111) sampleDeployed
    sampleDeposit).contract

def sampleSecond : BridgeV2 :=
  (auditAll BridgeV2.ledger (BridgeV2.act keccak256 Secp256k1.ecrecover 11155111)
    sampleOtherDeployed sampleOtherDeposit).contract

theorem sampleAccounts_eq :
    sampleFirst.relayerSigners ++ sampleSecond.relayerSigners = sampleAccounts := rfl

/-- The list that releases the deposit of the first bridge releases that of the second one too. -/
theorem signatures_accepted_twice :
    sampleBridge ≠ sampleOther ∧
      BridgeV2.construct sampleOwner sampleSigners 2 (Ledger.initial sampleUsdc) =
        .ok sampleDeployed ∧
      BridgeV2.construct sampleOwner sampleOtherDeployed.relayerSigners 2
        (Ledger.initial sampleUsdc) = .ok sampleOtherDeployed ∧
      CollisionFreeOn keccak256
        (ReleaseRequest.hashed keccak256 11155111 (sampleRequest 1) (sampleRequest 1)) ∧
      Unforgeable Secp256k1.ecrecover (sampleFirst.relayerSigners ++ sampleSecond.relayerSigners)
        sampleSigned ((sampleRequest 1).presented keccak256 11155111 (sampleRequest 1)
          sampleSignatures) ∧
      SignedOnce (sampleFirst.relayerSigners ++ sampleSecond.relayerSigners) sampleSigned
        ((sampleRequest 1).presented keccak256 11155111 (sampleRequest 1) sampleSignatures) ∧
      (sampleRequest 1).ProducedBy keccak256 11155111 sampleSigned sampleFirst.relayerSigners
        sampleSignatures ∧
      (sampleFirst.releaseMultisig keccak256 Secp256k1.ecrecover 11155111 (sampleCtx .moves) 0
        sampleUser (FixedBytes.replicate 32 1) sampleSignatures).isOk = true ∧
      (sampleSecond.releaseMultisig keccak256 Secp256k1.ecrecover 11155111 sampleOtherCtx 0
        sampleUser (FixedBytes.replicate 32 1) sampleSignatures).isOk = true := by
  refine ⟨by decide, rfl, rfl, sampleHashed_collisionFree (Or.inl rfl) (Or.inl rfl), ?_,
    signedByTwo_once _ _ _ _ _, sampleSigned_producedBy, by decide +kernel, by decide +kernel⟩
  rw [sampleAccounts_eq]
  exact sampleSigned_unforgeable (Or.inl rfl)

theorem other_nonce_refused : ¬∃ after, sampleSecond.releaseMultisig keccak256
    Secp256k1.ecrecover 11155111 sampleOtherCtx 0 sampleUser (FixedBytes.replicate 32 2)
      sampleSignatures = .ok after := by
  have hdeployed : BridgeV2.construct sampleOwner sampleOtherDeployed.relayerSigners 2
      (Ledger.initial sampleUsdc) = .ok sampleOtherDeployed := rfl
  have hne : sampleRequest 2 ≠ sampleRequest 1 := by
    intro h
    have hnonce := congrArg (fun r : ReleaseRequest => r.withdrawalNonce) h
    exact absurd hnonce (by decide)
  have hunforgeable := sampleSigned_unforgeable (Or.inr rfl)
  rw [← sampleAccounts_eq] at hunforgeable
  have hrefused := other_release_refused keccak256 Secp256k1.ecrecover 11155111 sampleDeployed
    hdeployed sampleDeposit sampleOtherDeposit (by decide) (by decide) hne
    (sampleHashed_collisionFree (Or.inl rfl) (Or.inr rfl)) sampleSigned sampleSignatures
    hunforgeable (signedByTwo_once _ _ _ _ _) sampleSigned_producedBy
  rintro ⟨after, hafter⟩
  exact hrefused sampleOtherCtx after hafter

end Sample

end ObscuraNetwork
