import ObscuraNetwork.HexText
import ObscuraNetwork.ReleaseReplay

namespace ObscuraNetwork

namespace WithdrawServer

/-- A number of a request as `BigInt` takes it: an integer, or one that is refused. -/
inductive JsNumber where
  | integer (n : Int)
  | other (text : String)

/-- A field of a request as `?.match` takes it. -/
inductive JsField where
  | missing
  | text (s : String)
  | other

structure WithdrawBody where
  depositId : Option JsNumber
  ethRecipient : JsField

/-- What `releaseOnEthereum` works with, `now` in milliseconds. -/
structure WithdrawRequest where
  depositId : UInt64
  recipient : Bytes20
  now : Nat
  deriving DecidableEq

/-- The address that `/^0x[0-9a-fA-F]{40}$/` lets through. -/
def matchAddress (text : String) : Option Bytes20 :=
  match text.toList with
  | '0' :: 'x' :: digits =>
    if digits.length = 40 then
      match hexDecode 0 (digits.flatMap String.utf8EncodeChar) with
      | .ok bytes => if h : bytes.length = 20 then some ⟨bytes, h⟩ else none
      | .error _ => none
    else none
  | _ => none

def invalidParameters : Failure :=
  .bail "Invalid parameters: deposit_id (number) and eth_recipient (0x address) required"

/-- The checks of the route on a body that `JSON.parse` has read or not. -/
def readBody : Except String WithdrawBody → Outcome (JsNumber × Bytes20)
  | .error text => .error (.bail text)
  | .ok ⟨none, _⟩ => .error invalidParameters
  | .ok ⟨some _, .missing⟩ => .error invalidParameters
  | .ok ⟨some _, .other⟩ => .error (.bail "eth_recipient?.match is not a function")
  | .ok ⟨some depositId, .text s⟩ =>
    match matchAddress s with
    | some recipient => pure (depositId, recipient)
    | none => .error invalidParameters

/-- `BigInt` and `writeBigUInt64LE`, with the text of a range error as the engine writes it. -/
def bigUInt64 (rangeError : Int → String) : JsNumber → Outcome UInt64
  | .other text => .error (.bail
      ("The number " ++ text ++ " cannot be converted to a BigInt because it is not an integer"))
  | .integer n =>
    if 0 ≤ n ∧ n < 2 ^ 64 then pure (UInt64.ofNat n.toNat) else .error (.bail (rangeError n))

/-- The way of a request to `releaseOnEthereum`. What the rollup answers to the withdrawal before
it is not looked at. -/
def serveWithdraw (rangeError : Int → String) (now : Nat) (body : Except String WithdrawBody) :
    Outcome WithdrawRequest := do
  let (depositId, recipient) ← readBody body
  let depositId ← bigUInt64 rangeError depositId
  pure ⟨depositId, recipient, now⟩

/-- The requests of the server's life that come as far as the signatures. -/
def served (rangeError : Int → String) (bodies : List (Nat × Except String WithdrawBody)) :
    List WithdrawRequest :=
  bodies.filterMap fun body => (serveWithdraw rangeError body.1 body.2).toOption

namespace WithdrawRequest

/-- The 32 bytes that are hashed: the timestamp's eight bytes are copied to the last four. -/
def nonceInput (r : WithdrawRequest) : Bytes :=
  let ts := r.now / 60000 * 60
  toLeBytes r.depositId ++ r.recipient.bytes ++ (toLeBytes (UInt64.ofNat ts)).take 4

variable (keccak256 : Bytes → Bytes32)

def withdrawalNonce (r : WithdrawRequest) : Bytes32 := keccak256 r.nonceInput

def release (r : WithdrawRequest) : ReleaseRequest :=
  ⟨r.depositId.toNat, r.recipient, r.withdrawalNonce keccak256⟩

end WithdrawRequest

/-- What is hashed for the server's nonces and digests and for the releases of a run. -/
def hashed (keccak256 : Bytes → Bytes32) (chainId : Nat) (requests : List WithdrawRequest)
    (releases : List ReleaseRequest) : Set Bytes :=
  {m | ∃ r ∈ requests, m = r.nonceInput} ∪
    {m | ∃ r ∈ releases ++ requests.map (WithdrawRequest.release keccak256),
      m = r.payload chainId ∨ m = r.message keccak256 chainId}

/-- The releases that a run asks the contract for. -/
def releaseCalls {bridge : Bytes20} (actions : List (BridgeAction bridge BridgeV2Call)) :
    List ReleaseRequest :=
  actions.filterMap fun action =>
    match action with
    | .call _ (.releaseMultisig depositId recipient withdrawalNonce _) =>
      some ⟨depositId, recipient, withdrawalNonce⟩
    | _ => none

/-- The signatures of a run's releases, each with the digest that it is presented for. -/
def presented (keccak256 : Bytes → Bytes32) (chainId : Nat) {bridge : Bytes20}
    (actions : List (BridgeAction bridge BridgeV2Call)) : Presented :=
  {p | ∃ ctx depositId recipient withdrawalNonce signatures,
    .call ctx (.releaseMultisig depositId recipient withdrawalNonce signatures) ∈ actions ∧
    p.1 = ReleaseRequest.digest keccak256 chainId ⟨depositId, recipient, withdrawalNonce⟩ ∧
    p.2 ∈ signatures}

/-- What the accounts have signed of the presented digests is for served requests. -/
def SignsServed (keccak256 : Bytes → Bytes32) (chainId : Nat) (accounts : List Bytes20)
    (signed : Signed) (presented : Presented) (requests : List WithdrawRequest) : Prop :=
  ∀ digest sig, (digest, sig) ∈ presented → ∀ signer ∈ accounts, signed signer digest sig →
    ∃ r ∈ requests, digest = (r.release keccak256).digest keccak256 chainId

/-- Every release of the history was paid to the recipient of a request for its deposit, under the
nonce made for this request. -/
def Requested (keccak256 : Bytes → Bytes32) (bridge : Bytes20) (requests : List WithdrawRequest)
    (h : History) : Prop :=
  ∀ rel ∈ h.releases, ∃ r ∈ requests, rel.depositId = r.depositId.toNat ∧
    rel.withdrawalNonce = r.withdrawalNonce keccak256 ∧
    ∃ amount, rel.transfers = [⟨bridge, r.recipient, amount⟩]

section WithdrawServer

theorem nonceInput_binds {r r' : WithdrawRequest} (h : r.nonceInput = r'.nonceInput) :
    r.depositId = r'.depositId ∧ r.recipient = r'.recipient := by
  obtain ⟨hfields, _⟩ := List.append_inj h (by simp)
  obtain ⟨hid, hrecipient⟩ := List.append_inj hfields (by simp)
  exact ⟨toLeBytes_injective hid, FixedBytes.ext_bytes hrecipient⟩

variable {keccak256 : Bytes → Bytes32} {ecrecover : Bytes32 → UInt8 → Bytes → Bytes → Bytes20}
  {chainId : Nat} {bridge : Bytes20}

/-- Only a release has the effect of one. -/
theorem act_released {action : BridgeAction bridge BridgeV2Call} {s s' : BridgeV2}
    {depositId : Nat} {withdrawalNonce : Bytes32}
    (h : BridgeV2.act keccak256 ecrecover chainId action s =
      .ok (.released depositId withdrawalNonce, s')) :
    ∃ ctx recipient signatures,
      action = .call ctx (.releaseMultisig depositId recipient withdrawalNonce signatures) ∧
      s.releaseMultisig keccak256 ecrecover chainId ctx depositId recipient withdrawalNonce
        signatures = .ok s' := by
  cases action with
  | usdcTransfer sender hsender recipient amount =>
    simp only [BridgeV2.act, bind_ok, pure_ok, Prod.mk.injEq] at h
    obtain ⟨_, _, heffect, _⟩ := h
    cases heffect
  | call ctx message =>
    cases message with
    | releaseMultisig id recipient nonce signatures =>
      simp only [BridgeV2.act, BridgeV2.call, bind_ok, pure_ok, Prod.mk.injEq,
        BridgeEffect.released.injEq] at h
      obtain ⟨after, hreleased, ⟨rfl, rfl⟩, rfl⟩ := h
      exact ⟨ctx, recipient, signatures, rfl, hreleased⟩
    | deposit amount obscuraRecipient =>
      simp only [BridgeV2.act, BridgeV2.call, bind_ok, pure_ok, Prod.mk.injEq] at h
      obtain ⟨_, _, heffect, _⟩ := h
      cases heffect
    | addSigner signer =>
      simp only [BridgeV2.act, BridgeV2.call, bind_ok, pure_ok, Prod.mk.injEq] at h
      obtain ⟨_, _, heffect, _⟩ := h
      cases heffect
    | removeSigner signer =>
      simp only [BridgeV2.act, BridgeV2.call, bind_ok, pure_ok, Prod.mk.injEq] at h
      obtain ⟨_, _, heffect, _⟩ := h
      cases heffect
    | setThreshold newThreshold =>
      simp only [BridgeV2.act, BridgeV2.call, bind_ok, pure_ok, Prod.mk.injEq] at h
      obtain ⟨_, _, heffect, _⟩ := h
      cases heffect
    | transferOwnership newOwner =>
      simp only [BridgeV2.act, BridgeV2.call, bind_ok, pure_ok, Prod.mk.injEq] at h
      obtain ⟨_, _, heffect, _⟩ := h
      cases heffect

/-- A release pays the deposit's amount to the named recipient. -/
theorem release_pays {s s' : BridgeV2} {ctx : CallContext bridge} {depositId : Nat}
    {recipient : Bytes20} {withdrawalNonce : Bytes32} {signatures : List Bytes}
    (h : s.releaseMultisig keccak256 ecrecover chainId ctx depositId recipient withdrawalNonce
      signatures = .ok s') :
    s'.ledger.usdc =
      s.ledger.usdc.move bridge recipient (s.ledger.deposits depositId).amount := by
  simp only [BridgeV2.releaseMultisig, Ledger.payOut, bind_ok, ensure_ok, pure_ok,
    Prod.exists] at h
  obtain ⟨_, _, _, _, _, _, _, _, _, _, _, _, _, ⟨moved, usdc, htransfer, _, rfl, rfl⟩, rfl⟩ := h
  exact (Erc20.transfer_true.mp htransfer).2.2

variable {requests : List WithdrawRequest} {accounts : List Bytes20} {signed : Signed}

theorem hashed_release {releases : List ReleaseRequest} {r₀ : ReleaseRequest}
    (h₀ : r₀ ∈ releases) {r : WithdrawRequest} (hr : r ∈ requests) :
    ReleaseRequest.hashed keccak256 chainId (r.release keccak256) r₀ ⊆
      hashed keccak256 chainId requests releases := by
  have hmem₀ : r₀ ∈ releases ++ requests.map (WithdrawRequest.release keccak256) :=
    List.mem_append_left _ h₀
  have hmem : r.release keccak256 ∈
      releases ++ requests.map (WithdrawRequest.release keccak256) :=
    List.mem_append_right _ (List.mem_map_of_mem hr)
  intro m hm
  simp only [ReleaseRequest.hashed, Set.mem_insert_iff, Set.mem_singleton_iff] at hm
  rcases hm with hm | hm | hm | hm
  · exact Or.inr ⟨_, hmem, Or.inl hm⟩
  · exact Or.inr ⟨_, hmem, Or.inr hm⟩
  · exact Or.inr ⟨_, hmem₀, Or.inl hm⟩
  · exact Or.inr ⟨_, hmem₀, Or.inr hm⟩

theorem mem_releaseCalls {actions : List (BridgeAction bridge BridgeV2Call)}
    {ctx : CallContext bridge} (r₀ : ReleaseRequest) {signatures : List Bytes}
    (h : .call ctx (.releaseMultisig r₀.depositId r₀.recipient r₀.withdrawalNonce signatures) ∈
      actions) : r₀ ∈ releaseCalls actions :=
  List.mem_filterMap.mpr ⟨_, h, rfl⟩

/-- Whoever submits it, a release that goes through is one that the server has signed for. -/
theorem release_served {s s' : BridgeV2} {ctx : CallContext bridge} (r₀ : ReleaseRequest)
    {signatures : List Bytes} {actions : List (BridgeAction bridge BridgeV2Call)}
    (hvalid : BridgeV2.ValidSigners s)
    (hsigners : ∀ signer ∈ s.relayerSigners, signer ∈ accounts)
    (hunforgeable : Unforgeable ecrecover accounts signed (presented keccak256 chainId actions))
    (hserved : SignsServed keccak256 chainId accounts signed
      (presented keccak256 chainId actions) requests)
    (h₀ : .call ctx (.releaseMultisig r₀.depositId r₀.recipient r₀.withdrawalNonce signatures) ∈
      actions) (huint : r₀.depositId < 2 ^ 256)
    (hcf : CollisionFreeOn keccak256
      (hashed keccak256 chainId requests (releaseCalls actions)))
    (h : s.releaseMultisig keccak256 ecrecover chainId ctx r₀.depositId r₀.recipient
      r₀.withdrawalNonce signatures = .ok s') : ∃ r ∈ requests, r₀ = r.release keccak256 := by
  obtain ⟨signer, hsigner, sig, hsig, hrecovered⟩ :=
    BridgeV2.exists_signer_of_release hvalid.positive h
  have hpresented : (r₀.digest keccak256 chainId, sig) ∈ presented keccak256 chainId actions :=
    ⟨ctx, _, _, _, signatures, h₀, rfl, hsig⟩
  have haccount := hsigners signer hsigner
  have hsigned := hunforgeable _ _ hpresented signer haccount hrecovered
  obtain ⟨r, hr, hdigest⟩ := hserved _ _ hpresented signer haccount hsigned
  have hid : (r.release keccak256).depositId < 2 ^ 256 :=
    r.depositId.toNat_lt.trans (by decide)
  refine ⟨r, hr, (ReleaseRequest.digest_injective ?_ hid huint hdigest.symm).symm⟩
  exact hcf.mono (hashed_release (mem_releaseCalls r₀ h₀) hr)

theorem presented_mono {actions actions' : List (BridgeAction bridge BridgeV2Call)}
    (h : actions ⊆ actions') :
    presented keccak256 chainId actions ⊆ presented keccak256 chainId actions' := by
  rintro p ⟨ctx, depositId, recipient, withdrawalNonce, signatures, hcall, hp⟩
  exact ⟨ctx, depositId, recipient, withdrawalNonce, signatures, h hcall, hp⟩

theorem hashed_mono {releases releases' : List ReleaseRequest} (h : releases ⊆ releases') :
    hashed keccak256 chainId requests releases ⊆ hashed keccak256 chainId requests releases' := by
  rintro m (hm | ⟨r, hr, hm⟩)
  · exact Or.inl hm
  · refine Or.inr ⟨r, ?_, hm⟩
    rcases List.mem_append.mp hr with hold | hserved
    · exact List.mem_append_left _ (h hold)
    · exact List.mem_append_right _ hserved

/-- What the server's accounts are asked to keep to over a run, and the hashes to keep apart. -/
structure ServerRuns (keccak256 : Bytes → Bytes32)
    (ecrecover : Bytes32 → UInt8 → Bytes → Bytes → Bytes20) (chainId : Nat) {bridge : Bytes20}
    (deployed : BridgeV2) (requests : List WithdrawRequest) (accounts : List Bytes20)
    (signed : Signed) (actions : List (BridgeAction bridge BridgeV2Call)) : Prop where
  signers : ∀ done, done <+: actions → ∀ signer ∈ (auditAll BridgeV2.ledger
    (BridgeV2.act keccak256 ecrecover chainId) deployed done).contract.relayerSigners,
    signer ∈ accounts
  unforgeable : Unforgeable ecrecover accounts signed (presented keccak256 chainId actions)
  served : SignsServed keccak256 chainId accounts signed (presented keccak256 chainId actions)
    requests
  uint256 : ∀ r ∈ releaseCalls actions, r.depositId < 2 ^ 256
  collisionFree : CollisionFreeOn keccak256
    (hashed keccak256 chainId requests (releaseCalls actions))

variable {deployed : BridgeV2} {actions : List (BridgeAction bridge BridgeV2Call)}

theorem ServerRuns.earlier {done : List (BridgeAction bridge BridgeV2Call)}
    (h : ServerRuns keccak256 ecrecover chainId deployed requests accounts signed actions)
    (hdone : done <+: actions) :
    ServerRuns keccak256 ecrecover chainId deployed requests accounts signed done := by
  have hpresented : presented keccak256 chainId done ⊆ presented keccak256 chainId actions :=
    presented_mono hdone.subset
  have hcalls : releaseCalls done ⊆ releaseCalls actions :=
    List.filterMap_subset _ hdone.subset
  exact ⟨fun earlier hearlier => h.signers earlier (hearlier.trans hdone),
    h.unforgeable.mono hpresented, fun digest sig hmem => h.served digest sig (hpresented hmem),
    fun r hr => h.uint256 r (hcalls hr), h.collisionFree.mono (hashed_mono hcalls)⟩

/-- In every state of a run the releases so far are what requests asked for. -/
theorem ServerRuns.requested (hvalid : BridgeV2.ValidSigners deployed)
    (h : ServerRuns keccak256 ecrecover chainId deployed requests accounts signed actions) :
    Requested keccak256 bridge requests (auditAll BridgeV2.ledger
      (BridgeV2.act keccak256 ecrecover chainId) deployed actions).history := by
  induction actions using List.reverseRecOn with
  | nil =>
    intro rel hrel
    cases hrel
  | append_singleton done action ih =>
    have hdone := ih (h.earlier (List.prefix_append _ _))
    have hstate : BridgeV2.ValidSigners (auditAll BridgeV2.ledger
        (BridgeV2.act keccak256 ecrecover chainId) deployed done).contract :=
      BridgeV2.auditAll_valid hvalid done
    have hsigners := h.signers done (List.prefix_append _ _)
    rw [auditAll, settleAll_concat, ← auditAll]
    generalize auditAll BridgeV2.ledger (BridgeV2.act keccak256 ecrecover chainId) deployed done
      = a at hdone hstate hsigners ⊢
    cases hstep : audit BridgeV2.ledger (BridgeV2.act keccak256 ecrecover chainId) action a with
    | error e =>
      rw [settle_error hstep]
      exact hdone
    | ok a' =>
      rw [settle_ok hstep]
      simp only [audit, bind_ok, pure_ok, Prod.exists] at hstep
      obtain ⟨effect, s', hact, rfl⟩ := hstep
      cases effect with
      | locked id => exact hdone
      | other => exact hdone
      | released id nonce =>
        obtain ⟨ctx, recipient, signatures, rfl, hreleased⟩ := act_released hact
        have hcall : .call ctx (.releaseMultisig id recipient nonce signatures) ∈
            done ++ [.call ctx (.releaseMultisig id recipient nonce signatures)] :=
          List.mem_append_right _ List.mem_cons_self
        obtain ⟨r, hr, heq⟩ := release_served ⟨id, recipient, nonce⟩ hstate hsigners h.unforgeable
          h.served hcall (h.uint256 _ (mem_releaseCalls ⟨id, recipient, nonce⟩ hcall))
          h.collisionFree hreleased
        obtain ⟨rfl, rfl, rfl⟩ := ReleaseRequest.mk.inj heq
        intro rel hrel
        rcases List.mem_append.mp hrel with hold | hlast
        · exact hdone rel hold
        · rw [List.mem_singleton.mp hlast]
          exact ⟨r, hr, rfl, rfl, _, newTransfers_move _ _ _ (release_pays hreleased)⟩

/-- A locked deposit's nonce is unused: whoever has used it has been paid for the same deposit. -/
theorem ServerRuns.nonce_unused {l : Ledger} {history : History} {r : WithdrawRequest}
    (h : ServerRuns keccak256 ecrecover chainId deployed requests accounts signed actions)
    (inv : SolvencyInvariant bridge l history)
    (hrequested : Requested keccak256 bridge requests history) (hr : r ∈ requests)
    (hlocked : (l.deposits r.depositId.toNat).status = 1) :
    l.usedWithdrawalNonces (r.withdrawalNonce keccak256) = false := by
  by_contra hused
  have hreleased := (inv.usedNonces _).mpr (Bool.of_not_eq_false hused)
  obtain ⟨rel, hrel, hnonce⟩ := List.mem_map.mp hreleased
  obtain ⟨r', hr', hid, hnonce', _⟩ := hrequested rel hrel
  have hinput : r'.nonceInput = r.nonceInput :=
    h.collisionFree (Or.inl ⟨r', hr', rfl⟩) (Or.inl ⟨r, hr, rfl⟩) (hnonce'.symm.trans hnonce)
  rw [(nonceInput_binds hinput).1] at hid
  have hstatus := (inv.releasedIds rel.depositId).mp (List.mem_map_of_mem hrel)
  rw [hid, hlocked] at hstatus
  exact absurd hstatus (by decide)

/-- Whatever is sent to the contract and to the server: what is paid out for a deposit goes to the
recipient of a served request for it, in the amount of the deposit. -/
theorem withdrawals_paid_as_requested (keccak256 : Bytes → Bytes32)
    (ecrecover : Bytes32 → UInt8 → Bytes → Bytes → Bytes20) (chainId : Nat) (bridge owner : Bytes20)
    (signers : List Bytes20) (threshold : Nat) (usdc : Erc20) {deployed : BridgeV2}
    (hdeployed : BridgeV2.construct owner signers threshold (Ledger.initial usdc) = .ok deployed)
    (rangeError : Int → String) (bodies : List (Nat × Except String WithdrawBody))
    (accounts : List Bytes20) (signed : Signed)
    (actions : List (BridgeAction bridge BridgeV2Call))
    (hserver : ServerRuns keccak256 ecrecover chainId deployed (served rangeError bodies) accounts
      signed actions) :
    let a := auditAll BridgeV2.ledger (BridgeV2.act keccak256 ecrecover chainId) deployed actions
    ∀ rel ∈ a.history.releases, ∃ r ∈ served rangeError bodies,
      rel.depositId = r.depositId.toNat ∧ rel.withdrawalNonce = r.withdrawalNonce keccak256 ∧
        rel.transfers =
          [⟨bridge, r.recipient, (a.contract.ledger.deposits rel.depositId).amount⟩] := by
  intro a rel hrel
  have inv : SolvencyInvariant bridge a.contract.ledger a.history :=
    BridgeV2.auditAll_solvency hdeployed actions
  have hvalid := (BridgeV2.construct_valid hdeployed).2
  obtain ⟨r, hr, hid, hnonce, amount, hpaid⟩ := hserver.requested hvalid rel hrel
  obtain ⟨recipient, htransfers⟩ := inv.releaseTransfers rel hrel
  refine ⟨r, hr, hid, hnonce, ?_⟩
  rw [hpaid, List.cons.injEq, Transfer.mk.injEq] at htransfers
  rw [hpaid, ← htransfers.1.2.2]

/-- No run takes a locked deposit's withdrawal away: its nonce stays unused, and the release goes
through when the signatures recover to a threshold of different signers. -/
theorem locked_deposit_releasable (keccak256 : Bytes → Bytes32)
    (ecrecover : Bytes32 → UInt8 → Bytes → Bytes → Bytes20) (chainId : Nat) (bridge owner : Bytes20)
    (signers : List Bytes20) (threshold : Nat) (usdc : Erc20) {deployed : BridgeV2}
    (hdeployed : BridgeV2.construct owner signers threshold (Ledger.initial usdc) = .ok deployed)
    (rangeError : Int → String) (bodies : List (Nat × Except String WithdrawBody))
    (accounts : List Bytes20) (signed : Signed)
    (actions : List (BridgeAction bridge BridgeV2Call))
    (hserver : ServerRuns keccak256 ecrecover chainId deployed (served rangeError bodies) accounts
      signed actions)
    {r : WithdrawRequest} (hr : r ∈ served rangeError bodies)
    (hrecipient : r.recipient ≠ zeroAddress)
    (ctx : CallContext bridge) (hmoves : ctx.usdc = .moves) (signatures : List Bytes)
    (hsignatures : ∀ sig ∈ signatures, BridgeV2.WellFormedSignature sig) :
    let s := (auditAll BridgeV2.ledger (BridgeV2.act keccak256 ecrecover chainId) deployed
      actions).contract
    (s.ledger.deposits r.depositId.toNat).status = 1 →
      s.ledger.usedWithdrawalNonces (r.withdrawalNonce keccak256) = false ∧
      ∀ quorum : Finset Bytes20, s.threshold ≤ quorum.card →
        (∀ signer ∈ quorum, signer ∈ s.relayerSigners ∧ ∃ sig ∈ signatures,
          BridgeV2.recoverSigner ecrecover ((r.release keccak256).digest keccak256 chainId) sig =
            .ok signer) →
        ∃ s', s.releaseMultisig keccak256 ecrecover chainId ctx r.depositId.toNat r.recipient
          (r.withdrawalNonce keccak256) signatures = .ok s' := by
  intro s hlocked
  have hvalid := (BridgeV2.construct_valid hdeployed).2
  have hstate : BridgeV2.ValidSigners s := BridgeV2.auditAll_valid hvalid actions
  have inv : SolvencyInvariant bridge s.ledger _ :=
    BridgeV2.auditAll_solvency hdeployed actions
  have hunused := hserver.nonce_unused inv (hserver.requested hvalid) hr hlocked
  refine ⟨hunused, fun quorum hcard hquorum => ?_⟩
  obtain ⟨seen, hseen, _, hlength, henough⟩ :=
    @BridgeV2.countSigners_quorum ecrecover ((r.release keccak256).digest keccak256 chainId) s
      hstate signatures hsignatures
  have hcount : s.threshold ≤ seen.length := henough.mpr ⟨quorum, hcard, hquorum⟩
  have hiff := BridgeV2.releaseMultisig_ok_iff hmoves hunused hlocked hrecipient
    (inv.locked_le hlocked) hseen
  exact hiff.mpr ⟨hcount.trans hlength, hcount⟩

end WithdrawServer

section Signers

variable {keccak256 : Bytes → Bytes32} {ecrecover : Bytes32 → UInt8 → Bytes → Bytes → Bytes20}
  {chainId : Nat} {bridge : Bytes20}

/-- A call that is not the owner's. -/
def openToAll : BridgeAction bridge BridgeV2Call → Bool
  | .call _ (.deposit _ _) => true
  | .call _ (.releaseMultisig _ _ _ _) => true
  | .call _ _ => false
  | .usdcTransfer _ _ _ _ => true

theorem act_openToAll {s s' : BridgeV2} {action : BridgeAction bridge BridgeV2Call}
    {effect : BridgeEffect} (hopen : openToAll action = true)
    (h : BridgeV2.act keccak256 ecrecover chainId action s = .ok (effect, s')) :
    s'.relayerSigners = s.relayerSigners := by
  cases action with
  | usdcTransfer sender hsender recipient amount =>
    simp only [BridgeV2.act, bind_ok, pure_ok, Prod.mk.injEq] at h
    obtain ⟨ledger, _, _, rfl⟩ := h
    rfl
  | call ctx message =>
    cases message with
    | deposit amount obscuraRecipient =>
      simp only [BridgeV2.act, BridgeV2.call, bind_ok, pure_ok, Prod.exists, Prod.mk.injEq] at h
      obtain ⟨depositId, ledger, _, _, rfl⟩ := h
      rfl
    | releaseMultisig depositId recipient withdrawalNonce signatures =>
      simp only [BridgeV2.act, BridgeV2.call, BridgeV2.releaseMultisig, bind_ok, pure_ok,
        Prod.mk.injEq] at h
      obtain ⟨_, ⟨_, _, _, _, _, _, _, _, seen, _, _, _, ledger, _, rfl⟩, _, rfl⟩ := h
      rfl
    | addSigner signer => cases hopen
    | removeSigner signer => cases hopen
    | setThreshold newThreshold => cases hopen
    | transferOwnership newOwner => cases hopen

/-- Only the owner's calls change the signers. -/
theorem auditAll_openToAll {deployed : BridgeV2} {actions : List (BridgeAction bridge BridgeV2Call)}
    (hopen : ∀ action ∈ actions, openToAll action = true) :
    (auditAll BridgeV2.ledger (BridgeV2.act keccak256 ecrecover chainId) deployed
      actions).contract.relayerSigners = deployed.relayerSigners := by
  induction actions using List.reverseRecOn with
  | nil => rfl
  | append_singleton done action ih =>
    have hdone := ih fun other hother => hopen other (List.mem_append_left _ hother)
    have haction := hopen action (List.mem_append_right _ List.mem_cons_self)
    rw [auditAll, settleAll_concat, ← auditAll]
    cases hstep : audit BridgeV2.ledger (BridgeV2.act keccak256 ecrecover chainId) action
        (auditAll BridgeV2.ledger (BridgeV2.act keccak256 ecrecover chainId) deployed done) with
    | error e =>
      rw [settle_error hstep]
      exact hdone
    | ok a' =>
      rw [settle_ok hstep]
      simp only [audit, bind_ok, pure_ok, Prod.exists] at hstep
      obtain ⟨effect, s', hact, rfl⟩ := hstep
      exact (act_openToAll haction hact).trans hdone

end Signers

section Sample

def sampleRequested : Nat × Except String WithdrawBody :=
  (60000, .ok ⟨some (.integer 0), .text "0x0101010101010101010101010101010101010101"⟩)

def sampleWithdrawal : WithdrawRequest := ⟨0, sampleUser, 60000⟩

/-- One request is served, and two are not. -/
def sampleBodies : List (Nat × Except String WithdrawBody) :=
  [(0, .error "Unexpected end of JSON input"), sampleRequested,
    (70000, .ok ⟨some (.integer 0), .text "0x01"⟩)]

theorem sampleBodies_served (rangeError : Int → String) :
    served rangeError sampleBodies = [sampleWithdrawal] := by
  have hmatch : matchAddress "0x0101010101010101010101010101010101010101" = some sampleUser := by
    decide +kernel
  simp only [served, sampleBodies, sampleRequested, List.filterMap_cons, List.filterMap_nil,
    serveWithdraw, readBody, hmatch]
  rfl

def withdrawalDigest : Bytes32 :=
  (sampleWithdrawal.release keccak256).digest keccak256 11155111

/-- The relayers' signatures for the served request. -/
def withdrawalSignature1 : Bytes :=
  packSignature 0x708a48387dfedfd04989a8f21c3eb2087997d0422462630799d88cdf4b58f371
    0x6f8f5a145cf46c604a9d0c41d797b3c67fe923818687539f6baba555c5777bd7 28

def withdrawalSignature2 : Bytes :=
  packSignature 0xf304bb94ec1dbd6ce6b7c7d6fd4c92f7cfee5fdb239d8e928102d1c4ac4f3d77
    0x666db541f88b424ed9814b9c4e00ac17c5ed105e6b6efac94dd67e3f25e4f7ee 28

def withdrawalSignatures : List Bytes := [withdrawalSignature1, withdrawalSignature2]

def withdrawalSigned : Signed :=
  signedByTwo withdrawalDigest withdrawalSignature1 withdrawalSignature2

/-- Someone tries them with a nonce of his own before they are used. -/
def sampleRun : List (BridgeAction sampleBridge BridgeV2Call) :=
  sampleDeposit ++
    [.call (sampleCtx .moves)
      (.releaseMultisig 0 sampleUser (FixedBytes.replicate 32 2) withdrawalSignatures),
    .call (sampleCtx .moves) (.releaseMultisig 0 sampleUser
      (sampleWithdrawal.withdrawalNonce keccak256) withdrawalSignatures)]

theorem withdrawalSignature1_recovers : BridgeV2.recoverSigner Secp256k1.ecrecover
    withdrawalDigest withdrawalSignature1 = .ok relayer1 := by decide +kernel

theorem withdrawalSignature2_recovers : BridgeV2.recoverSigner Secp256k1.ecrecover
    withdrawalDigest withdrawalSignature2 = .ok relayer2 := by decide +kernel

/-- Every release of the run is presented with the same two signatures. -/
theorem sampleRun_presented (digest : Bytes32) (sig : Bytes)
    (h : (digest, sig) ∈ presented keccak256 11155111 sampleRun) :
    (digest = withdrawalDigest ∨ digest = otherDigest) ∧ sig ∈ withdrawalSignatures := by
  obtain ⟨ctx, depositId, recipient, withdrawalNonce, signatures, hcall, hdigest, hsig⟩ := h
  simp only [sampleRun, sampleDeposit, List.cons_append, List.nil_append, List.mem_cons,
    BridgeAction.call.injEq, reduceCtorEq, and_false, false_or, BridgeV2Call.releaseMultisig.injEq,
    List.not_mem_nil, or_false] at hcall
  rcases hcall with ⟨_, rfl, rfl, rfl, rfl⟩ | ⟨_, rfl, rfl, rfl, rfl⟩
  · exact ⟨Or.inr hdigest, hsig⟩
  · exact ⟨Or.inl hdigest, hsig⟩

theorem withdrawalSigned_unforgeable : Unforgeable Secp256k1.ecrecover sampleSigners
    withdrawalSigned (presented keccak256 11155111 sampleRun) := by
  have hother : ∀ sig ∈ withdrawalSignatures,
      BridgeV2.recoverSigner Secp256k1.ecrecover otherDigest sig ∉ sampleSigners.map Except.ok := by
    decide +kernel
  exact signedByTwo_unforgeable withdrawalSignature1_recovers withdrawalSignature2_recovers hother
    sampleRun_presented

def withdrawalHashed : List Bytes :=
  [sampleWithdrawal.nonceInput, (sampleRequest 2).payload 11155111,
    (sampleRequest 2).message keccak256 11155111,
    (sampleWithdrawal.release keccak256).payload 11155111,
    (sampleWithdrawal.release keccak256).message keccak256 11155111]

theorem withdrawalHashed_distinct : (withdrawalHashed.map keccak256).Nodup := by decide +kernel

theorem sampleRun_releaseCalls : releaseCalls sampleRun =
    [sampleRequest 2, sampleWithdrawal.release keccak256] := rfl

theorem sampleServer_runs (rangeError : Int → String) :
    ServerRuns keccak256 Secp256k1.ecrecover 11155111 sampleDeployed
      (served rangeError sampleBodies) sampleSigners withdrawalSigned sampleRun where
  signers := by
    intro done hdone signer hsigner
    have hopen : ∀ action ∈ sampleRun, openToAll action = true := by decide
    rw [auditAll_openToAll fun action haction => hopen action (hdone.subset haction)] at hsigner
    exact hsigner
  unforgeable := withdrawalSigned_unforgeable
  served := by
    intro digest sig _ signer _ hsigned
    rw [sampleBodies_served]
    exact ⟨sampleWithdrawal, List.mem_cons_self, hsigned.1⟩
  uint256 := by
    intro r hr
    rw [sampleRun_releaseCalls] at hr
    rcases List.mem_pair.mp hr with rfl | rfl
    · decide
    · decide
  collisionFree := by
    rw [sampleBodies_served, sampleRun_releaseCalls]
    refine collisionFreeOn_of_nodup (fun m hm => ?_) withdrawalHashed_distinct
    rcases hm with ⟨r, hr, rfl⟩ | ⟨r, hr, hm⟩
    · rw [List.mem_singleton.mp hr]
      exact List.mem_cons_self
    · have hreleases : r = sampleRequest 2 ∨ r = sampleWithdrawal.release keccak256 := by
        simpa using hr
      rcases hreleases with rfl | rfl <;> rcases hm with rfl | rfl <;> simp [withdrawalHashed]

theorem withdrawal_paid_to_user :
    let a := auditAll BridgeV2.ledger (BridgeV2.act keccak256 Secp256k1.ecrecover 11155111)
      sampleDeployed sampleRun
    ∃ rel ∈ a.history.releases, ∃ r ∈ served (fun _ => "") sampleBodies,
      rel.depositId = r.depositId.toNat ∧ rel.withdrawalNonce = r.withdrawalNonce keccak256 ∧
        rel.transfers = [⟨sampleBridge, r.recipient,
          (a.contract.ledger.deposits rel.depositId).amount⟩] := by
  intro a
  have hdeployed : BridgeV2.construct sampleOwner sampleSigners 2 (Ledger.initial sampleUsdc) =
      .ok sampleDeployed := rfl
  have hsome : 0 < a.history.releases.length := by decide +kernel
  obtain ⟨rel, hrel⟩ := List.exists_mem_of_length_pos hsome
  exact ⟨rel, hrel, withdrawals_paid_as_requested keccak256 Secp256k1.ecrecover 11155111
    sampleBridge sampleOwner sampleSigners 2 sampleUsdc hdeployed (fun _ => "") sampleBodies
    sampleSigners withdrawalSigned _ (sampleServer_runs _) rel hrel⟩

theorem locked_deposit_released : ∃ s',
    (auditAll BridgeV2.ledger (BridgeV2.act keccak256 Secp256k1.ecrecover 11155111) sampleDeployed
      sampleDeposit).contract.releaseMultisig keccak256 Secp256k1.ecrecover 11155111
        (sampleCtx .moves) sampleWithdrawal.depositId.toNat sampleUser
        (sampleWithdrawal.withdrawalNonce keccak256) withdrawalSignatures = .ok s' := by
  have hdeployed : BridgeV2.construct sampleOwner sampleSigners 2 (Ledger.initial sampleUsdc) =
      .ok sampleDeployed := rfl
  have hserver := (sampleServer_runs fun _ => "").earlier (List.prefix_append sampleDeposit _)
  have hsignatures : ∀ sig ∈ withdrawalSignatures, BridgeV2.WellFormedSignature sig := by
    intro sig hsig
    rcases List.mem_pair.mp hsig with rfl | rfl
    · exact packSignature_wellFormed _ _ (by decide)
    · exact packSignature_wellFormed _ _ (by decide)
  have hr : sampleWithdrawal ∈ served (fun _ => "") sampleBodies := by
    rw [sampleBodies_served]
    exact List.mem_cons_self
  refine (locked_deposit_releasable keccak256 Secp256k1.ecrecover 11155111 sampleBridge sampleOwner
    sampleSigners 2 sampleUsdc hdeployed (fun _ => "") sampleBodies sampleSigners withdrawalSigned
    sampleDeposit hserver hr (by decide) (sampleCtx .moves) rfl withdrawalSignatures hsignatures
    rfl).2 {relayer1, relayer2} (by decide) fun signer hsigner => ?_
  rcases Finset.mem_insert.mp hsigner with hfirst | hlast
  · rw [hfirst]
    exact ⟨by decide, withdrawalSignature1, by simp [withdrawalSignatures],
      withdrawalSignature1_recovers⟩
  · rw [Finset.mem_singleton.mp hlast]
    exact ⟨by decide, withdrawalSignature2, by simp [withdrawalSignatures],
      withdrawalSignature2_recovers⟩

end Sample

end WithdrawServer

end ObscuraNetwork
