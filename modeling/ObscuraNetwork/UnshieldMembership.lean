import ObscuraNetwork.GuestPrivacy
import ObscuraNetwork.Runtime

namespace ObscuraNetwork

/-- An ideal proof: the message states exactly the public outputs of an accepted circuit run. -/
def UnshieldMessage.Attests (sha256 : Bytes → Bytes32) (msg : UnshieldMessage)
    (witness : UnshieldWitness) : Prop :=
  unshieldMain sha256 witness =
    .ok ⟨msg.nullifier.hash, msg.publicInputs.amount, msg.publicInputs.assetId.id⟩

/-- Every Unshield a state accepts with an ideal proof pays out a note of the pool. -/
def OnlyPoolNotes (b : Build) (s : Runtime) : Prop :=
  ∀ (ctx : TxContext) (msg : UnshieldMessage) (witness : UnshieldWitness) (s' : Runtime),
    msg.Attests b.sha256 witness →
    Runtime.call b ⟨ctx, .obscuraPrivacy (.unshield msg)⟩ s = .ok s' →
    ⟨hashNote b.sha256 witness.note⟩ ∈ s.obscuraPrivacy.commitments

/-- What the circuit and the handler ask of a note: a non-zero amount, a 32-byte owner key, and a
nullifier that is not spent yet. -/
structure Payable (b : Build) (s : ObscuraPrivacy) (witness : UnshieldWitness) : Prop where
  amount : 0 < witness.note.amount
  ownerPubkey : witness.note.ownerPubkey.length = 32
  unspent : s.isSpent ⟨hashNullifier b.sha256 witness.spendingKey
    (hashNote b.sha256 witness.note)⟩ = false

def cashOut (b : Build) (proof : Bytes) (witness : UnshieldWitness) : UnshieldMessage where
  proof := proof
  publicInputs := ⟨witness.note.amount, ⟨witness.note.assetId⟩⟩
  nullifier := ⟨hashNullifier b.sha256 witness.spendingKey (hashNote b.sha256 witness.note)⟩
  recipient := []

theorem cashOut_attests {b : Build} {s : ObscuraPrivacy} {proof : Bytes} {witness : UnshieldWitness}
    (h : Payable b s witness) : (cashOut b proof witness).Attests b.sha256 witness :=
  unshieldMain_ok.mpr ⟨h.amount, h.ownerPubkey, rfl⟩

theorem payable_of_accepted {b : Build} {s t : ObscuraPrivacy} {msg : UnshieldMessage}
    {witness : UnshieldWitness} (hideal : msg.Attests b.sha256 witness)
    (h : s.handleUnshield b msg = .ok t) : Payable b s witness := by
  obtain ⟨hamount, hkey, hout⟩ := unshieldMain_ok.mp hideal
  obtain ⟨_, hunspent, _⟩ := ObscuraPrivacy.handleUnshield_ok.mp h
  obtain ⟨hnull, _, _⟩ := UnshieldPublicOutputs.mk.inj hout
  have : msg.nullifier =
      ⟨hashNullifier b.sha256 witness.spendingKey (hashNote b.sha256 witness.note)⟩ :=
    congrArg Nullifier.mk hnull
  exact ⟨hamount, hkey, this ▸ hunspent⟩

theorem cashOut_accepted {b : Build} {s : Runtime} {proof : Bytes} {witness : UnshieldWitness}
    {inputs : UnshieldPublicInputs} (hproof : verifyUnshieldProof b proof inputs = .ok ())
    (h : Payable b s.obscuraPrivacy witness) (ctx : TxContext) :
    ∃ s', Runtime.call b ⟨ctx, .obscuraPrivacy (.unshield (cashOut b proof witness))⟩ s =
      .ok s' := by
  have haccept := ObscuraPrivacy.handleUnshield_ok.mpr
    ⟨show verifyUnshieldProof b (cashOut b proof witness).proof _ = .ok () from hproof, h.unspent,
      rfl⟩
  refine ⟨_, bind_ok.mpr ⟨_, haccept, rfl⟩⟩

/-- After any run, Unshields with ideal proofs pay out notes of the pool only if the build accepts
no proof at all, or every payable note happens to be in the pool already. -/
theorem only_pool_notes_iff (b : Build) (config : BridgeConfig) (txs : List Tx) :
    OnlyPoolNotes b (Runtime.run b config txs) ↔
      (∀ proof inputs, verifyUnshieldProof b proof inputs ≠ .ok ()) ∨
      ∀ witness, Payable b (Runtime.run b config txs).obscuraPrivacy witness →
        ⟨hashNote b.sha256 witness.note⟩ ∈
          (Runtime.run b config txs).obscuraPrivacy.commitments := by
  generalize Runtime.run b config txs = s
  constructor
  · intro only
    by_cases hproof : ∃ proof inputs, verifyUnshieldProof b proof inputs = .ok ()
    · right
      intro witness hpay
      obtain ⟨proof, inputs, hproof⟩ := hproof
      obtain ⟨s', hs'⟩ := cashOut_accepted hproof hpay ⟨[], 0⟩
      exact only _ _ witness s' (cashOut_attests hpay) hs'
    · left
      exact fun proof inputs h => hproof ⟨proof, inputs, h⟩
  · intro h ctx msg witness s' hideal hcall
    obtain ⟨privacy, hp, _⟩ := bind_ok.mp hcall
    rcases h with hnone | hall
    · exact absurd (ObscuraPrivacy.handleUnshield_ok.mp hp).1 (hnone _ _)
    · exact hall witness (payable_of_accepted hideal hp)

def phantomWitness : UnshieldWitness :=
  ⟨zeroBytes, ⟨5, zeroBytes, List.replicate 32 1, zeroBytes⟩⟩

/-- From genesis, with no commitment in the pool, an Unshield with an ideal proof is accepted. -/
theorem phantom_note_unshielded :
    let msg := cashOut .default mockHeader phantomWitness
    msg.Attests sha256 phantomWitness ∧
    (∃ s', Runtime.call .default ⟨⟨[], 0⟩, .obscuraPrivacy (.unshield msg)⟩
      (Runtime.run .default .default []) = .ok s') ∧
    ⟨hashNote sha256 phantomWitness.note⟩ ∉
      (Runtime.run .default .default []).obscuraPrivacy.commitments := by
  have hpay : Payable .default (Runtime.run .default .default []).obscuraPrivacy phantomWitness :=
    ⟨by decide, by decide, rfl⟩
  have hproof : verifyUnshieldProof .default mockHeader ⟨5, ⟨zeroBytes⟩⟩ = .ok () := rfl
  exact ⟨cashOut_attests hpay, cashOut_accepted hproof hpay _, List.not_mem_nil⟩

end ObscuraNetwork
