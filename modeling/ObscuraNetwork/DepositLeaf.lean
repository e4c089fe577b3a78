import ObscuraNetwork.CollisionFree
import ObscuraNetwork.UsdcBacking

namespace ObscuraNetwork

open ObscuraPrivacy ObscuraBridge

def Note.message (note : Note) : Bytes :=
  noteMessage note.amount note.assetId.id note.ownerPubkey note.salt

/-- Every one of the given notes that opens the leaf of a claim is worth what is claimed. -/
def WorthDeposit (b : Build) (notes : Set Note) (inputs : BridgePublicInputs) : Prop :=
  ∀ note ∈ notes, Commitment.fromNote b.sha256 note = .ok ⟨inputs.obscuraRecipient⟩ →
    note.amount = inputs.amount ∧ note.assetId = bridgedUsdcAsset

/-- The recipient is the commitment of a note of the claimed amount and asset, or of none. -/
def RecipientMatches (b : Build) (notes : Set Note) (inputs : BridgePublicInputs) : Prop :=
  (∀ note ∈ notes, Commitment.fromNote b.sha256 note ≠ .ok ⟨inputs.obscuraRecipient⟩) ∨
  ∃ ownerPubkey salt, ⟨inputs.amount, bridgedUsdcAsset, ownerPubkey, salt⟩ ∈ notes ∧
    Commitment.fromNote b.sha256 ⟨inputs.amount, bridgedUsdcAsset, ownerPubkey, salt⟩ =
      .ok ⟨inputs.obscuraRecipient⟩

theorem openings_eq {b : Build} {notes : Set Note}
    (cf : CollisionFreeOn b.sha256 (Note.message '' notes)) {note note' : Note}
    {commitment : Commitment} (hnote : note ∈ notes) (hnote' : note' ∈ notes)
    (h : Commitment.fromNote b.sha256 note = .ok commitment)
    (h' : Commitment.fromNote b.sha256 note' = .ok commitment) :
    note.amount = note'.amount ∧ note.assetId = note'.assetId := by
  obtain ⟨_, hkey, rfl⟩ := Commitment.fromNote_ok.mp h
  obtain ⟨_, hkey', heq⟩ := Commitment.fromNote_ok.mp h'
  have hmessage : note.message = note'.message :=
    cf (Set.mem_image_of_mem _ hnote) (Set.mem_image_of_mem _ hnote') (congrArg Commitment.hash heq)
  obtain ⟨hamount, hasset, _⟩ := noteMessage_inj (hkey.trans hkey'.symm) hmessage
  refine ⟨hamount, ?_⟩
  cases ha : note.assetId
  cases ha' : note'.assetId
  rw [ha, ha'] at hasset
  exact congrArg AssetId.mk hasset

theorem worthDeposit_iff {b : Build} {notes : Set Note} (inputs : BridgePublicInputs)
    (cf : CollisionFreeOn b.sha256 (Note.message '' notes)) :
    WorthDeposit b notes inputs ↔ RecipientMatches b notes inputs := by
  constructor
  · intro hworth
    by_cases hopen : ∃ note ∈ notes,
        Commitment.fromNote b.sha256 note = .ok ⟨inputs.obscuraRecipient⟩
    · obtain ⟨note, hnote, hcommitment⟩ := hopen
      obtain ⟨hamount, hasset⟩ := hworth note hnote hcommitment
      refine Or.inr ⟨note.ownerPubkey, note.salt, ?_⟩
      rw [← hamount, ← hasset]
      exact ⟨hnote, hcommitment⟩
    · exact Or.inl fun note hnote hcommitment => hopen ⟨note, hnote, hcommitment⟩
  · intro hmatches note hnote hcommitment
    rcases hmatches with hnone | ⟨ownerPubkey, salt, hmem, hsame⟩
    · exact absurd hcommitment (hnone note hnote)
    · exact openings_eq cf hnote hmem hcommitment hsame

/-- An accepted claim inserts the recipient as a leaf, and that leaf is worth the deposit if and
only if the recipient matches the claim: nothing on the chain compares the two. -/
theorem claimed_leaf_worth_iff {b : Build} {config : BridgeConfig} {txs : List Tx} {ctx : TxContext}
    {claim : ClaimDeposit} {s' : Runtime} {notes : Set Note}
    (h : Runtime.call b ⟨ctx, .obscuraBridge (.claimDeposit claim)⟩ (Runtime.run b config txs) =
      .ok s')
    (cf : CollisionFreeOn b.sha256 (Note.message '' notes)) :
    s'.obscuraPrivacy.commitments = (Runtime.run b config txs).obscuraPrivacy.commitments ++
      [⟨claim.publicInputs.obscuraRecipient⟩] ∧
    (WorthDeposit b notes claim.publicInputs ↔ RecipientMatches b notes claim.publicInputs) := by
  refine ⟨?_, worthDeposit_iff _ cf⟩
  obtain ⟨_, t, _, _, _, ht, _, _, _, rfl⟩ := handleClaimDeposit_ok.mp h
  exact (insertCommitment_faithful (run_counted b config txs).faithful ht).2

/-- A note of a million units of another asset. -/
def dearNote : Note := ⟨1000000, ⟨zeroBytes⟩, List.replicate 32 1, zeroBytes⟩

def fairNote : Note := ⟨1, bridgedUsdcAsset, List.replicate 32 1, zeroBytes⟩

/-- A claim of one unit whose recipient is the commitment of a note. -/
def unitClaim (note : Note) : ClaimDeposit :=
  ⟨mockProofPrefix, ⟨zeroBytes, zeroBytes, 7, sha256 note.message, 1, FixedBytes.replicate 20 0⟩⟩

theorem unitClaim_accepted (note : Note) (h : sha256 note.message ≠ FixedBytes.replicate 32 0) :
    ∃ s', Runtime.call .default ⟨⟨[], 0⟩, .obscuraBridge (.claimDeposit (unitClaim note))⟩
      (Runtime.run .default .default []) = .ok s' := by
  have hamount : (1 : UInt64) ≠ 0 := by decide
  have hchecks : ClaimAccepted .default (unitClaim note)
      (Runtime.genesis .default .default).obscuraBridge := ⟨hamount, h, rfl, rfl, rfl, rfl⟩
  exact claim_isOk _ rfl (counted_genesis .default .default) hchecks (by decide)

theorem fairNote_digests :
    ([zeroBytes, sha256 dearNote.message, sha256 fairNote.message] : List Bytes32).Nodup := by
  decide +kernel

theorem claimed_leaf_worth_iff_fair :
    ∃ s', Runtime.call .default ⟨⟨[], 0⟩, .obscuraBridge (.claimDeposit (unitClaim fairNote))⟩
        (Runtime.run .default .default []) = .ok s' ∧
      (WorthDeposit .default {dearNote, fairNote} (unitClaim fairNote).publicInputs ↔
        RecipientMatches .default {dearNote, fairNote} (unitClaim fairNote).publicInputs) := by
  have hdigests := fairNote_digests
  simp only [List.nodup_cons, List.mem_cons, List.not_mem_nil, or_false, not_or] at hdigests
  obtain ⟨⟨_, hfair⟩, hne, _⟩ := hdigests
  obtain ⟨s', hs'⟩ := unitClaim_accepted fairNote (Ne.symm hfair)
  refine ⟨s', hs', (claimed_leaf_worth_iff hs' ?_).2⟩
  rw [Set.image_pair]
  intro x hx y hy hxy
  rcases hx with rfl | rfl <;> rcases hy with rfl | rfl
  · rfl
  · exact absurd hxy hne
  · exact absurd hxy (Ne.symm hne)
  · rfl

/-- A deposit of one unit is accepted with the commitment of a note worth a million. -/
theorem unit_deposit_dear_note :
    (∃ s', Runtime.call .default ⟨⟨[], 0⟩, .obscuraBridge (.claimDeposit (unitClaim dearNote))⟩
        (Runtime.run .default .default []) = .ok s') ∧
    CollisionFreeOn Build.default.sha256 (Note.message '' {dearNote}) ∧
    Commitment.fromNote Build.default.sha256 dearNote =
      .ok ⟨(unitClaim dearNote).publicInputs.obscuraRecipient⟩ ∧
    ¬WorthDeposit .default {dearNote} (unitClaim dearNote).publicInputs := by
  have hdigests := fairNote_digests
  simp only [List.nodup_cons, List.mem_cons, List.not_mem_nil, or_false, not_or] at hdigests
  obtain ⟨⟨hdear, _⟩, _⟩ := hdigests
  have hcommitment : Commitment.fromNote Build.default.sha256 dearNote =
      .ok ⟨(unitClaim dearNote).publicInputs.obscuraRecipient⟩ :=
    Commitment.fromNote_ok.mpr ⟨by decide, by decide, rfl⟩
  refine ⟨unitClaim_accepted dearNote (Ne.symm hdear), ?_, hcommitment, ?_⟩
  · rw [Set.image_singleton]
    exact Set.injOn_singleton _ _
  · intro hworth
    exact absurd (hworth dearNote rfl hcommitment).1 (by decide)

end ObscuraNetwork
