import ObscuraNetwork.CollisionFree
import ObscuraNetwork.Sha256
import Mathlib.Algebra.BigOperators.Group.List.Basic
import Mathlib.Algebra.Order.BigOperators.Group.List

namespace ObscuraNetwork

namespace Compliance

/-- `TextEncoder.encode`. -/
def encodeText (s : String) : Bytes := s.toList.flatMap String.utf8EncodeChar

/-- The loop of `bigintToBytes`: `v & 0xffn` and `v >>= 8n` round down, also below zero. -/
def lowBytes : Nat → Int → Bytes
  | 0, _ => []
  | n + 1, v => UInt8.ofNat (v % 256).toNat :: lowBytes n (v / 256)

def bigintToBytes (n : Int) : Bytes := lowBytes 8 n

/-- What the proof of an aggregate hashes. -/
def aggregateMessage (total limit count : Int) : Bytes :=
  encodeText "obscura-compliance-v1" ++ bigintToBytes total ++ bigintToBytes limit ++
    bigintToBytes count

section Proofs

variable (sha256 : Bytes → Bytes32)

def buildComplianceProof (amounts : List Int) (limit : Int) : Bytes :=
  let total := amounts.foldl (fun s a => s + a) 0
  let count : Int := amounts.length
  let tag := encodeText "obscura-compliance-v1"
  let hash := sha256 (tag ++ bigintToBytes total ++ bigintToBytes limit ++ bigintToBytes count)
  encodeText "OBSv" ++ hash.bytes

def verifyComplianceProof (totalVolume regulatoryLimit : Int) (_txCount : Nat) (proof : Bytes) :
    Bool :=
  let _expected := buildComplianceProof sha256 [totalVolume] regulatoryLimit
  -- nothing is compared with what was recomputed
  decide (proof.length = 36 ∧ proof[0]? = some 79)

/-- The proof of the aggregate of some list of amounts. -/
def aggregateProof (total limit count : Int) : Bytes :=
  encodeText "OBSv" ++ (sha256 (aggregateMessage total limit count)).bytes

/-- The verifier accepts what is below the limit and was built for so many amounts of that total,
and nothing else. -/
def VerifiesExactly (total limit : Int) (count : Nat) (proof : Bytes) : Prop :=
  verifyComplianceProof sha256 total limit count proof = true ↔
    total ≤ limit ∧ ∃ amounts : List Int, (∀ amount ∈ amounts, 0 ≤ amount) ∧
      amounts.length = count ∧ amounts.sum = total ∧
      proof = buildComplianceProof sha256 amounts limit

variable {sha256}

theorem verifyComplianceProof_iff {total limit : Int} {count : Nat} {proof : Bytes} :
    verifyComplianceProof sha256 total limit count proof = true ↔
      proof.length = 36 ∧ proof[0]? = some 79 := decide_eq_true_iff

theorem buildComplianceProof_eq (amounts : List Int) (limit : Int) :
    buildComplianceProof sha256 amounts limit =
      aggregateProof sha256 amounts.sum limit amounts.length := by
  unfold buildComplianceProof aggregateProof aggregateMessage
  rw [List.sum_eq_foldl]

theorem aggregateProof_bytes (total limit count : Int) :
    aggregateProof sha256 total limit count =
      [79, 66, 83, 118] ++ (sha256 (aggregateMessage total limit count)).bytes := by
  have hmark : encodeText "OBSv" = [79, 66, 83, 118] := by decide
  rw [aggregateProof, hmark]

/-- What the verifier looks at. -/
theorem aggregateProof_shape (total limit count : Int) :
    (aggregateProof sha256 total limit count).length = 36 ∧
      (aggregateProof sha256 total limit count)[0]? = some 79 := by
  rw [aggregateProof_bytes]
  refine ⟨?_, rfl⟩
  rw [List.length_append, FixedBytes.length_bytes]
  rfl

/-- Every proof that is built is accepted, whatever it is presented for. -/
theorem verifyComplianceProof_build (amounts : List Int) (l total limit : Int) (count : Nat) :
    verifyComplianceProof sha256 total limit count (buildComplianceProof sha256 amounts l) =
      true := by
  rw [verifyComplianceProof_iff, buildComplianceProof_eq]
  exact aggregateProof_shape _ _ _

theorem exists_amounts_iff {total : Int} {count : Nat} :
    (∃ amounts : List Int, (∀ amount ∈ amounts, 0 ≤ amount) ∧ amounts.length = count ∧
      amounts.sum = total) ↔ 0 ≤ total ∧ (count = 0 → total = 0) := by
  constructor
  · rintro ⟨amounts, hpos, hlen, hsum⟩
    refine ⟨hsum ▸ List.sum_nonneg hpos, fun hzero => ?_⟩
    have hnone : amounts = [] := List.length_eq_zero_iff.mp (hlen.trans hzero)
    rw [← hsum, hnone, List.sum_nil]
  · rintro ⟨hpos, hzero⟩
    cases count with
    | zero => exact ⟨[], by simp, rfl, (hzero rfl).symm⟩
    | succ n =>
      refine ⟨total :: List.replicate n 0, ?_, ?_, ?_⟩
      · intro amount hamount
        rcases List.mem_cons.mp hamount with rfl | hrest
        · exact hpos
        · rw [List.eq_of_mem_replicate hrest]
      · rw [List.length_cons, List.length_replicate]
      · rw [List.sum_cons, List.sum_replicate, nsmul_zero, add_zero]

/-- The low bytes hold a number up to a multiple of `256 ^ n`. -/
theorem lowBytes_eq_iff {n : Nat} {v w : Int} :
    lowBytes n v = lowBytes n w ↔ v % 256 ^ n = w % 256 ^ n := by
  induction n generalizing v w with
  | zero => simp [lowBytes]
  | succ n ih =>
    have hsplit : ∀ x : Int, x % 256 ^ (n + 1) = x % 256 + 256 * (x / 256 % 256 ^ n) := by
      intro x
      rw [pow_succ', Int.emod_def, Int.emod_def x, Int.emod_def (x / 256),
        Int.ediv_ediv_of_nonneg (by omega)]
      ring
    have hbyte : ∀ x : Int, (UInt8.ofNat (x % 256).toNat).toNat = (x % 256).toNat := by
      intro x
      rw [UInt8.toNat_ofNat']
      omega
    rw [lowBytes, lowBytes, List.cons.injEq, ih, hsplit, hsplit, ← UInt8.toNat_inj, hbyte, hbyte]
    have hpos : (0 : Int) < 256 ^ n := Int.pow_pos (by omega)
    have hv := Int.emod_nonneg (v / 256) hpos.ne'
    have hw := Int.emod_nonneg (w / 256) hpos.ne'
    omega

theorem length_lowBytes (n : Nat) (v : Int) : (lowBytes n v).length = n := by
  induction n generalizing v with
  | zero => rfl
  | succ n ih => rw [lowBytes, List.length_cons, ih]

/-- As long as the messages do not collide, a proof fixes total, limit and count up to a multiple
of `2 ^ 64`. -/
theorem aggregateProof_binds {messages : Set Bytes} (cf : CollisionFreeOn sha256 messages)
    {total limit count total' limit' count' : Int}
    (hm : aggregateMessage total limit count ∈ messages)
    (hm' : aggregateMessage total' limit' count' ∈ messages) :
    aggregateProof sha256 total limit count = aggregateProof sha256 total' limit' count' ↔
      total % 2 ^ 64 = total' % 2 ^ 64 ∧ limit % 2 ^ 64 = limit' % 2 ^ 64 ∧
        count % 2 ^ 64 = count' % 2 ^ 64 := by
  have hwords : ∀ v w : Int, bigintToBytes v = bigintToBytes w ↔ v % 2 ^ 64 = w % 2 ^ 64 :=
    fun v w => lowBytes_eq_iff
  have hlen : ∀ v w : Int, (bigintToBytes v).length = (bigintToBytes w).length :=
    fun v w => (length_lowBytes 8 v).trans (length_lowBytes 8 w).symm
  rw [← hwords, ← hwords, ← hwords, aggregateProof, aggregateProof]
  constructor
  · intro h
    have hhash := FixedBytes.ext_bytes (List.append_cancel_left h)
    have hmessage := cf hm hm' hhash
    unfold aggregateMessage at hmessage
    obtain ⟨hlimits, hcount⟩ := List.append_inj' hmessage (hlen _ _)
    obtain ⟨htotals, hlimit⟩ := List.append_inj' hlimits (hlen _ _)
    exact ⟨List.append_cancel_left htotals, hlimit, hcount⟩
  · rintro ⟨htotal, hlimit, hcount⟩
    unfold aggregateMessage
    rw [htotal, hlimit, hcount]

theorem builtFor_iff {total limit : Int} {count : Nat} {proof : Bytes} :
    (∃ amounts : List Int, (∀ amount ∈ amounts, 0 ≤ amount) ∧ amounts.length = count ∧
      amounts.sum = total ∧ proof = buildComplianceProof sha256 amounts limit) ↔
      0 ≤ total ∧ (count = 0 → total = 0) ∧ proof = aggregateProof sha256 total limit count := by
  constructor
  · rintro ⟨amounts, hpos, hlen, hsum, hproof⟩
    rw [buildComplianceProof_eq, hsum, hlen] at hproof
    obtain ⟨htotal, hzero⟩ := exists_amounts_iff.mp ⟨amounts, hpos, hlen, hsum⟩
    exact ⟨htotal, hzero, hproof⟩
  · rintro ⟨htotal, hzero, hproof⟩
    obtain ⟨amounts, hpos, hlen, hsum⟩ := exists_amounts_iff.mpr ⟨htotal, hzero⟩
    refine ⟨amounts, hpos, hlen, hsum, ?_⟩
    rw [buildComplianceProof_eq, hsum, hlen, hproof]

theorem not_verifiesExactly {total limit : Int} {count : Nat} {proof : Bytes}
    (haccepted : proof.length = 36 ∧ proof[0]? = some 79)
    (hforged : limit < total ∨ proof ≠ aggregateProof sha256 total limit count) :
    ¬VerifiesExactly sha256 total limit count proof := by
  intro h
  obtain ⟨hlimit, hbuilt⟩ := h.mp (verifyComplianceProof_iff.mpr haccepted)
  rcases hforged with hover | hother
  · omega
  · exact hother (builtFor_iff.mp hbuilt).2.2

/-- A proof that was built is judged rightly exactly when it is presented for its own total, limit
and count, in eight bytes each, and these may be accepted. -/
theorem built_proof_verifiesExactly_iff {messages : Set Bytes}
    (cf : CollisionFreeOn sha256 messages) {amounts : List Int} {l total limit : Int} {count : Nat}
    (hm : aggregateMessage amounts.sum l amounts.length ∈ messages)
    (hm' : aggregateMessage total limit count ∈ messages) :
    VerifiesExactly sha256 total limit count (buildComplianceProof sha256 amounts l) ↔
      total ≤ limit ∧ 0 ≤ total ∧ (count = 0 → total = 0) ∧
        amounts.sum % 2 ^ 64 = total % 2 ^ 64 ∧ l % 2 ^ 64 = limit % 2 ^ 64 ∧
          (amounts.length : Int) % 2 ^ 64 = count % 2 ^ 64 := by
  have haccepted := @verifyComplianceProof_build sha256 amounts l total limit count
  rw [VerifiesExactly, iff_true_left haccepted, builtFor_iff, buildComplianceProof_eq,
    aggregateProof_binds cf hm hm']

end Proofs

end Compliance

open Compliance in
/-- The verifier is right exactly about what is not 36 bytes behind an `O`, and about the one proof
of a possible aggregate below the limit. -/
theorem compliance_verifies_exactly_iff (sha256 : Bytes → Bytes32) (total limit : Int)
    (count : Nat) (proof : Bytes) :
    VerifiesExactly sha256 total limit count proof ↔
      ¬(proof.length = 36 ∧ proof[0]? = some 79) ∨
        (total ≤ limit ∧ 0 ≤ total ∧ (count = 0 → total = 0) ∧
          proof = aggregateProof sha256 total limit count) := by
  unfold VerifiesExactly
  rw [verifyComplianceProof_iff, builtFor_iff]
  constructor
  · intro h
    by_cases haccepted : proof.length = 36 ∧ proof[0]? = some 79
    · exact Or.inr (h.mp haccepted)
    · exact Or.inl haccepted
  · rintro (hrefused | hbuilt)
    · refine iff_of_false hrefused fun hbuilt => hrefused ?_
      rw [hbuilt.2.2.2]
      exact aggregateProof_shape _ _ _
    · refine iff_of_true ?_ hbuilt
      rw [hbuilt.2.2.2]
      exact aggregateProof_shape _ _ _

open Compliance in
/-- An `O` and 35 zeros are accepted, and so is a proof for a total above the limit. -/
theorem forged_compliance_proof :
    ¬VerifiesExactly sha256 5 10 1 (79 :: List.replicate 35 0) ∧
      ¬VerifiesExactly sha256 5 1 1 (buildComplianceProof sha256 [5] 1) := by
  constructor
  · refine not_verifiesExactly ⟨rfl, rfl⟩ (Or.inr fun hsame => ?_)
    rw [aggregateProof_bytes] at hsame
    have hsecond := congrArg (fun bytes => bytes[1]?) hsame
    exact absurd hsecond (by decide)
  · have haccepted := @verifyComplianceProof_build sha256 [5] 1 5 1 1
    exact not_verifiesExactly (verifyComplianceProof_iff.mp haccepted) (Or.inl (by omega))

end ObscuraNetwork
