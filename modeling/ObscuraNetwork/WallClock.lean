import ObscuraNetwork.Runtime
import Mathlib.Data.List.Forall2

namespace ObscuraNetwork

/-- What a node sees of a call: the new state, a revert, or a crash. -/
inductive Verdict (σ : Type) where
  | accepted (s : σ)
  | rejected
  | crashed

/-- The verdict of a call; the text of an error is not part of it. -/
def verdict {σ : Type} : Outcome σ → Verdict σ
  | .ok s => .accepted s
  | .error (.bail _) => .rejected
  | .error (.panic _) => .crashed

namespace ObscuraPrivacy

/-- `handle_transfer` without its freshness check. -/
def handleTransferAnytime (b : Build) (msg : TransferMessage) (s : ObscuraPrivacy) :
    Outcome ObscuraPrivacy := do
  transferRootChecks b msg s
  finishTransfer b msg s

theorem handleTransfer_fresh {b : Build} {nowSecs : UInt64} {msg : TransferMessage}
    {s : ObscuraPrivacy} (h : tooOld nowSecs msg.sanctionsPublicInputs.proofTimestamp = false) :
    handleTransfer b nowSecs msg s = handleTransferAnytime b msg s := by
  simp only [handleTransfer, checkFreshness, handleTransferAnytime, ensure_true h, ok_bind]

theorem handleTransfer_stale {b : Build} {nowSecs : UInt64} {msg : TransferMessage}
    {s : ObscuraPrivacy} (h : tooOld nowSecs msg.sanctionsPublicInputs.proofTimestamp = true) :
    verdict (handleTransfer b nowSecs msg s) = .rejected := by
  have hfail : ¬tooOld nowSecs msg.sanctionsPublicInputs.proofTimestamp = false := by simp [h]
  rw [handleTransfer, checkFreshness, ensure_false hfail]
  cases hc : transferRootChecks b msg s with
  | ok u => rfl
  | error failure =>
    cases failure with
    | bail message => rfl
    | panic message => exact absurd hc (transferRootChecks_noPanic b msg s message)

theorem clock_verdict_iff (b : Build) (now now' : UInt64) (msg : TransferMessage)
    (s : ObscuraPrivacy) :
    verdict (handleTransfer b now msg s) = verdict (handleTransfer b now' msg s) ↔
      tooOld now msg.sanctionsPublicInputs.proofTimestamp =
        tooOld now' msg.sanctionsPublicInputs.proofTimestamp ∨
      verdict (handleTransferAnytime b msg s) = .rejected := by
  cases h : tooOld now msg.sanctionsPublicInputs.proofTimestamp <;>
    cases h' : tooOld now' msg.sanctionsPublicInputs.proofTimestamp
  · simp [handleTransfer_fresh h, handleTransfer_fresh h']
  · simp [handleTransfer_fresh h, handleTransfer_stale h']
  · simp [handleTransfer_stale h, handleTransfer_fresh h', eq_comm]
  · simp [handleTransfer_stale h, handleTransfer_stale h']

end ObscuraPrivacy

open ObscuraPrivacy

/-- The same transaction executed at two times on the same side of the limit. -/
structure SameSide (tx tx' : Tx) : Prop where
  call : tx.call = tx'.call
  sender : tx.context.sender = tx'.context.sender
  clock : ∀ msg, tx.call = .obscuraPrivacy (.transfer msg) →
    tooOld tx.context.nowSecs msg.sanctionsPublicInputs.proofTimestamp =
      tooOld tx'.context.nowSecs msg.sanctionsPublicInputs.proofTimestamp

theorem handleTransfer_not_ok {b : Build} {nowSecs : UInt64} {msg : TransferMessage}
    {s : ObscuraPrivacy} (h : tooOld nowSecs msg.sanctionsPublicInputs.proofTimestamp = true) :
    ∃ e, handleTransfer b nowSecs msg s = .error e := by
  have hstale := handleTransfer_stale (b := b) (s := s) h
  cases hc : handleTransfer b nowSecs msg s with
  | ok t => simp [hc, verdict] at hstale
  | error e => exact ⟨e, rfl⟩

theorem settle_sameSide {b : Build} {s : Runtime} {tx tx' : Tx} (h : SameSide tx tx') :
    settle (Runtime.call b) s tx = settle (Runtime.call b) s tx' := by
  obtain ⟨⟨sender, now⟩, call⟩ := tx
  obtain ⟨⟨sender', now'⟩, call'⟩ := tx'
  obtain ⟨hcall, hsender, hclock⟩ := h
  dsimp only at hcall hsender hclock
  subst hcall hsender
  cases call with
  | obscuraBridge msg => rfl
  | obscuraPrivacy msg =>
    cases msg with
    | shield msg => rfl
    | unshield msg => rfl
    | updateSanctionsRoot msg => rfl
    | transfer msg =>
      have hside := hclock msg rfl
      cases hold : tooOld now msg.sanctionsPublicInputs.proofTimestamp with
      | false =>
        have heq : handleTransfer b now msg s.obscuraPrivacy =
            handleTransfer b now' msg s.obscuraPrivacy := by
          rw [handleTransfer_fresh hold, handleTransfer_fresh (hside ▸ hold)]
        simp only [settle, Runtime.call, ObscuraPrivacy.call, heq]
      | true =>
        obtain ⟨e, he⟩ := handleTransfer_not_ok (b := b) (s := s.obscuraPrivacy) hold
        obtain ⟨e', he'⟩ := handleTransfer_not_ok (b := b) (s := s.obscuraPrivacy) (hside ▸ hold)
        simp only [settle, Runtime.call, ObscuraPrivacy.call, he, he', error_bind]

theorem run_sameSide (b : Build) (config : BridgeConfig) {txs txs' : List Tx}
    (h : List.Forall₂ SameSide txs txs') :
    Runtime.run b config txs = Runtime.run b config txs' := by
  unfold Runtime.run
  generalize Runtime.genesis b config = s
  induction h generalizing s with
  | nil => rfl
  | cons hd _ ih =>
    simp only [settleAll, List.foldl_cons] at ih ⊢
    rw [settle_sameSide hd]
    exact ih _

/-- Two clock readings give one verdict and one state exactly when they stand on the same side of
the 24-hour limit, or the message is rejected whatever the clock says. A node that re-executes the
same calls reaches the same state while no sanctions proof crosses the limit in between. -/
theorem replay_determinism (b : Build) :
    (∀ (now now' : UInt64) (msg : TransferMessage) (s : ObscuraPrivacy),
      verdict (handleTransfer b now msg s) = verdict (handleTransfer b now' msg s) ↔
        tooOld now msg.sanctionsPublicInputs.proofTimestamp =
          tooOld now' msg.sanctionsPublicInputs.proofTimestamp ∨
        verdict (handleTransferAnytime b msg s) = .rejected) ∧
    ∀ (config : BridgeConfig) (txs txs' : List Tx), List.Forall₂ SameSide txs txs' →
      Runtime.run b config txs = Runtime.run b config txs' :=
  ⟨clock_verdict_iff b, fun config _ _ h => run_sameSide b config h⟩

def earlyTransfer : TransferMessage where
  proof := mockHeader
  publicInputs := ⟨0, ⟨zeroBytes⟩, zeroBytes⟩
  nullifiers := []
  outputCommitments := []
  sanctionsProof := mockHeader
  sanctionsPublicInputs := ⟨zeroBytes, zeroBytes, 1⟩
  encryptedOutputs := []

theorem replay_determinism_early :
    Runtime.run .default .default [⟨⟨[], 10⟩, .obscuraPrivacy (.transfer earlyTransfer)⟩] =
      Runtime.run .default .default [⟨⟨[], 20⟩, .obscuraPrivacy (.transfer earlyTransfer)⟩] :=
  (replay_determinism .default).2 .default _ _
    (.cons ⟨rfl, rfl, fun msg h => by cases h; rfl⟩ .nil)

/-- Replayed more than a day later, the same message is rejected in the same state. -/
theorem replay_diverges :
    ∃ s, verdict (handleTransfer .default 10 earlyTransfer (ObscuraPrivacy.genesis .default)) =
        .accepted s ∧
      verdict (handleTransfer .default 100000 earlyTransfer (ObscuraPrivacy.genesis .default)) =
        .rejected :=
  ⟨_, rfl, rfl⟩

end ObscuraNetwork
