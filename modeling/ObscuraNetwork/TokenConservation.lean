import ObscuraNetwork.Conservation
import ObscuraNetwork.ObscuraToken
import Mathlib.Data.FinEnum
import Mathlib.Data.Fintype.Vector

namespace ObscuraNetwork

instance {n : Nat} : Fintype (FixedBytes n) :=
  Fintype.ofEquiv (List.Vector UInt8 n)
    { toFun := fun v => ⟨v.1, v.2⟩
      invFun := fun x => ⟨x.bytes, x.size⟩
      left_inv := fun _ => rfl
      right_inv := fun _ => rfl }

namespace ObscuraToken

/-- All tokens are held, and none by the zero address. -/
structure Conserved (t : ObscuraToken) : Prop where
  held : ∑ account, t.balances account = t.totalSupply
  supply : t.totalSupply = fullSupply
  zero : t.balances zeroAddress = 0

/-- An `approve` of the owner for the spender. -/
def ApprovesFor (owner spender : Bytes20) (i : TokenInput) : Prop :=
  i.sender = owner ∧ ∃ amount, i.message = .approve spender amount

/-- The amount of a `transferFrom` of the spender from the owner. -/
def movedFrom (owner spender : Bytes20) (i : TokenInput) : Nat :=
  match i.message with
  | .transferFrom holder _ amount => if holder = owner ∧ i.sender = spender then amount else 0
  | _ => 0

section Calls

variable {t t' : ObscuraToken} {holder recipient owner spender : Bytes20} {amount : Nat}

theorem moveBalance_ok (h : t.moveBalance holder recipient amount = .ok t') :
    recipient ≠ zeroAddress ∧ amount ≤ t.balances holder ∧ holder ≠ zeroAddress ∧
      t'.balances = moveAmount t.balances holder recipient amount ∧
      t'.allowances = t.allowances ∧ t'.totalSupply = t.totalSupply := by
  simp only [moveBalance, bind_ok, ensure_ok, checkedSub_ok, checked_ok, pure_ok] at h
  obtain ⟨_, hholder, _, hrecipient, _, hfunds, _, ⟨_, rfl⟩, _, ⟨_, rfl⟩, rfl⟩ := h
  exact ⟨hrecipient, hfunds, hholder, rfl, rfl, rfl⟩

theorem mint_ok (h : t.mint recipient amount = .ok t') :
    recipient ≠ zeroAddress ∧ t'.totalSupply = t.totalSupply + amount ∧
      t'.balances = Function.update t.balances recipient (t.balances recipient + amount) := by
  simp only [mint, bind_ok, ensure_ok, checked_ok, pure_ok] at h
  obtain ⟨_, hrecipient, _, ⟨_, rfl⟩, _, ⟨_, rfl⟩, rfl⟩ := h
  exact ⟨hrecipient, rfl, rfl⟩

theorem writeAllowance_ok (h : t.writeAllowance owner spender amount = .ok t') :
    t'.balances = t.balances ∧ t'.totalSupply = t.totalSupply ∧
      t'.allowances = (t.setAllowance owner spender amount).allowances := by
  simp only [writeAllowance, bind_ok, ensure_ok, pure_ok] at h
  obtain ⟨_, _, _, _, rfl⟩ := h
  exact ⟨rfl, rfl, rfl⟩

theorem setAllowance_self (t : ObscuraToken) (owner spender : Bytes20) (amount : Nat) :
    (t.setAllowance owner spender amount).allowances owner spender = amount := by
  simp [setAllowance]

theorem setAllowance_other {owner' spender' : Bytes20}
    (h : ¬(owner' = owner ∧ spender' = spender)) :
    (t.setAllowance owner spender amount).allowances owner' spender' =
      t.allowances owner' spender' := by
  unfold setAllowance
  by_cases howner : owner' = owner
  · have hspender : spender' ≠ spender := fun hs => h ⟨howner, hs⟩
    simp only [howner, Function.update_self, Function.update_of_ne hspender]
  · simp only [Function.update_of_ne howner]

theorem transferFrom_ok {sender : Bytes20}
    (h : t.transferFrom sender holder recipient amount = .ok t') :
    amount ≤ t.allowances holder sender ∧ ∃ t₁,
      t.writeAllowance holder sender (t.allowances holder sender - amount) = .ok t₁ ∧
      t₁.moveBalance holder recipient amount = .ok t' := by
  simp only [transferFrom, bind_ok, ensure_ok, checkedSub_ok] at h
  obtain ⟨_, hallowed, _, ⟨_, rfl⟩, t₁, hwritten, hmoved⟩ := h
  exact ⟨hallowed, t₁, hwritten, hmoved⟩

theorem transferFrom_balances (h : t.transferFrom spender owner recipient amount = .ok t') :
    owner ≠ zeroAddress ∧ recipient ≠ zeroAddress ∧ amount ≤ t.balances owner ∧
      t'.balances = moveAmount t.balances owner recipient amount ∧
      t'.totalSupply = t.totalSupply := by
  obtain ⟨_, t₁, hwritten, hmoved⟩ := transferFrom_ok h
  obtain ⟨hsame, hsupply₁, _⟩ := writeAllowance_ok hwritten
  obtain ⟨hrecipient, hfunds, hholder, hbalances, _, hsupply⟩ := moveBalance_ok hmoved
  rw [hsame] at hfunds hbalances
  exact ⟨hholder, hrecipient, hfunds, hbalances, hsupply.trans hsupply₁⟩

theorem movedFrom_self :
    movedFrom owner spender ⟨spender, .transferFrom owner recipient amount⟩ = amount :=
  if_pos ⟨rfl, rfl⟩

/-- An accepted `transferFrom` debits the owner by exactly what it moves, and credits the recipient
with it. -/
theorem transferFrom_debits (hother : recipient ≠ owner)
    (h : act ⟨spender, .transferFrom owner recipient amount⟩ t = .ok t') :
    let moved := movedFrom owner spender ⟨spender, .transferFrom owner recipient amount⟩
    t'.balances owner + moved = t.balances owner ∧
      t'.balances recipient = t.balances recipient + moved := by
  intro moved
  obtain ⟨_, _, hfunds, hbalances, _⟩ := transferFrom_balances h
  have hmoved : moved = amount := movedFrom_self
  rw [hmoved, hbalances, moveAmount, Function.update_of_ne hother.symm, Function.update_self,
    Function.update_self, Function.update_of_ne hother]
  exact ⟨Nat.sub_add_cancel hfunds, rfl⟩

/-- What an accepted call does to the balances: nothing, or one move between two accounts. -/
theorem act_balances {i : TokenInput} (h : act i t = .ok t') :
    t'.totalSupply = t.totalSupply ∧ (t'.balances = t.balances ∨
      ∃ holder recipient amount, holder ≠ zeroAddress ∧ recipient ≠ zeroAddress ∧
        amount ≤ t.balances holder ∧
        t'.balances = moveAmount t.balances holder recipient amount) := by
  obtain ⟨sender, message⟩ := i
  cases message with
  | transfer recipient amount =>
    obtain ⟨hrecipient, hfunds, hholder, hbalances, _, hsupply⟩ := moveBalance_ok h
    exact ⟨hsupply, Or.inr ⟨sender, recipient, amount, hholder, hrecipient, hfunds, hbalances⟩⟩
  | approve spender amount =>
    obtain ⟨hbalances, hsupply, _⟩ := writeAllowance_ok h
    exact ⟨hsupply, Or.inl hbalances⟩
  | transferFrom holder recipient amount =>
    obtain ⟨hholder, hrecipient, hfunds, hbalances, hsupply⟩ := transferFrom_balances h
    exact ⟨hsupply, Or.inr ⟨holder, recipient, amount, hholder, hrecipient, hfunds, hbalances⟩⟩
  | transferOwnership newOwner =>
    simp only [act, transferOwnership, bind_ok, ensure_ok, pure_ok] at h
    obtain ⟨_, _, _, _, rfl⟩ := h
    exact ⟨rfl, Or.inl rfl⟩

/-- Only its own `approve` raises an allowance; each `transferFrom` takes its amount out of it. -/
theorem act_allowance {i : TokenInput} (h : act i t = .ok t')
    (hother : ¬ApprovesFor owner spender i) :
    t'.allowances owner spender + movedFrom owner spender i = t.allowances owner spender := by
  obtain ⟨sender, message⟩ := i
  cases message with
  | transfer recipient amount =>
    obtain ⟨_, _, _, _, hallowances, _⟩ := moveBalance_ok h
    rw [hallowances]
    rfl
  | approve spender' amount =>
    obtain ⟨_, _, hallowances⟩ := writeAllowance_ok h
    rw [hallowances, setAllowance_other]
    · rfl
    · rintro ⟨rfl, rfl⟩
      exact hother ⟨rfl, amount, rfl⟩
  | transferFrom holder recipient amount =>
    have h : t.transferFrom sender holder recipient amount = .ok t' := h
    obtain ⟨hallowed, t₁, hwritten, hmoved⟩ := transferFrom_ok h
    obtain ⟨_, _, hallowances₁⟩ := writeAllowance_ok hwritten
    obtain ⟨_, _, _, _, hallowances, _⟩ := moveBalance_ok hmoved
    rw [hallowances, hallowances₁]
    by_cases hspent : holder = owner ∧ sender = spender
    · obtain ⟨rfl, rfl⟩ := hspent
      rw [setAllowance_self, movedFrom_self]
      omega
    · have hmovedFrom :
          movedFrom owner spender ⟨sender, .transferFrom holder recipient amount⟩ = 0 :=
        if_neg hspent
      rw [hmovedFrom, setAllowance_other]
      · rfl
      · rintro ⟨rfl, rfl⟩
        exact hspent ⟨rfl, rfl⟩
  | transferOwnership newOwner =>
    simp only [act, transferOwnership, bind_ok, ensure_ok, pure_ok] at h
    obtain ⟨_, _, _, _, rfl⟩ := h
    rfl

end Calls

section Invariant

variable {t t' : ObscuraToken}

theorem Conserved.step (inv : t.Conserved) {i : TokenInput} (h : act i t = .ok t') :
    t'.Conserved := by
  obtain ⟨hsupply, hbalances⟩ := act_balances h
  have hfull : t'.totalSupply = fullSupply := hsupply.trans inv.supply
  rcases hbalances with hsame | ⟨holder, recipient, amount, hholder, hrecipient, hfunds, hmoved⟩
  · refine ⟨?_, hfull, ?_⟩
    · rw [hsame, hsupply]
      exact inv.held
    · rw [hsame]
      exact inv.zero
  · refine ⟨?_, hfull, ?_⟩
    · rw [hmoved, sum_moveAmount recipient hfunds, hsupply]
      exact inv.held
    · rw [hmoved, moveAmount_of_ne hholder.symm hrecipient.symm]
      exact inv.zero

theorem moveBalance_noPanic (held : ∑ account, t.balances account = fullSupply)
    (holder recipient : Bytes20) (amount : Nat) :
    NoPanic (t.moveBalance holder recipient amount) := by
  refine (noPanic_ensure _ _).bind fun _ _ => ?_
  refine (noPanic_ensure _ _).bind fun _ _ => ?_
  refine (noPanic_ensure _ _).bind fun _ hfunds => ?_
  have hfunds : amount ≤ t.balances holder := ensure_ok.mp hfunds
  have hdebit : checkedSub (t.balances holder) amount = .ok (t.balances holder - amount) :=
    checkedSub_ok.mpr ⟨hfunds, rfl⟩
  have hfits := credit_le_sum recipient hfunds
  have hsmall : fullSupply < 2 ^ 256 := by decide
  have hcredit : checked (Function.update t.balances holder (t.balances holder - amount) recipient +
      amount) = .ok _ := checked_ok.mpr ⟨by omega, rfl⟩
  rw [hdebit, ok_bind]
  show NoPanic (checked (Function.update t.balances holder _ recipient + amount) >>= _)
  rw [hcredit, ok_bind]
  exact noPanic_ok _

theorem writeAllowance_noPanic (owner spender : Bytes20) (amount : Nat) :
    NoPanic (t.writeAllowance owner spender amount) := by
  refine (noPanic_ensure _ _).bind fun _ _ => ?_
  refine (noPanic_ensure _ _).bind fun _ _ => ?_
  exact noPanic_ok _

/-- No addition and no subtraction of a call goes beyond its bounds. -/
theorem Conserved.noPanic (inv : t.Conserved) (i : TokenInput) : NoPanic (act i t) := by
  have held : ∑ account, t.balances account = fullSupply := inv.held.trans inv.supply
  obtain ⟨sender, message⟩ := i
  cases message with
  | transfer recipient amount => exact moveBalance_noPanic held sender recipient amount
  | approve spender amount => exact writeAllowance_noPanic sender spender amount
  | transferFrom holder recipient amount =>
    refine (noPanic_ensure _ _).bind fun _ hallowed => ?_
    have hallowed : amount ≤ t.allowances holder sender := ensure_ok.mp hallowed
    have hrest := checkedSub_ok.mpr ⟨hallowed, rfl⟩
    rw [hrest, ok_bind]
    refine (writeAllowance_noPanic _ _ _).bind fun t₁ hwritten => ?_
    apply moveBalance_noPanic
    rw [(writeAllowance_ok hwritten).1]
    exact held
  | transferOwnership newOwner =>
    refine (noPanic_ensure _ _).bind fun _ _ => ?_
    refine (noPanic_ensure _ _).bind fun _ _ => ?_
    exact noPanic_ok _

theorem construct_conserved {deployer treasury : Bytes20}
    (h : construct deployer treasury = .ok t) : t.Conserved := by
  obtain ⟨htreasury, hminting, hcredited⟩ := mint_ok h
  have hsupply : t.totalSupply = fullSupply := hminting.trans (Nat.zero_add fullSupply)
  have hbalances : t.balances = Function.update (fun _ => 0) treasury fullSupply :=
    hcredited.trans (congrArg _ (Nat.zero_add fullSupply))
  refine ⟨?_, hsupply, ?_⟩
  · rw [hbalances, hsupply, sum_single]
  · rw [hbalances, Function.update_of_ne htreasury.symm]

theorem conserved_run {t₀ : ObscuraToken} (h : t₀.Conserved) (run : List TokenInput) :
    (settleAll act t₀ run).Conserved :=
  run_invariant (P := fun (t : ObscuraToken) _ => t.Conserved) h
    (fun _ _ _ _ inv hstep => inv.step hstep) run

end Invariant

/-- In every run no token is made or lost and no sum overflows, and a spender moves at most what
the owner has approved last. -/
theorem token_conserved {deployer treasury : Bytes20} {t₀ : ObscuraToken}
    (h : construct deployer treasury = .ok t₀) (run : List TokenInput) :
    (settleAll act t₀ run).Conserved ∧
    (∀ i, NoPanic (act i (settleAll act t₀ run))) ∧
    ∀ before between owner spender amount,
      run = before ++ ⟨owner, .approve spender amount⟩ :: between →
      ∀ t, act ⟨owner, .approve spender amount⟩ (settleAll act t₀ before) = .ok t →
        (∀ i ∈ accepted act t between, ¬ApprovesFor owner spender i) →
        ((accepted act t between).map (movedFrom owner spender)).sum ≤ amount := by
  have inv := conserved_run (construct_conserved h) run
  refine ⟨inv, inv.noPanic, ?_⟩
  intro before between owner spender amount _ t happroved hbetween
  have hset : t.allowances owner spender = amount := by
    rw [(writeAllowance_ok happroved).2.2]
    exact setAllowance_self _ _ _ _
  have hspent : (settleAll act t between).allowances owner spender +
      ((accepted act t between).map (movedFrom owner spender)).sum =
        t.allowances owner spender :=
    @budget_run _ _ _ act (fun t => t.allowances owner spender) (movedFrom owner spender)
      (fun i => ¬ApprovesFor owner spender i) (fun _ _ _ h hother => act_allowance h hother) t
      between hbetween
  omega

section Sample

def sampleHolder : Bytes20 := FixedBytes.replicate 20 1

def sampleSpender : Bytes20 := FixedBytes.replicate 20 2

def sampleSpending : TokenInput :=
  ⟨sampleSpender, .transferFrom sampleHolder sampleSpender 30⟩

theorem token_conserved_sample : ∃ t₀ t, construct sampleHolder sampleHolder = .ok t₀ ∧
    act ⟨sampleHolder, .approve sampleSpender 100⟩ t₀ = .ok t ∧
    (settleAll act t₀ [⟨sampleHolder, .approve sampleSpender 100⟩, sampleSpending]).Conserved ∧
    ((accepted act t [sampleSpending]).map (movedFrom sampleHolder sampleSpender)).sum ≤ 100 := by
  obtain ⟨t₀, ht₀⟩ : ∃ t₀, construct sampleHolder sampleHolder = .ok t₀ :=
    isOk_iff.mp (by decide +kernel)
  obtain ⟨t, ht⟩ : ∃ t, act ⟨sampleHolder, .approve sampleSpender 100⟩ t₀ = .ok t := ⟨_, rfl⟩
  obtain ⟨hconserved, _, hspent⟩ := token_conserved ht₀
    [⟨sampleHolder, .approve sampleSpender 100⟩, sampleSpending]
  refine ⟨t₀, t, ht₀, ht, hconserved, hspent [] [sampleSpending] _ _ _ rfl t ht ?_⟩
  intro i hi happroves
  have hspending : i = sampleSpending :=
    List.mem_singleton.mp ((accepted_sublist t [sampleSpending]).subset hi)
  obtain ⟨_, amount, hmessage⟩ := happroves
  rw [hspending] at hmessage
  cases hmessage

end Sample

end ObscuraToken

end ObscuraNetwork
