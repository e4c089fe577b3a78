import ObscuraNetwork.Draining
import ObscuraNetwork.SubscriptionTime

namespace ObscuraNetwork

namespace Billing

def canSubmitTx (s : Billing) (timestamp : Nat) (user : Bytes20) : Bool :=
  let u := s.users user
  if u.subscribed timestamp = true then
    let limit := s.planTxLimit u.activePlan
    if limit = 0 ∨ u.planTxUsed < limit then true else decide (0 < u.txCredits)
  else decide (0 < u.txCredits)

def remainingTx (s : Billing) (timestamp : Nat) (user : Bytes20) : Nat :=
  let u := s.users user
  if u.subscribed timestamp = true then
    let limit := s.planTxLimit u.activePlan
    if limit = 0 then 2 ^ 256 - 1
    else if u.planTxUsed < limit then limit - u.planTxUsed
    else u.txCredits
  else u.txCredits

/-- No unlimited plan is running. -/
def Limited (s : Billing) (timestamp : Nat) (user : Bytes20) : Prop :=
  (s.users user).subscribed timestamp = true → s.planTxLimit (s.users user).activePlan ≠ 0

/-- A running plan has transactions left. -/
def Covered (s : Billing) (timestamp : Nat) (user : Bytes20) : Prop :=
  (s.users user).subscribed timestamp = true ∧
    (s.users user).planTxUsed < s.planTxLimit (s.users user).activePlan

instance (s : Billing) (timestamp : Nat) (user : Bytes20) : Decidable (s.Covered timestamp user) :=
  inferInstanceAs (Decidable (_ ∧ _))

/-- What is left of the plan and the credits together. -/
def capacity (s : Billing) (timestamp : Nat) (user : Bytes20) : Nat :=
  (if s.Covered timestamp user then
    s.planTxLimit (s.users user).activePlan - (s.users user).planTxUsed
  else 0) + (s.users user).txCredits

/-- `remainingTx` is the number of calls of `consumeTx` that return true before the first that does
not, each takes one off it, and `canSubmitTx` tells whether the next one is among them. -/
structure RemainingExact (s : Billing) (ctx : BillingContext) (user : Bytes20) : Prop where
  calls : ∃ later, Drains (fun s => s.consumeTx ctx user) s later ∧
    later.length = s.remainingTx ctx.timestamp user ∧
    List.IsChain (fun a b =>
      b.remainingTx ctx.timestamp user + 1 = a.remainingTx ctx.timestamp user) (s :: later)
  next : s.canSubmitTx ctx.timestamp user = true ↔
    ∃ s', s.consumeTx ctx user = .ok (true, s')

/-- The states in which the sequencer asks for a user without an unlimited plan. -/
structure Asked (ctx : BillingContext) (user : Bytes20) (s : Billing) : Prop where
  owner : ctx.sender = s.owner
  limits : ∀ plan, s.planTxLimit plan < 2 ^ 256
  limited : s.Limited ctx.timestamp user

section Views

variable {s : Billing} {timestamp : Nat} {user : Bytes20}

theorem remainingTx_covered (hcovered : s.Covered timestamp user) :
    s.remainingTx timestamp user =
      s.planTxLimit (s.users user).activePlan - (s.users user).planTxUsed := by
  obtain ⟨hsubscribed, hused⟩ := hcovered
  have hlimit : s.planTxLimit (s.users user).activePlan ≠ 0 := by omega
  simp only [remainingTx]
  rw [if_pos hsubscribed, if_neg hlimit, if_pos hused]

theorem remainingTx_uncovered (hlimited : s.Limited timestamp user)
    (huncovered : ¬s.Covered timestamp user) :
    s.remainingTx timestamp user = (s.users user).txCredits := by
  simp only [remainingTx]
  split
  next hsubscribed =>
    have hused := fun hused => huncovered ⟨hsubscribed, hused⟩
    rw [if_neg (hlimited hsubscribed), if_neg hused]
  next => rfl

theorem canSubmitTx_iff (hlimited : s.Limited timestamp user) :
    s.canSubmitTx timestamp user = true ↔ 0 < s.capacity timestamp user := by
  simp only [canSubmitTx, capacity]
  by_cases hcovered : s.Covered timestamp user
  · have hused := hcovered.2
    rw [if_pos hcovered.1, if_pos (Or.inr hused), if_pos hcovered]
    exact iff_of_true rfl (by omega)
  · rw [if_neg hcovered, Nat.zero_add]
    split
    next hsubscribed =>
      have hspent : ¬(s.planTxLimit (s.users user).activePlan = 0 ∨
          (s.users user).planTxUsed < s.planTxLimit (s.users user).activePlan) := by
        rintro (hzero | hused)
        · exact hlimited hsubscribed hzero
        · exact hcovered ⟨hsubscribed, hused⟩
      rw [if_neg hspent, decide_eq_true_iff]
    next => rw [decide_eq_true_iff]

end Views

section Consume

variable {s : Billing} {ctx : BillingContext} {user : Bytes20}

/-- A transaction that the plan covers. -/
theorem consumeTx_covered (h : Asked ctx user s) (hcovered : s.Covered ctx.timestamp user) :
    ∃ s', s.consumeTx ctx user = .ok (true, s') ∧ s'.owner = s.owner ∧
      s'.planTxLimit = s.planTxLimit ∧ s'.users user =
        { s.users user with planTxUsed := (s.users user).planTxUsed + 1 } := by
  obtain ⟨hsubscribed, hused⟩ := hcovered
  have hbound := h.limits (s.users user).activePlan
  have hfits : checked ((s.users user).planTxUsed + 1) = .ok _ := checked_ok.mpr ⟨by omega, rfl⟩
  have howner : s.onlyOwner ctx = .ok () := ensure_true h.owner
  have hconsumed : s.consumeTx ctx user = .ok (true, (s.setUser user
      { s.users user with planTxUsed := (s.users user).planTxUsed + 1 }).emit
        (.txConsumed user (s.planTxLimit (s.users user).activePlan -
          ((s.users user).planTxUsed + 1)))) := by
    simp only [consumeTx, howner, ok_bind]
    rw [if_pos hsubscribed, if_neg (h.limited hsubscribed), if_pos hused, hfits, ok_bind]
    rfl
  refine ⟨_, hconsumed, rfl, rfl, ?_⟩
  exact Function.update_self _ _ _

theorem consumeTx_uncovered (h : Asked ctx user s) (huncovered : ¬s.Covered ctx.timestamp user) :
    s.consumeTx ctx user = s.consumeCredit user := by
  have howner : s.onlyOwner ctx = .ok () := ensure_true h.owner
  simp only [consumeTx, howner, ok_bind]
  split
  next hsubscribed =>
    have hused := fun hused => huncovered ⟨hsubscribed, hused⟩
    rw [if_neg (h.limited hsubscribed), if_neg hused]
  next => rfl

theorem consumeCredit_some (hcredits : 0 < (s.users user).txCredits) :
    ∃ s', s.consumeCredit user = .ok (true, s') ∧ s'.owner = s.owner ∧
      s'.planTxLimit = s.planTxLimit ∧ s'.users user =
        { s.users user with txCredits := (s.users user).txCredits - 1 } := by
  refine ⟨_, if_pos hcredits, rfl, rfl, ?_⟩
  exact Function.update_self _ _ _

theorem consumeCredit_none (hcredits : (s.users user).txCredits = 0) :
    s.consumeCredit user = .ok (false, s) := if_neg (by omega)

/-- What a call leaves that returns true. -/
structure Taken (ctx : BillingContext) (user : Bytes20) (s s' : Billing) : Prop where
  asked : Asked ctx user s'
  capacity : s'.capacity ctx.timestamp user + 1 = s.capacity ctx.timestamp user
  credits : (s.users user).txCredits = 0 → (s'.users user).txCredits = 0
  covered : s'.Covered ctx.timestamp user → s.Covered ctx.timestamp user

theorem Asked.keep (h : Asked ctx user s) {s' : Billing} (howner : s'.owner = s.owner)
    (hlimits : s'.planTxLimit = s.planTxLimit) {used credits : Nat}
    (huser : s'.users user =
      { s.users user with planTxUsed := used, txCredits := credits }) : Asked ctx user s' := by
  refine ⟨?_, ?_, ?_⟩
  · rw [howner]
    exact h.owner
  · rw [hlimits]
    exact h.limits
  · unfold Limited
    rw [hlimits, huser]
    exact h.limited

/-- The plan has one transaction less. -/
theorem takes_plan (h : Asked ctx user s) (hcovered : s.Covered ctx.timestamp user) :
    ∃ s', s.consumeTx ctx user = .ok (true, s') ∧ Taken ctx user s s' := by
  obtain ⟨s', hconsumed, howner, hlimits, huser⟩ := consumeTx_covered h hcovered
  have hcovered' : s'.Covered ctx.timestamp user ↔
      (s.users user).planTxUsed + 1 < s.planTxLimit (s.users user).activePlan := by
    unfold Covered
    rw [hlimits, huser]
    exact and_iff_right hcovered.1
  refine ⟨s', hconsumed, h.keep howner hlimits huser, ?_, ?_, fun _ => hcovered⟩
  · have hused := hcovered.2
    unfold capacity
    rw [if_pos hcovered, hlimits, huser]
    by_cases hmore : s'.Covered ctx.timestamp user
    · have := hcovered'.mp hmore
      rw [if_pos hmore]
      show s.planTxLimit (s.users user).activePlan - ((s.users user).planTxUsed + 1) +
        (s.users user).txCredits + 1 = _
      omega
    · have := mt hcovered'.mpr hmore
      rw [if_neg hmore]
      show 0 + (s.users user).txCredits + 1 = _
      omega
  · rw [huser]
    exact id

/-- Behind the plan there is one credit less. -/
theorem takes_credit (h : Asked ctx user s) (huncovered : ¬s.Covered ctx.timestamp user)
    (hcredits : 0 < (s.users user).txCredits) :
    ∃ s', s.consumeTx ctx user = .ok (true, s') ∧ Taken ctx user s s' := by
  obtain ⟨s', hconsumed, howner, hlimits, huser⟩ := consumeCredit_some hcredits
  have huncovered' : ¬s'.Covered ctx.timestamp user := by
    unfold Covered
    rw [hlimits, huser]
    exact huncovered
  refine ⟨s', (consumeTx_uncovered h huncovered).trans hconsumed, h.keep howner hlimits huser,
    ?_, ?_, fun hmore => absurd hmore huncovered'⟩
  · unfold capacity
    rw [if_neg huncovered, if_neg huncovered', huser]
    show 0 + ((s.users user).txCredits - 1) + 1 = 0 + (s.users user).txCredits
    omega
  · intro hnone
    omega

theorem consumeTx_takes (h : Asked ctx user s) (hpos : 0 < s.capacity ctx.timestamp user) :
    ∃ s', s.consumeTx ctx user = .ok (true, s') ∧ Taken ctx user s s' := by
  by_cases hcovered : s.Covered ctx.timestamp user
  · exact takes_plan h hcovered
  · unfold capacity at hpos
    rw [if_neg hcovered, Nat.zero_add] at hpos
    exact takes_credit h hcovered hpos

theorem consumeTx_refuses (h : Asked ctx user s) (hzero : s.capacity ctx.timestamp user = 0) :
    s.consumeTx ctx user = .ok (false, s) := by
  have hcovered : ¬s.Covered ctx.timestamp user := by
    intro hcovered
    have hused := hcovered.2
    unfold capacity at hzero
    rw [if_pos hcovered] at hzero
    omega
  unfold capacity at hzero
  rw [if_neg hcovered, Nat.zero_add] at hzero
  rw [consumeTx_uncovered h hcovered, consumeCredit_none hzero]

/-- Every call that returns true takes one of what is left of the plan and the credits. -/
theorem capacity_worth (ctx : BillingContext) (user : Bytes20) :
    Worth (fun s => s.consumeTx ctx user) (Asked ctx user)
      (fun s => s.capacity ctx.timestamp user) where
  empty s h hzero := ⟨s, consumeTx_refuses h hzero⟩
  take s h hpos := by
    obtain ⟨s', hconsumed, htaken⟩ := consumeTx_takes h hpos
    exact ⟨s', hconsumed, htaken.capacity, htaken.asked⟩

/-- Only one of the two sources has something left. -/
def OneSource (ctx : BillingContext) (user : Bytes20) (s : Billing) : Prop :=
  ¬(s.Covered ctx.timestamp user ∧ 0 < (s.users user).txCredits)

theorem remainingTx_eq_capacity (h : Asked ctx user s) (hone : OneSource ctx user s) :
    s.remainingTx ctx.timestamp user = s.capacity ctx.timestamp user := by
  unfold capacity
  by_cases hcovered : s.Covered ctx.timestamp user
  · have hcredits : ¬0 < (s.users user).txCredits := fun hcredits => hone ⟨hcovered, hcredits⟩
    rw [remainingTx_covered hcovered, if_pos hcovered]
    omega
  · rw [remainingTx_uncovered h.limited hcovered, if_neg hcovered, Nat.zero_add]

/-- With one source `remainingTx` is what the calls are worth, all the way down. -/
theorem remainingTx_worth (ctx : BillingContext) (user : Bytes20) :
    Worth (fun s => s.consumeTx ctx user) (fun s => Asked ctx user s ∧ OneSource ctx user s)
      (fun s => s.remainingTx ctx.timestamp user) where
  empty s h hzero := by
    rw [remainingTx_eq_capacity h.1 h.2] at hzero
    exact ⟨s, consumeTx_refuses h.1 hzero⟩
  take s h hpos := by
    obtain ⟨hasked, hone⟩ := h
    rw [remainingTx_eq_capacity hasked hone] at hpos
    obtain ⟨s', hconsumed, htaken⟩ := consumeTx_takes hasked hpos
    have hone' : OneSource ctx user s' := by
      rintro ⟨hmore, hpositive⟩
      have hnone : (s.users user).txCredits = 0 := by
        by_contra hsome
        exact hone ⟨htaken.covered hmore, by omega⟩
      rw [htaken.credits hnone] at hpositive
      omega
    refine ⟨s', hconsumed, ?_, htaken.asked, hone'⟩
    rw [remainingTx_eq_capacity htaken.asked hone', remainingTx_eq_capacity hasked hone]
    exact htaken.capacity

theorem remainingExact_iff (h : Asked ctx user s) :
    RemainingExact s ctx user ↔ OneSource ctx user s := by
  constructor
  · rintro hexact ⟨hcovered, hcredits⟩
    obtain ⟨later, hdrains, hlen, _⟩ := hexact.calls
    obtain ⟨later', hdrains', hlen', _⟩ := (capacity_worth ctx user).drains h
    rw [hdrains.unique hdrains', hlen', remainingTx_covered hcovered] at hlen
    unfold capacity at hlen
    rw [if_pos hcovered] at hlen
    omega
  · intro hone
    refine ⟨(remainingTx_worth ctx user).drains ⟨h, hone⟩, ?_⟩
    rw [canSubmitTx_iff h.limited]
    exact (capacity_worth ctx user).pos_iff h

end Consume

section Reachable

variable {s s' : Billing} {ctx : BillingContext}

theorem transferFrom_planTxLimit {price : Nat} (h : s.transferFrom ctx price = .ok s') :
    s'.planTxLimit = s.planTxLimit := by
  obtain ⟨_, rfl⟩ := transferFrom_ok h
  rfl

theorem consumeTx_planTxLimit {user : Bytes20} {covered : Bool}
    (h : s.consumeTx ctx user = .ok (covered, s')) : s'.planTxLimit = s.planTxLimit := by
  rcases consumeTx_ok h with rfl | ⟨_, _, rfl, _⟩
  · rfl
  · rfl

/-- No call changes the limits that the constructor has set. -/
theorem call_planTxLimit {message : BillingCall} (h : s.call ctx message = .ok s') :
    s'.planTxLimit = s.planTxLimit := by
  cases message with
  | payForTx txCount =>
    simp only [call, payForTx, bind_ok, pure_ok] at h
    obtain ⟨_, _, _, _, _, _, s₁, hpaid, _, _, rfl⟩ := h
    show s₁.planTxLimit = _
    exact transferFrom_planTxLimit hpaid
  | subscribe plan =>
    simp only [call, subscribe, bind_ok, pure_ok] at h
    obtain ⟨_, _, _, _, s₁, hpaid, _, _, rfl⟩ := h
    show s₁.planTxLimit = _
    exact transferFrom_planTxLimit hpaid
  | consumeTx user =>
    simp only [call, bind_ok, pure_ok, Prod.exists] at h
    obtain ⟨covered, s₁, hconsumed, rfl⟩ := h
    exact consumeTx_planTxLimit hconsumed
  | setPricePerTx newPrice =>
    simp only [call, setPricePerTx, bind_ok, pure_ok] at h
    obtain ⟨_, _, rfl⟩ := h
    rfl
  | setPlanPrice plan newPrice =>
    simp only [call, setPlanPrice, bind_ok, pure_ok] at h
    obtain ⟨_, _, rfl⟩ := h
    rfl
  | setTreasury newTreasury =>
    simp only [call, setTreasury, bind_ok, pure_ok] at h
    obtain ⟨_, _, _, _, rfl⟩ := h
    rfl
  | transferOwnership newOwner =>
    simp only [call, transferOwnership, bind_ok, pure_ok] at h
    obtain ⟨_, _, _, _, rfl⟩ := h
    rfl

theorem reachable_planTxLimit (owner treasury : Bytes20) (run : List BillingInput) :
    (settleAll act (construct owner treasury) run).planTxLimit =
      (construct owner treasury).planTxLimit := by
  refine run_invariant
    (P := fun (s : Billing) _ => s.planTxLimit = (construct owner treasury).planTxLimit) rfl ?_ run
  intro s done i s' hlimits hcall
  exact (call_planTxLimit hcall).trans hlimits

theorem construct_planTxLimit_lt (owner treasury : Bytes20) (plan : UInt8) :
    (construct owner treasury).planTxLimit plan < 2 ^ 256 := by
  unfold construct
  dsimp only
  split
  next => omega
  next => split <;> omega

theorem reachable_asked {owner treasury user : Bytes20} {run : List BillingInput}
    (howner : ctx.sender = (settleAll act (construct owner treasury) run).owner)
    (hlimited : (settleAll act (construct owner treasury) run).Limited ctx.timestamp user) :
    Asked ctx user (settleAll act (construct owner treasury) run) := by
  refine ⟨howner, fun plan => ?_, hlimited⟩
  rw [reachable_planTxLimit]
  exact construct_planTxLimit_lt owner treasury plan

end Reachable

end Billing

open Billing in
/-- In a reachable state the remaining transactions of a user without an unlimited plan are those
that the sequencer can consume exactly when a running plan and the credits do not both have some. -/
theorem remaining_exact_iff (owner treasury : Bytes20) (run : List BillingInput)
    (ctx : BillingContext) (user : Bytes20)
    (howner : ctx.sender = (settleAll act (construct owner treasury) run).owner)
    (hlimited : (settleAll act (construct owner treasury) run).Limited ctx.timestamp user) :
    RemainingExact (settleAll act (construct owner treasury) run) ctx user ↔
      OneSource ctx user (settleAll act (construct owner treasury) run) :=
  remainingExact_iff (reachable_asked howner hlimited)

section Sample

def samplePay (n txCount : Nat) : BillingInput :=
  ⟨⟨sampleSubscriber, day n, .moves, 0⟩, .payForTx txCount⟩

def sampleSequencer (n : Nat) : BillingContext := ⟨FixedBytes.replicate 20 2, day n, .moves, 0⟩

theorem remaining_exact_starter :
    Billing.RemainingExact (settleAll Billing.act sampleBilling [sampleSubscribe 1 1])
      (sampleSequencer 2) sampleSubscriber :=
  (remaining_exact_iff (FixedBytes.replicate 20 2) (FixedBytes.replicate 20 9)
    [sampleSubscribe 1 1] (sampleSequencer 2) sampleSubscriber (by decide +kernel)
    (fun _ => by decide +kernel)).mpr fun hboth => absurd hboth.2 (by decide +kernel)

/-- Five credits beside a Starter plan: 505 calls of `consumeTx` return true, `remainingTx` says
500. -/
theorem remaining_omits_credits :
    ∃ s, s = settleAll Billing.act sampleBilling [sampleSubscribe 1 1, samplePay 1 5] ∧
      (sampleSequencer 2).sender = s.owner ∧ s.Limited (day 2) sampleSubscriber ∧
      (∃ later, Drains (fun s => s.consumeTx (sampleSequencer 2) sampleSubscriber) s later ∧
        later.length = 505) ∧
      s.remainingTx (day 2) sampleSubscriber = 500 ∧
      ¬s.RemainingExact (sampleSequencer 2) sampleSubscriber := by
  have howner : (sampleSequencer 2).sender =
      (settleAll Billing.act sampleBilling [sampleSubscribe 1 1, samplePay 1 5]).owner := by
    decide +kernel
  have hlimited : (settleAll Billing.act sampleBilling
      [sampleSubscribe 1 1, samplePay 1 5]).Limited (day 2) sampleSubscriber :=
    fun _ => by decide +kernel
  have hasked := Billing.reachable_asked howner hlimited
  refine ⟨_, rfl, howner, hlimited, ?_, by decide +kernel, fun hexact => ?_⟩
  · obtain ⟨later, hdrains, hlen, _⟩ :=
      (Billing.capacity_worth (sampleSequencer 2) sampleSubscriber).drains hasked
    exact ⟨later, hdrains, hlen.trans (by decide +kernel)⟩
  · exact (Billing.remainingExact_iff hasked).mp hexact (by decide +kernel)

end Sample

end ObscuraNetwork
