import Mathlib.Algebra.GroupWithZero.Nat
import ObscuraNetwork.SubscriptionTime

namespace ObscuraNetwork

namespace BillingEvent

/-- The payer and the USDC of a purchase. -/
def payment : BillingEvent → Option (Bytes20 × Nat)
  | .txCreditsPurchased user _ usdcPaid => some (user, usdcPaid)
  | .subscribed user _ _ usdcPaid => some (user, usdcPaid)
  | _ => none

def isServed (user : Bytes20) : BillingEvent → Bool
  | .txConsumed u _ => decide (u = user)
  | _ => false

def isSubscribed (user : Bytes20) : BillingEvent → Bool
  | .subscribed u _ _ _ => decide (u = user)
  | _ => false

/-- The user subscribes to the plan without a limit. -/
def isUnlimited (user : Bytes20) : BillingEvent → Bool
  | .subscribed u plan _ _ => decide (u = user ∧ plan = Billing.planEnterprise)
  | _ => false

end BillingEvent

/-- The prices in force. -/
structure PriceList where
  perTx : Nat
  plan : UInt8 → Nat

namespace PriceList

def initial : PriceList :=
  let s := Billing.construct zeroAddress zeroAddress
  ⟨s.pricePerTx, s.planPrice⟩

def after (prices : PriceList) : BillingEvent → PriceList
  | .priceUpdated newPricePerTx => { prices with perTx := newPricePerTx }
  | .planPriceUpdated plan newPrice =>
    { prices with plan := Function.update prices.plan plan newPrice }
  | _ => prices

end PriceList

namespace Billing

def planLimit : UInt8 → Nat := (construct zeroAddress zeroAddress).planTxLimit

/-- The transactions that an event entitles the user to. -/
def granted (user : Bytes20) : BillingEvent → Nat
  | .txCreditsPurchased u txCount _ => if u = user then txCount else 0
  | .subscribed u plan _ _ => if u = user then planLimit plan else 0
  | _ => 0

/-- The whole price, or 60% of it. -/
def Charged (basePrice paid : Nat) : Prop :=
  paid = basePrice ∨ paid = basePrice * discountBps / bpsDenominator

def FairlyPriced (prices : PriceList) : BillingEvent → Prop
  | .txCreditsPurchased _ txCount paid => 0 < txCount ∧ Charged (prices.perTx * txCount) paid
  | .subscribed _ plan _ paid =>
    (planStarter ≤ plan ∧ plan ≤ planEnterprise) ∧ Charged (prices.plan plan) paid
  | _ => True

def served (user : Bytes20) (events : List BillingEvent) : Nat :=
  events.countP (BillingEvent.isServed user)

def entitled (user : Bytes20) (events : List BillingEvent) : Nat :=
  (events.map (granted user)).sum

/-- What an accepted call does to the contract. -/
inductive Effect (s : Billing) (ctx : BillingContext) : Billing → Prop
  | bought (txCount price : Nat) (hcount : 0 < txCount)
      (hprice : Charged (s.pricePerTx * txCount) price) :
      Effect s ctx ((({ s with
          transfers := s.transfers ++ [⟨ctx.sender, s.treasury, price⟩] } : Billing).setUser
        ctx.sender { s.users ctx.sender with
          txCredits := (s.users ctx.sender).txCredits + txCount }).emit
        (.txCreditsPurchased ctx.sender txCount price))
  | subscribed (plan : UInt8) (price planExpiry : Nat)
      (hplan : planStarter ≤ plan ∧ plan ≤ planEnterprise)
      (hprice : Charged (s.planPrice plan) price) :
      Effect s ctx ((({ s with
          transfers := s.transfers ++ [⟨ctx.sender, s.treasury, price⟩] } : Billing).setUser
        ctx.sender { s.users ctx.sender with
          activePlan := plan, planExpiry := planExpiry, planTxUsed := 0 }).emit
        (.subscribed ctx.sender plan planExpiry price))
  | byPlan (user : Bytes20) (remaining : Nat)
      (hactive : (s.users user).activePlan ≠ planNone)
      (hroom : s.planTxLimit (s.users user).activePlan = 0 ∨
        (s.users user).planTxUsed < s.planTxLimit (s.users user).activePlan) :
      Effect s ctx ((s.setUser user { s.users user with
        planTxUsed := (s.users user).planTxUsed + 1 }).emit (.txConsumed user remaining))
  | byCredit (user : Bytes20) (hcredits : 0 < (s.users user).txCredits) :
      Effect s ctx ((s.setUser user { s.users user with
        txCredits := (s.users user).txCredits - 1 }).emit
        (.txConsumed user ((s.users user).txCredits - 1)))
  | nothing : Effect s ctx s
  | price (newPrice : Nat) :
      Effect s ctx (({ s with pricePerTx := newPrice } : Billing).emit (.priceUpdated newPrice))
  | planPrice (plan : UInt8) (newPrice : Nat) :
      Effect s ctx (({ s with planPrice := Function.update s.planPrice plan newPrice } :
        Billing).emit (.planPriceUpdated plan newPrice))
  | appointed (owner treasury : Bytes20) :
      Effect s ctx { s with owner := owner, treasury := treasury }

section Effects

variable {s s' : Billing} {ctx : BillingContext}

theorem applyDiscount_charged {basePrice price : Nat} (h : applyDiscount ctx basePrice = .ok price) :
    Charged basePrice price := by
  unfold applyDiscount at h
  split at h
  next =>
    simp only [bind_ok, checked_ok, pure_ok] at h
    obtain ⟨_, ⟨_, rfl⟩, rfl⟩ := h
    exact Or.inr rfl
  next => exact Or.inl (pure_ok.mp h).symm

theorem transferFrom_paid {price : Nat} (h : s.transferFrom ctx price = .ok s') :
    s' = { s with transfers := s.transfers ++ [⟨ctx.sender, s.treasury, price⟩] } := by
  unfold transferFrom at h
  split at h
  next => exact (Except.ok.inj h).symm
  next => cases h
  next => cases h

theorem payForTx_effect {txCount : Nat} (h : s.payForTx ctx txCount = .ok s') : Effect s ctx s' := by
  simp only [payForTx, bind_ok, ensure_ok, checked_ok, pure_ok] at h
  obtain ⟨_, hcount, _, ⟨_, rfl⟩, price, hprice, s₁, hpaid, _, ⟨_, rfl⟩, rfl⟩ := h
  obtain rfl := transferFrom_paid hpaid
  exact .bought txCount price hcount (applyDiscount_charged hprice)

theorem subscribe_effect {plan : UInt8} (h : s.subscribe ctx plan = .ok s') : Effect s ctx s' := by
  simp only [subscribe, bind_ok, ensure_ok, checked_ok, pure_ok] at h
  obtain ⟨_, hplan, price, hprice, s₁, hpaid, planExpiry, _, rfl⟩ := h
  obtain rfl := transferFrom_paid hpaid
  exact .subscribed plan price planExpiry hplan (applyDiscount_charged hprice)

theorem consumeCredit_effect {user : Bytes20} {covered : Bool}
    (h : s.consumeCredit user = .ok (covered, s')) : Effect s ctx s' := by
  unfold consumeCredit at h
  dsimp only at h
  split at h
  next hcredits =>
    cases h
    exact .byCredit user hcredits
  next =>
    cases h
    exact .nothing

theorem consumeTx_effect {user : Bytes20} {covered : Bool}
    (h : s.consumeTx ctx user = .ok (covered, s')) : Effect s ctx s' := by
  simp only [consumeTx, bind_ok] at h
  obtain ⟨_, _, h⟩ := h
  split at h
  next hsubscribed =>
    have hactive := (of_decide_eq_true hsubscribed).1
    split at h
    next hunlimited =>
      simp only [bind_ok, checked_ok, pure_ok, Prod.mk.injEq] at h
      obtain ⟨_, ⟨_, rfl⟩, _, rfl⟩ := h
      exact .byPlan user _ hactive (Or.inl hunlimited)
    next =>
      split at h
      next hused =>
        simp only [bind_ok, checked_ok, pure_ok, Prod.mk.injEq] at h
        obtain ⟨_, ⟨_, rfl⟩, _, rfl⟩ := h
        exact .byPlan user _ hactive (Or.inr hused)
      next => exact consumeCredit_effect h
  next => exact consumeCredit_effect h

theorem call_effect {message : BillingCall} (h : s.call ctx message = .ok s') :
    Effect s ctx s' := by
  cases message with
  | payForTx txCount => exact payForTx_effect h
  | subscribe plan => exact subscribe_effect h
  | consumeTx user =>
    simp only [call, bind_ok, pure_ok, Prod.exists] at h
    obtain ⟨covered, s₁, hconsumed, rfl⟩ := h
    exact consumeTx_effect hconsumed
  | setPricePerTx newPrice =>
    simp only [call, setPricePerTx, bind_ok, pure_ok] at h
    obtain ⟨_, _, rfl⟩ := h
    exact .price newPrice
  | setPlanPrice plan newPrice =>
    simp only [call, setPlanPrice, bind_ok, pure_ok] at h
    obtain ⟨_, _, rfl⟩ := h
    exact .planPrice plan newPrice
  | setTreasury newTreasury =>
    simp only [call, setTreasury, bind_ok, pure_ok] at h
    obtain ⟨_, _, _, _, rfl⟩ := h
    exact .appointed s.owner newTreasury
  | transferOwnership newOwner =>
    simp only [call, transferOwnership, bind_ok, pure_ok] at h
    obtain ⟨_, _, _, _, rfl⟩ := h
    exact .appointed newOwner s.treasury

end Effects

/-- What the log says of a user, and the credits and the plan that the contract holds for it. -/
structure UserAccounted (user : Bytes20) (u : UserState) (events : List BillingEvent) : Prop where
  /-- A user who never had the unlimited plan. -/
  limited : (∀ e ∈ events, e.isUnlimited user = false) →
    (u.activePlan = planNone ∨ 0 < planLimit u.activePlan ∧
      u.planTxUsed ≤ planLimit u.activePlan) ∧
    served user events + u.txCredits + (planLimit u.activePlan - u.planTxUsed) ≤
      entitled user events
  /-- A user who has never subscribed. -/
  credits : (∀ e ∈ events, e.isSubscribed user = false) → u.activePlan = planNone ∧
    served user events + u.txCredits = entitled user events

section Users

variable {user : Bytes20} {u : UserState} {events : List BillingEvent} {e : BillingEvent}

theorem served_concat (user : Bytes20) (events : List BillingEvent) (e : BillingEvent) :
    served user (events ++ [e]) = served user events + (e.isServed user).toNat := by
  rw [served, served, List.countP_append, List.countP_singleton]
  cases e.isServed user <;> rfl

theorem entitled_concat (user : Bytes20) (events : List BillingEvent) (e : BillingEvent) :
    entitled user (events ++ [e]) = entitled user events + granted user e := by
  simp [entitled]

theorem forall_concat {P : BillingEvent → Prop} (h : ∀ x ∈ events ++ [e], P x) :
    (∀ x ∈ events, P x) ∧ P e :=
  ⟨fun x hx => h x (List.mem_append_left _ hx), h e (List.mem_append_right _ (by simp))⟩

/-- An event about somebody else, or about nobody. -/
theorem UserAccounted.other (h : UserAccounted user u events) (hserved : e.isServed user = false)
    (hgranted : granted user e = 0) : UserAccounted user u (events ++ [e]) := by
  refine ⟨fun hunlimited => ?_, fun hsubscribed => ?_⟩
  · rw [served_concat, entitled_concat, hserved, hgranted]
    exact h.limited (forall_concat hunlimited).1
  · rw [served_concat, entitled_concat, hserved, hgranted]
    exact h.credits (forall_concat hsubscribed).1

theorem UserAccounted.bought (h : UserAccounted user u events) (txCount paid : Nat) :
    UserAccounted user { u with txCredits := u.txCredits + txCount }
      (events ++ [.txCreditsPurchased user txCount paid]) := by
  have hgranted : granted user (.txCreditsPurchased user txCount paid) = txCount := if_pos rfl
  refine ⟨fun hunlimited => ?_, fun hsubscribed => ?_⟩
  · obtain ⟨hplan, hle⟩ := h.limited (forall_concat hunlimited).1
    refine ⟨hplan, ?_⟩
    rw [served_concat, entitled_concat, hgranted]
    simp only [BillingEvent.isServed, Bool.toNat_false]
    omega
  · obtain ⟨hnone, heq⟩ := h.credits (forall_concat hsubscribed).1
    refine ⟨hnone, ?_⟩
    rw [served_concat, entitled_concat, hgranted]
    simp only [BillingEvent.isServed, Bool.toNat_false]
    omega

theorem planLimit_pos {plan : UInt8} (hplan : planStarter ≤ plan ∧ plan ≤ planEnterprise)
    (hlimited : plan ≠ planEnterprise) : 0 < planLimit plan := by
  have hcases : plan = planStarter ∨ plan = planBusiness := by
    simp only [planStarter, planBusiness, planEnterprise, UInt8.le_iff_toNat_le, ne_eq,
      ← UInt8.toNat_inj] at *
    have hone : (1 : UInt8).toNat = 1 := rfl
    have htwo : (2 : UInt8).toNat = 2 := rfl
    have hthree : (3 : UInt8).toNat = 3 := rfl
    omega
  rcases hcases with rfl | rfl
  · decide
  · decide

/-- A subscription starts the plan anew; what the last one had left is lost. -/
theorem UserAccounted.subscribed (h : UserAccounted user u events) {plan : UInt8}
    (hplan : planStarter ≤ plan ∧ plan ≤ planEnterprise) (planExpiry paid : Nat) :
    UserAccounted user
      { u with activePlan := plan, planExpiry := planExpiry, planTxUsed := 0 }
      (events ++ [.subscribed user plan planExpiry paid]) := by
  have hgranted : granted user (.subscribed user plan planExpiry paid) = planLimit plan := if_pos rfl
  refine ⟨fun hunlimited => ?_, fun hsubscribed => ?_⟩
  · obtain ⟨hbefore, hnow⟩ := forall_concat hunlimited
    obtain ⟨_, hle⟩ := h.limited hbefore
    have hlimited : plan ≠ planEnterprise := by
      intro hplan
      simp [BillingEvent.isUnlimited, hplan] at hnow
    refine ⟨Or.inr ⟨planLimit_pos hplan hlimited, Nat.zero_le _⟩, ?_⟩
    rw [served_concat, entitled_concat, hgranted]
    simp only [BillingEvent.isServed, Bool.toNat_false]
    omega
  · have hnow := (forall_concat hsubscribed).2
    simp [BillingEvent.isSubscribed] at hnow

theorem UserAccounted.byPlan (h : UserAccounted user u events) (remaining : Nat)
    (hactive : u.activePlan ≠ planNone)
    (hroom : planLimit u.activePlan = 0 ∨ u.planTxUsed < planLimit u.activePlan) :
    UserAccounted user { u with planTxUsed := u.planTxUsed + 1 }
      (events ++ [.txConsumed user remaining]) := by
  have hserved : (BillingEvent.txConsumed user remaining).isServed user = true := decide_eq_true rfl
  refine ⟨fun hunlimited => ?_, fun hsubscribed => ?_⟩
  · obtain ⟨hplan, hle⟩ := h.limited (forall_concat hunlimited).1
    have hpositive := hplan.resolve_left hactive
    refine ⟨Or.inr ⟨hpositive.1, ?_⟩, ?_⟩
    · show u.planTxUsed + 1 ≤ planLimit u.activePlan
      omega
    · rw [served_concat, entitled_concat, hserved]
      simp only [granted, Bool.toNat_true]
      omega
  · exact absurd (h.credits (forall_concat hsubscribed).1).1 hactive

theorem UserAccounted.byCredit (h : UserAccounted user u events) (remaining : Nat)
    (hcredits : 0 < u.txCredits) :
    UserAccounted user { u with txCredits := u.txCredits - 1 }
      (events ++ [.txConsumed user remaining]) := by
  have hserved : (BillingEvent.txConsumed user remaining).isServed user = true := decide_eq_true rfl
  refine ⟨fun hunlimited => ?_, fun hsubscribed => ?_⟩
  · obtain ⟨hplan, hle⟩ := h.limited (forall_concat hunlimited).1
    refine ⟨hplan, ?_⟩
    rw [served_concat, entitled_concat, hserved]
    simp only [granted, Bool.toNat_true]
    omega
  · obtain ⟨hnone, heq⟩ := h.credits (forall_concat hsubscribed).1
    refine ⟨hnone, ?_⟩
    rw [served_concat, entitled_concat, hserved]
    simp only [granted, Bool.toNat_true]
    omega

end Users

/-- The contract and its log agree. -/
structure Accounted (s : Billing) : Prop where
  limits : s.planTxLimit = planLimit
  prices : s.events.foldl PriceList.after .initial = ⟨s.pricePerTx, s.planPrice⟩
  priced : EveryStep PriceList.after FairlyPriced .initial s.events
  payments : s.transfers.map (fun t => (t.sender, t.amount)) =
    s.events.filterMap BillingEvent.payment
  users : ∀ user, UserAccounted user (s.users user) s.events

section Accounting

variable {s s' : Billing} {ctx : BillingContext}

theorem construct_accounted (owner treasury : Bytes20) :
    Accounted (construct owner treasury) where
  limits := rfl
  prices := rfl
  priced := trivial
  payments := rfl
  users := by
    intro user
    refine ⟨fun _ => ⟨Or.inl rfl, ?_⟩, fun _ => ⟨rfl, rfl⟩⟩
    show 0 + 0 + (planLimit planNone - 0) ≤ 0
    decide

/-- An event that says of one user what its new state is. -/
theorem Accounted.users_concat (h : Accounted s) {user : Bytes20} {u : UserState} {e : BillingEvent}
    (hown : UserAccounted user u (s.events ++ [e]))
    (hserved : ∀ other ≠ user, e.isServed other = false)
    (hgranted : ∀ other ≠ user, granted other e = 0) (other : Bytes20) :
    UserAccounted other (Function.update s.users user u other) (s.events ++ [e]) := by
  by_cases hother : other = user
  · rw [hother, Function.update_self]
    exact hown
  · rw [Function.update_of_ne hother]
    exact (h.users other).other (hserved other hother) (hgranted other hother)

theorem Accounted.prices_concat (h : Accounted s) {e : BillingEvent}
    (hfair : FairlyPriced ⟨s.pricePerTx, s.planPrice⟩ e) :
    (s.events ++ [e]).foldl PriceList.after .initial =
        PriceList.after ⟨s.pricePerTx, s.planPrice⟩ e ∧
      EveryStep PriceList.after FairlyPriced .initial (s.events ++ [e]) := by
  refine ⟨?_, everyStep_concat.mpr ⟨h.priced, ?_⟩⟩
  · rw [List.foldl_append, h.prices]
    rfl
  · rw [h.prices]
    exact hfair

theorem Accounted.step (h : Accounted s) (heffect : Effect s ctx s') : Accounted s' := by
  cases heffect with
  | bought txCount price hcount hprice =>
    obtain ⟨hprices, hpriced⟩ := h.prices_concat
      (e := .txCreditsPurchased ctx.sender txCount price) ⟨hcount, hprice⟩
    refine ⟨h.limits, hprices, hpriced, ?_, ?_⟩
    · simp [emit, setUser, h.payments, BillingEvent.payment]
    · refine h.users_concat ((h.users ctx.sender).bought txCount price) (fun _ _ => rfl) ?_
      intro other hother
      exact if_neg (Ne.symm hother)
  | subscribed plan price planExpiry hplan hprice =>
    obtain ⟨hprices, hpriced⟩ := h.prices_concat
      (e := .subscribed ctx.sender plan planExpiry price) ⟨hplan, hprice⟩
    refine ⟨h.limits, hprices, hpriced, ?_, ?_⟩
    · simp [emit, setUser, h.payments, BillingEvent.payment]
    · refine h.users_concat ((h.users ctx.sender).subscribed hplan planExpiry price)
        (fun _ _ => rfl) ?_
      intro other hother
      exact if_neg (Ne.symm hother)
  | byPlan user remaining hactive hroom =>
    obtain ⟨hprices, hpriced⟩ := h.prices_concat (e := .txConsumed user remaining) trivial
    rw [h.limits] at hroom
    refine ⟨h.limits, hprices, hpriced, ?_, ?_⟩
    · simp [emit, setUser, h.payments, BillingEvent.payment]
    · refine h.users_concat ((h.users user).byPlan remaining hactive hroom) ?_ (fun _ _ => rfl)
      intro other hother
      exact decide_eq_false (Ne.symm hother)
  | byCredit user hcredits =>
    obtain ⟨hprices, hpriced⟩ := h.prices_concat
      (e := .txConsumed user ((s.users user).txCredits - 1)) trivial
    refine ⟨h.limits, hprices, hpriced, ?_, ?_⟩
    · simp [emit, setUser, h.payments, BillingEvent.payment]
    · refine h.users_concat ((h.users user).byCredit _ hcredits) ?_ (fun _ _ => rfl)
      intro other hother
      exact decide_eq_false (Ne.symm hother)
  | nothing => exact h
  | price newPrice =>
    obtain ⟨hprices, hpriced⟩ := h.prices_concat (e := .priceUpdated newPrice) trivial
    refine ⟨h.limits, hprices, hpriced, ?_, fun user => (h.users user).other rfl rfl⟩
    simp [emit, h.payments, BillingEvent.payment]
  | planPrice plan newPrice =>
    obtain ⟨hprices, hpriced⟩ := h.prices_concat (e := .planPriceUpdated plan newPrice) trivial
    refine ⟨h.limits, hprices, hpriced, ?_, fun user => (h.users user).other rfl rfl⟩
    simp [emit, h.payments, BillingEvent.payment]
  | appointed owner treasury => exact ⟨h.limits, h.prices, h.priced, h.payments, h.users⟩

theorem run_accounted (owner treasury : Bytes20) (inputs : List BillingInput) :
    Accounted (settleAll act (construct owner treasury) inputs) := by
  refine run_invariant (P := fun s _ => Accounted s) (construct_accounted owner treasury) ?_ inputs
  intro s _ i s' hs h
  exact hs.step (call_effect h)

end Accounting

/-- In every state the log shows what the contract has taken and given: it has a payment for every
USDC transfer, each at a price in force when it was made; nobody without the unlimited plan has been
served more than was paid for, and whoever never subscribed has had or still has all of it. -/
theorem billing_log_audits (owner treasury : Bytes20) (inputs : List BillingInput) :
    let s := settleAll act (construct owner treasury) inputs
    s.transfers.map (fun t => (t.sender, t.amount)) = s.events.filterMap BillingEvent.payment ∧
      EveryStep PriceList.after FairlyPriced .initial s.events ∧
      ∀ user,
        ((∀ e ∈ s.events, e.isUnlimited user = false) →
          served user s.events + (s.users user).txCredits ≤ entitled user s.events) ∧
        ((∀ e ∈ s.events, e.isSubscribed user = false) →
          served user s.events + (s.users user).txCredits = entitled user s.events) := by
  intro s
  have hs : Accounted s := run_accounted owner treasury inputs
  refine ⟨hs.payments, hs.priced, fun user => ⟨fun hunlimited => ?_, fun hsubscribed => ?_⟩⟩
  · have hle := ((hs.users user).limited hunlimited).2
    omega
  · exact ((hs.users user).credits hsubscribed).2

end Billing

end ObscuraNetwork
