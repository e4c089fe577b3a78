import ObscuraNetwork.Billing
import ObscuraNetwork.DwellTime

namespace ObscuraNetwork

structure BillingInput where
  ctx : BillingContext
  message : BillingCall

namespace Billing

def act (i : BillingInput) (s : Billing) : Outcome Billing := s.call i.ctx i.message

/-- A call that reverts leaves the contract as it was. -/
def step (s : Billing) (i : BillingInput) : Billing := settle act s i

/-- `consumeTx` takes the user to be on the plan. -/
def onPlan (user : Bytes20) (plan : UInt8) (s : Billing) (timestamp : Nat) : Bool :=
  (s.users user).subscribed timestamp && decide ((s.users user).activePlan = plan)

/-- A `subscribe` of the user to the plan that goes through. -/
def subscribes (user : Bytes20) (plan : UInt8) (s : Billing) (i : BillingInput) : Bool :=
  decide (i.ctx.sender = user ∧ i.message = .subscribe plan) && (s.subscribe i.ctx plan).isOk

def planTime (user : Bytes20) (plan : UInt8) (s : Billing) (run : List BillingInput)
    (stop : Nat) : Nat :=
  DwellTime.dwell (fun i => i.ctx.timestamp) step (onPlan user plan) s 0 run stop

def subscriptions (user : Bytes20) (plan : UInt8) (s : Billing) (run : List BillingInput) : Nat :=
  DwellTime.countSteps step (subscribes user plan) s run

/-- Whoever changes plans lets the old one run out first. -/
def SwitchesExpired (s : Billing) (i : BillingInput) : Prop :=
  ∀ plan, i.message = .subscribe plan → (s.subscribe i.ctx plan).isOk = true →
    (s.users i.ctx.sender).activePlan = plan ∨
      (s.users i.ctx.sender).planExpiry ≤ i.ctx.timestamp

/-- The seconds of the plan that are still to come. -/
def planLeft (user : Bytes20) (plan : UInt8) (s : Billing) (timestamp : Nat) : Nat :=
  if (s.users user).activePlan = plan ∧ plan ≠ planNone then
    (s.users user).planExpiry - timestamp
  else 0

section Steps

variable {s s' : Billing} {ctx : BillingContext}

theorem transferFrom_ok {price : Nat} (h : s.transferFrom ctx price = .ok s') :
    ∃ transfer, s' = { s with transfers := s.transfers ++ [transfer] } := by
  unfold transferFrom at h
  split at h
  next => exact ⟨_, (Except.ok.inj h).symm⟩
  next => cases h
  next => cases h

theorem transferFrom_users {price : Nat} (h : s.transferFrom ctx price = .ok s') :
    s'.users = s.users := by
  obtain ⟨_, rfl⟩ := transferFrom_ok h
  rfl

theorem subscribe_ok {plan : UInt8} (h : s.subscribe ctx plan = .ok s') :
    plan ≠ planNone ∧ s'.users = Function.update s.users ctx.sender
      { s.users ctx.sender with
        activePlan := plan
        planExpiry := max (s.users ctx.sender).planExpiry ctx.timestamp + thirtyDays
        planTxUsed := 0 } := by
  simp only [subscribe, bind_ok, ensure_ok, checked_ok, pure_ok] at h
  obtain ⟨_, hplan, price, _, s₁, hpaid, planExpiry, ⟨_, hexpiry⟩, rfl⟩ := h
  rw [transferFrom_users hpaid] at hexpiry
  have hstart : (if (s.users ctx.sender).planExpiry < ctx.timestamp then ctx.timestamp
      else (s.users ctx.sender).planExpiry) =
        max (s.users ctx.sender).planExpiry ctx.timestamp := by
    split <;> omega
  rw [hstart] at hexpiry
  refine ⟨fun hnone => ?_, ?_⟩
  · rw [hnone] at hplan
    exact absurd hplan.1 (by decide)
  · show Function.update s₁.users ctx.sender _ = _
    rw [transferFrom_users hpaid, ← hexpiry]

theorem le_planExpiry_of_subscribe {plan : UInt8} (h : s.subscribe ctx plan = .ok s') :
    ctx.timestamp ≤ (s'.users ctx.sender).planExpiry := by
  rw [(subscribe_ok h).2, Function.update_self]
  exact (le_max_right _ _).trans (Nat.le_add_right _ _)

/-- Two states of the contract hold the same plan for every account. -/
def SamePlans (s s' : Billing) : Prop :=
  ∀ user, (s'.users user).activePlan = (s.users user).activePlan ∧
    (s'.users user).planExpiry = (s.users user).planExpiry

theorem samePlans_of_users (h : s'.users = s.users) : SamePlans s s' := by
  intro user
  rw [h]
  exact ⟨rfl, rfl⟩

theorem samePlans_setUser {user : Bytes20} {u : UserState} (h : s'.users = (s.setUser user u).users)
    (hplan : u.activePlan = (s.users user).activePlan)
    (hexpiry : u.planExpiry = (s.users user).planExpiry) : SamePlans s s' := by
  intro other
  rw [h, setUser_users]
  by_cases hother : other = user
  · rw [hother, Function.update_self]
    exact ⟨hplan, hexpiry⟩
  · rw [Function.update_of_ne hother]
    exact ⟨rfl, rfl⟩

theorem payForTx_samePlans {txCount : Nat} (h : s.payForTx ctx txCount = .ok s') :
    SamePlans s s' := by
  simp only [payForTx, bind_ok, ensure_ok, checked_ok, pure_ok] at h
  obtain ⟨_, _, _, _, price, _, s₁, hpaid, txCredits, _, rfl⟩ := h
  have husers := transferFrom_users hpaid
  refine samePlans_setUser (u := { s.users ctx.sender with txCredits := txCredits }) ?_ rfl rfl
  rw [emit_users, setUser_users, setUser_users, husers]

theorem consumeCredit_ok {user : Bytes20} {covered : Bool}
    (h : s.consumeCredit user = .ok (covered, s')) :
    s' = s ∨ ∃ u event, s' = (s.setUser user u).emit event ∧
      u.activePlan = (s.users user).activePlan ∧ u.planExpiry = (s.users user).planExpiry := by
  unfold consumeCredit at h
  dsimp only at h
  split at h
  next =>
    cases h
    exact Or.inr ⟨_, _, rfl, rfl, rfl⟩
  next =>
    cases h
    exact Or.inl rfl

/-- A transaction that is consumed is counted for the user, who keeps the plan, and changes nothing
else. -/
theorem consumeTx_ok {user : Bytes20} {covered : Bool}
    (h : s.consumeTx ctx user = .ok (covered, s')) :
    s' = s ∨ ∃ u event, s' = (s.setUser user u).emit event ∧
      u.activePlan = (s.users user).activePlan ∧ u.planExpiry = (s.users user).planExpiry := by
  simp only [consumeTx, bind_ok] at h
  obtain ⟨_, _, h⟩ := h
  split at h
  next =>
    split at h
    next =>
      simp only [bind_ok, checked_ok, pure_ok, Prod.mk.injEq] at h
      obtain ⟨planTxUsed, _, _, rfl⟩ := h
      exact Or.inr ⟨_, _, rfl, rfl, rfl⟩
    next =>
      split at h
      next =>
        simp only [bind_ok, checked_ok, pure_ok, Prod.mk.injEq] at h
        obtain ⟨planTxUsed, _, _, rfl⟩ := h
        exact Or.inr ⟨_, _, rfl, rfl, rfl⟩
      next => exact consumeCredit_ok h
  next => exact consumeCredit_ok h

theorem consumeTx_samePlans {user : Bytes20} {covered : Bool}
    (h : s.consumeTx ctx user = .ok (covered, s')) : SamePlans s s' := by
  rcases consumeTx_ok h with rfl | ⟨u, event, rfl, hplan, hexpiry⟩
  · exact samePlans_of_users rfl
  · exact samePlans_setUser rfl hplan hexpiry

/-- Only `subscribe` touches the plan of an account. -/
theorem call_samePlans {message : BillingCall} (h : s.call ctx message = .ok s')
    (hother : ∀ plan, message ≠ .subscribe plan) : SamePlans s s' := by
  cases message with
  | payForTx txCount => exact payForTx_samePlans h
  | subscribe plan => exact absurd rfl (hother plan)
  | consumeTx user =>
    simp only [call, bind_ok, pure_ok, Prod.exists] at h
    obtain ⟨covered, s₁, hconsumed, rfl⟩ := h
    exact consumeTx_samePlans hconsumed
  | setPricePerTx newPrice =>
    simp only [call, setPricePerTx, bind_ok, pure_ok] at h
    obtain ⟨_, _, rfl⟩ := h
    exact samePlans_of_users rfl
  | setPlanPrice plan newPrice =>
    simp only [call, setPlanPrice, bind_ok, pure_ok] at h
    obtain ⟨_, _, rfl⟩ := h
    exact samePlans_of_users rfl
  | setTreasury newTreasury =>
    simp only [call, setTreasury, bind_ok, pure_ok] at h
    obtain ⟨_, _, _, _, rfl⟩ := h
    exact samePlans_of_users rfl
  | transferOwnership newOwner =>
    simp only [call, transferOwnership, bind_ok, pure_ok] at h
    obtain ⟨_, _, _, _, rfl⟩ := h
    exact samePlans_of_users rfl

/-- What an input does to the plans: nothing, or one account subscribes. -/
inductive PlanStep (s : Billing) (i : BillingInput) : Billing → Prop
  | same {s' : Billing} (hsame : SamePlans s s')
      (hcounts : ∀ user plan, subscribes user plan s i = false) : PlanStep s i s'
  | subscribed {s' : Billing} {plan : UInt8} (hmessage : i.message = .subscribe plan)
      (haccepted : s.subscribe i.ctx plan = .ok s') : PlanStep s i s'

theorem planStep (s : Billing) (i : BillingInput) : PlanStep s i (s.step i) := by
  cases h : act i s with
  | error e =>
    rw [step, settle_error h]
    refine .same (samePlans_of_users rfl) fun user plan => ?_
    rw [subscribes, Bool.and_eq_false_iff, decide_eq_false_iff_not]
    by_cases hsubscribe : i.message = .subscribe plan
    · rw [act, hsubscribe] at h
      have hfailed : s.subscribe i.ctx plan = .error e := h
      rw [hfailed]
      exact Or.inr rfl
    · exact Or.inl fun hmatch => hsubscribe hmatch.2
  | ok s' =>
    rw [step, settle_ok h]
    by_cases hsubscribe : ∃ plan, i.message = .subscribe plan
    · obtain ⟨plan, hplan⟩ := hsubscribe
      rw [act, hplan] at h
      exact .subscribed hplan h
    · have hother : ∀ plan, i.message ≠ .subscribe plan :=
        fun plan hplan => hsubscribe ⟨plan, hplan⟩
      refine .same (call_samePlans h hother) fun user plan => ?_
      rw [subscribes, Bool.and_eq_false_iff, decide_eq_false_iff_not]
      exact Or.inl fun hmatch => hother plan hmatch.2

end Steps

section Time

variable {user : Bytes20} {plan : UInt8}

theorem planLeft_spend (s : Billing) (a b : Nat) (h : a ≤ b) :
    DwellTime.seconds (onPlan user plan s) a b + planLeft user plan s b =
      planLeft user plan s a := by
  by_cases hactive : (s.users user).activePlan = plan ∧ plan ≠ planNone
  · have hon : ∀ t, onPlan user plan s t = decide (t < (s.users user).planExpiry) := by
      intro t
      simp [onPlan, UserState.subscribed, hactive.1, hactive.2]
    rw [DwellTime.seconds_until hon, planLeft, planLeft, if_pos hactive, if_pos hactive]
    omega
  · have hoff : ∀ t, onPlan user plan s t = false := by
      intro t
      rw [onPlan, UserState.subscribed, Bool.and_eq_false_iff, decide_eq_false_iff_not,
        decide_eq_false_iff_not]
      by_cases hplan : (s.users user).activePlan = plan
      · refine Or.inl fun hsubscribed => hactive ⟨hplan, ?_⟩
        rw [← hplan]
        exact hsubscribed.1
      · exact Or.inr hplan
    rw [DwellTime.seconds_none hoff, planLeft, planLeft, if_neg hactive, if_neg hactive]

theorem planLeft_same {s s' : Billing} (h : SamePlans s s') (t : Nat) :
    planLeft user plan s' t = planLeft user plan s t := by
  rw [planLeft, planLeft, (h user).1, (h user).2]

/-- A step that does not switch away from a running plan grants thirty days for every subscription
that goes through, and takes nothing away. -/
theorem planLeft_step {s : Billing} {i : BillingInput} (h : SwitchesExpired s i) :
    planLeft user plan (s.step i) i.ctx.timestamp = planLeft user plan s i.ctx.timestamp +
      thirtyDays * (subscribes user plan s i).toNat := by
  cases planStep s i with
  | same hsame hcounts =>
    rw [planLeft_same hsame, hcounts user plan, Bool.toNat_false, Nat.mul_zero, Nat.add_zero]
  | @subscribed plan' hmessage haccepted =>
    obtain ⟨hnone, husers⟩ := subscribe_ok haccepted
    have hok : (s.subscribe i.ctx plan').isOk = true := by rw [haccepted]; rfl
    have hswitch := h plan' hmessage hok
    by_cases hsender : i.ctx.sender = user
    · rw [hsender] at husers hswitch
      have hactive : ((s.step i).users user).activePlan = plan' := by
        rw [husers, Function.update_self]
      have hexpiry : ((s.step i).users user).planExpiry =
          max (s.users user).planExpiry i.ctx.timestamp + thirtyDays := by
        rw [husers, Function.update_self]
      rw [planLeft, planLeft, hactive, hexpiry]
      by_cases hplan : plan' = plan
      · have hcounts : subscribes user plan s i = true := by
          rw [← hplan, subscribes, decide_eq_true ⟨hsender, hmessage⟩, hok]
          rfl
        rw [hplan] at hnone hswitch
        rw [hcounts, if_pos ⟨hplan, hnone⟩, Bool.toNat_true, Nat.mul_one]
        rcases hswitch with hsame | hexpired
        · rw [if_pos ⟨hsame, hnone⟩]
          omega
        · split <;> omega
      · have hcounts : subscribes user plan s i = false := by
          rw [subscribes, hmessage, Bool.and_eq_false_iff, decide_eq_false_iff_not]
          refine Or.inl fun hmatch => hplan ?_
          exact BillingCall.subscribe.inj hmatch.2
        rw [hcounts, if_neg fun hmatch => hplan hmatch.1, Bool.toNat_false, Nat.mul_zero]
        rcases hswitch with hsame | hexpired
        · rw [if_neg fun hmatch => hplan (hsame.symm.trans hmatch.1)]
        · split <;> omega
    · have hcounts : subscribes user plan s i = false := by
        rw [subscribes, Bool.and_eq_false_iff, decide_eq_false_iff_not]
        exact Or.inl fun hmatch => hsender hmatch.1
      rw [planLeft, planLeft, husers, Function.update_of_ne (Ne.symm hsender), hcounts,
        Bool.toNat_false, Nat.mul_zero, Nat.add_zero]

variable (user plan) in
/-- After a run without such a switch, the time on a plan and the time left of it are thirty days
for every subscription. -/
theorem planTime_add_planLeft {s : Billing} {run : List BillingInput} {stop : Nat}
    (h : EveryStep step SwitchesExpired s run)
    (hordered : (run.map fun i => i.ctx.timestamp).Pairwise (· ≤ ·))
    (hstop : ∀ i ∈ run, i.ctx.timestamp ≤ stop) :
    planTime user plan s run stop + planLeft user plan (run.foldl step s) stop =
      planLeft user plan s 0 + thirtyDays * subscriptions user plan s run := by
  refine DwellTime.dwell_add_left planLeft_spend ?_ hordered (fun _ _ => Nat.zero_le _) hstop
    (Nat.zero_le _)
  exact h.imp fun _ _ hswitch => planLeft_step hswitch

theorem planLeft_construct (owner treasury : Bytes20) (t : Nat) :
    planLeft user plan (construct owner treasury) t = 0 := by
  simp [planLeft, construct, UserState.empty]

theorem planLeft_expiry {s : Billing} :
    planLeft user plan s (s.users user).planExpiry = 0 := by
  rw [planLeft, Nat.sub_self, ite_self]

/-- A switch away from a running plan takes the time that is left over to the new plan. -/
theorem planLeft_switch {s s' : Billing} {ctx : BillingContext}
    (haccepted : s.subscribe ctx plan = .ok s')
    (hrunning : ctx.timestamp < (s.users ctx.sender).planExpiry) :
    planLeft ctx.sender plan s' ctx.timestamp =
      (s.users ctx.sender).planExpiry - ctx.timestamp + thirtyDays := by
  obtain ⟨hnone, husers⟩ := subscribe_ok haccepted
  rw [planLeft, husers, Function.update_self, if_pos ⟨rfl, hnone⟩]
  show max (s.users ctx.sender).planExpiry ctx.timestamp + thirtyDays - ctx.timestamp = _
  omega

/-- Had the run no switch before, the new plan has had what was paid for; the time carried over
comes on top. -/
theorem planTime_switch {owner treasury : Bytes20} {run : List BillingInput} {i : BillingInput}
    (hrun : EveryStep step SwitchesExpired (construct owner treasury) run)
    (hordered : (run.map fun i => i.ctx.timestamp).Pairwise (· ≤ ·))
    (hbefore : ∀ j ∈ run, j.ctx.timestamp ≤ i.ctx.timestamp)
    (hmessage : i.message = .subscribe plan) {s' : Billing}
    (haccepted : (run.foldl step (construct owner treasury)).subscribe i.ctx plan = .ok s')
    (hother : ((run.foldl step (construct owner treasury)).users i.ctx.sender).activePlan ≠ plan)
    (hrunning : i.ctx.timestamp <
      ((run.foldl step (construct owner treasury)).users i.ctx.sender).planExpiry) :
    planTime i.ctx.sender plan (construct owner treasury) (run ++ [i])
        (s'.users i.ctx.sender).planExpiry =
      thirtyDays * subscriptions i.ctx.sender plan (construct owner treasury) (run ++ [i]) +
        (((run.foldl step (construct owner treasury)).users i.ctx.sender).planExpiry -
          i.ctx.timestamp) := by
  have hbound := planTime_add_planLeft i.ctx.sender plan hrun hordered hbefore
  rw [planLeft_construct, Nat.zero_add, planTime, subscriptions] at hbound
  have hcarried := planLeft_switch haccepted hrunning
  have hnothing : planLeft i.ctx.sender plan (run.foldl step (construct owner treasury))
      i.ctx.timestamp = 0 := if_neg fun hactive => hother hactive.1
  have hact : act i (run.foldl step (construct owner treasury)) = .ok s' := by
    rw [act, hmessage]
    exact haccepted
  have hstep : (run ++ [i]).foldl step (construct owner treasury) = s' := by
    rw [List.foldl_append]
    exact settle_ok hact
  have hcounts :
      subscribes i.ctx.sender plan (run.foldl step (construct owner treasury)) i = true := by
    rw [subscribes, decide_eq_true ⟨rfl, hmessage⟩, haccepted]
    rfl
  have hspent := @planLeft_spend i.ctx.sender plan s' i.ctx.timestamp _
    (le_planExpiry_of_subscribe haccepted)
  rw [planLeft_expiry, hcarried] at hspent
  rw [planTime, DwellTime.dwell_concat, subscriptions, DwellTime.countSteps_concat, hcounts, hstep,
    Bool.toNat_true, Nat.mul_add, Nat.mul_one]
  omega

end Time

end Billing

open Billing in
/-- In every state of a run, and at every time after it, a user has been on a plan for at most
thirty days a subscription to it, exactly when nobody subscribes to another plan before the old one
ends. -/
theorem plan_time_paid_iff (owner treasury : Bytes20) (run : List BillingInput)
    (hordered : (run.map fun i => i.ctx.timestamp).Pairwise (· ≤ ·)) :
    (∀ done, done <+: run → ∀ user plan stop, (∀ i ∈ done, i.ctx.timestamp ≤ stop) →
      planTime user plan (construct owner treasury) done stop ≤
        thirtyDays * subscriptions user plan (construct owner treasury) done) ↔
      EveryStep step SwitchesExpired (construct owner treasury) run := by
  constructor
  · induction run using List.reverseRecOn with
    | nil => exact fun _ => trivial
    | append_singleton run i ih =>
      intro h
      rw [List.map_append, List.pairwise_append] at hordered
      have hbefore : ∀ j ∈ run, j.ctx.timestamp ≤ i.ctx.timestamp := by
        intro j hj
        exact hordered.2.2 _ (List.mem_map_of_mem hj) _ (List.mem_singleton_self _)
      have hrun := ih hordered.1 fun done hdone =>
        h done (hdone.trans (List.prefix_append run [i]))
      refine everyStep_concat.mpr ⟨hrun, ?_⟩
      intro plan hmessage hok
      by_contra hswitch
      rw [not_or, not_le] at hswitch
      obtain ⟨hother, hrunning⟩ := hswitch
      obtain ⟨s', haccepted⟩ := isOk_iff.mp hok
      have hlast := le_planExpiry_of_subscribe haccepted
      have hbound := h (run ++ [i]) List.prefix_rfl i.ctx.sender plan _ (by
        intro j hj
        rcases List.mem_append.mp hj with hold | hnew
        · exact (hbefore j hold).trans hlast
        · rw [List.mem_singleton.mp hnew]
          exact hlast)
      rw [planTime_switch hrun hordered.1 hbefore hmessage haccepted hother hrunning] at hbound
      omega
  · intro h done hdone user plan stop hstop
    obtain ⟨rest, rfl⟩ := hdone
    rw [List.map_append, List.pairwise_append] at hordered
    have htotal := planTime_add_planLeft user plan (everyStep_append.mp h).1 hordered.1
      hstop
    rw [planLeft_construct, Nat.zero_add] at htotal
    omega

section Sample

def sampleSubscriber : Bytes20 := FixedBytes.replicate 20 1

def sampleBilling : Billing :=
  Billing.construct (FixedBytes.replicate 20 2) (FixedBytes.replicate 20 9)

def day (n : Nat) : Nat := n * 24 * 60 * 60

def sampleSubscribe (n : Nat) (plan : UInt8) : BillingInput :=
  ⟨⟨sampleSubscriber, day n, .moves, 0⟩, .subscribe plan⟩

/-- A plan that is renewed before it ends, and another one when it has ended. -/
def samplePlans : List BillingInput :=
  [sampleSubscribe 1 1, sampleSubscribe 15 1, sampleSubscribe 61 3]

theorem plan_time_paid_samplePlans :
    Billing.planTime sampleSubscriber 1 sampleBilling samplePlans (day 90) ≤
      Billing.thirtyDays * Billing.subscriptions sampleSubscriber 1 sampleBilling samplePlans := by
  have hordered : (samplePlans.map fun i => i.ctx.timestamp).Pairwise (· ≤ ·) := by decide
  have hsteps :
      EveryStep Billing.step Billing.SwitchesExpired sampleBilling samplePlans := by
    refine ⟨?_, ?_, ?_, trivial⟩
    · exact fun _ _ _ => Or.inr (by decide)
    · rintro plan hplan _
      exact Or.inl (BillingCall.subscribe.inj hplan)
    · exact fun _ _ _ => Or.inr (by decide +kernel)
  exact (plan_time_paid_iff (FixedBytes.replicate 20 2) (FixedBytes.replicate 20 9) samplePlans
    hordered).mpr hsteps samplePlans List.prefix_rfl sampleSubscriber 1 (day 90) (by decide)

/-- Thirty days of the Starter plan are turned into thirty more of the Enterprise plan. -/
theorem upgrade_doubles_time :
    ([sampleSubscribe 1 1, sampleSubscribe 1 3].map fun i => i.ctx.timestamp).Pairwise (· ≤ ·) ∧
      Billing.subscriptions sampleSubscriber 3 sampleBilling
        [sampleSubscribe 1 1, sampleSubscribe 1 3] = 1 ∧
      Billing.planTime sampleSubscriber 3 sampleBilling [sampleSubscribe 1 1, sampleSubscribe 1 3]
        (day 61) = 60 * 24 * 60 * 60 := by
  have hcount : Billing.subscriptions sampleSubscriber 3 sampleBilling
      [sampleSubscribe 1 1, sampleSubscribe 1 3] = 1 := by decide +kernel
  refine ⟨by decide, hcount, ?_⟩
  obtain ⟨s', haccepted⟩ : ∃ s', (Billing.step sampleBilling (sampleSubscribe 1 1)).subscribe
      (sampleSubscribe 1 3).ctx 3 = .ok s' := isOk_iff.mp (by decide +kernel)
  have hend : (s'.users (sampleSubscribe 1 3).ctx.sender).planExpiry = day 61 := by
    rw [(Billing.subscribe_ok haccepted).2, Function.update_self]
    decide +kernel
  have hcarried : ((Billing.step sampleBilling (sampleSubscribe 1 1)).users
      (sampleSubscribe 1 3).ctx.sender).planExpiry - (sampleSubscribe 1 3).ctx.timestamp =
        Billing.thirtyDays := by decide +kernel
  have hswitch := @Billing.planTime_switch 3 (FixedBytes.replicate 20 2)
    (FixedBytes.replicate 20 9) [sampleSubscribe 1 1] (sampleSubscribe 1 3)
    ⟨fun _ _ _ => Or.inr (by decide), trivial⟩ (by decide) (by decide) rfl s' haccepted
    (by decide +kernel) (by decide +kernel)
  rw [hend] at hswitch
  refine hswitch.trans ?_
  show Billing.thirtyDays * Billing.subscriptions sampleSubscriber 3 sampleBilling
    [sampleSubscribe 1 1, sampleSubscribe 1 3] + _ = _
  rw [hcount]
  exact congrArg (Billing.thirtyDays * 1 + ·) hcarried

end Sample

end ObscuraNetwork
