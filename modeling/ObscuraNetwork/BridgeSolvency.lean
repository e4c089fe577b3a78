import ObscuraNetwork.BridgeContract
import ObscuraNetwork.Conservation
import Mathlib.Algebra.BigOperators.Group.Finset.Piecewise
import Mathlib.Algebra.Order.BigOperators.Group.Finset

namespace ObscuraNetwork

/-- An accepted deposit: the id it returned and the transfers the token logged in the call. -/
structure Lock where
  depositId : Nat
  transfers : List Transfer
  deriving DecidableEq

/-- An accepted release: the id and the nonce it named and the transfers logged in the call. -/
structure Release where
  depositId : Nat
  withdrawalNonce : Bytes32
  transfers : List Transfer
  deriving DecidableEq

structure History where
  locks : List Lock
  releases : List Release
  deriving DecidableEq

def newTransfers (before after : Ledger) : List Transfer :=
  after.usdc.transfers.drop before.usdc.transfers.length

def History.record (before after : Ledger) (h : History) : BridgeEffect → History
  | .locked depositId => { h with locks := h.locks ++ [⟨depositId, newTransfers before after⟩] }
  | .released depositId withdrawalNonce =>
    { h with releases := h.releases ++ [⟨depositId, withdrawalNonce, newTransfers before after⟩] }
  | .other => h

/-- What the bridge owes and what it has paid, against the token it holds. -/
structure Solvent (bridge : Bytes20) (l : Ledger) (h : History) : Prop where
  backed : ∀ ids : Finset Nat,
    ∑ id ∈ ids with (l.deposits id).status = 1, (l.deposits id).amount ≤ l.usdc.balanceOf bridge
  live : ∀ id, ((l.deposits id).status = 1 ∨ (l.deposits id).status = 2) ↔ id < l.nextDepositId
  lockedOnce : (h.locks.map Lock.depositId).Nodup
  releasedOnce : (h.releases.map Release.depositId).Nodup
  noncesOnce : (h.releases.map Release.withdrawalNonce).Nodup
  exact : ∀ r ∈ h.releases, ∃ lock ∈ h.locks, ∃ sender recipient amount,
    lock.depositId = r.depositId ∧ lock.transfers = [⟨sender, bridge, amount⟩] ∧
      r.transfers = [⟨bridge, recipient, amount⟩]

namespace Erc20

theorem transfer_true {reply : TokenReply} {sender recipient : Bytes20} {amount : Nat}
    {t t' : Erc20} : transfer reply sender recipient amount t = .ok (true, t') ↔
      reply = .moves ∧ amount ≤ t.balanceOf sender ∧ t' = t.move sender recipient amount := by
  cases reply with
  | moves =>
    simp only [transfer, bind_ok, ensure_ok, pure_ok, Prod.mk.injEq, true_and, exists_const]
    exact and_congr_right fun _ => eq_comm
  | returnsFalse => simp [transfer]
  | reverts => simp [transfer]

theorem move_balance_recipient (t : Erc20) {sender recipient : Bytes20} (h : sender ≠ recipient)
    (amount : Nat) :
    (t.move sender recipient amount).balanceOf recipient = t.balanceOf recipient + amount := by
  simp [move, Function.update_of_ne h.symm]

theorem move_balance_other (t : Erc20) {sender recipient account : Bytes20}
    (hsender : account ≠ sender) (hrecipient : account ≠ recipient) (amount : Nat) :
    (t.move sender recipient amount).balanceOf account = t.balanceOf account := by
  simp [move, Function.update_of_ne hsender, Function.update_of_ne hrecipient]

/-- A transfer takes at most its amount from the sender, and nothing when it goes to itself. -/
theorem move_balance_sender (t : Erc20) (sender recipient : Bytes20) (amount : Nat) :
    t.balanceOf sender ≤ (t.move sender recipient amount).balanceOf sender + amount := by
  by_cases h : sender = recipient
  · subst h
    simp [move]
    omega
  · simp [move, Function.update_of_ne h]
    omega

theorem le_move_balance (t : Erc20) {sender recipient account : Bytes20} (h : account ≠ sender)
    (amount : Nat) :
    t.balanceOf account ≤ (t.move sender recipient amount).balanceOf account := by
  by_cases hrecipient : account = recipient
  · subst hrecipient
    rw [t.move_balance_recipient h.symm]
    omega
  · rw [t.move_balance_other h hrecipient]

end Erc20

namespace Ledger

/-- What a call of either version, or a transfer of another account, can do to the ledger. -/
inductive Step (bridge : Bytes20) (l : Ledger) : BridgeEffect → Ledger → Prop
  | locked {sender : Bytes20} {obscuraRecipient : Bytes32} {amount : Nat} {timestamp : UInt64}
      {events : List BridgeEvent} (hsender : sender ≠ bridge) :
      Step bridge l (.locked l.nextDepositId)
        { usdc := l.usdc.move sender bridge amount
          nextDepositId := l.nextDepositId + 1
          deposits := Function.update l.deposits l.nextDepositId
            ⟨sender, obscuraRecipient, amount, timestamp, 1⟩
          usedWithdrawalNonces := l.usedWithdrawalNonces
          events := events }
  | released {depositId : Nat} {recipient : Bytes20} {withdrawalNonce : Bytes32}
      {events : List BridgeEvent} (hnonce : l.usedWithdrawalNonces withdrawalNonce = false)
      (hlocked : (l.deposits depositId).status = 1)
      (hfunds : (l.deposits depositId).amount ≤ l.usdc.balanceOf bridge) :
      Step bridge l (.released depositId withdrawalNonce)
        { usdc := l.usdc.move bridge recipient (l.deposits depositId).amount
          nextDepositId := l.nextDepositId
          deposits := Function.update l.deposits depositId
            { l.deposits depositId with status := 2 }
          usedWithdrawalNonces := Function.update l.usedWithdrawalNonces withdrawalNonce true
          events := events }
  | noted {events : List BridgeEvent} : Step bridge l .other { l with events := events }
  | moved {sender recipient : Bytes20} {amount : Nat} (hsender : sender ≠ bridge) :
      Step bridge l .other { l with usdc := l.usdc.move sender recipient amount }

theorem deposit_step {label : String} {bridge : Bytes20} {ctx : CallContext bridge} {amount : Nat}
    {obscuraRecipient : Bytes32} {l l' : Ledger} {depositId : Nat}
    (h : l.deposit label ctx amount obscuraRecipient = .ok (depositId, l')) :
    Step bridge l (.locked depositId) l' := by
  simp only [deposit, bind_ok, ensure_ok, pure_ok, Prod.exists] at h
  obtain ⟨_, _, _, _, _, _, moved, usdc, htransfer, _, rfl, _, _, h⟩ := h
  obtain ⟨_, _, rfl⟩ := Erc20.transfer_true.mp htransfer
  obtain ⟨rfl, rfl⟩ := Prod.mk.inj h
  exact .locked ctx.notBridge

theorem payOut_step {label : String} {bridge : Bytes20} {ctx : CallContext bridge} {depositId : Nat}
    {recipient : Bytes20} {withdrawalNonce : Bytes32} {l l' : Ledger} (event : BridgeEvent)
    (hnonce : l.usedWithdrawalNonces withdrawalNonce = false)
    (hlocked : (l.deposits depositId).status = 1)
    (h : l.payOut label ctx depositId recipient withdrawalNonce = .ok l') :
    Step bridge l (.released depositId withdrawalNonce) (l'.emit event) := by
  simp only [payOut, bind_ok, ensure_ok, pure_ok, Prod.exists] at h
  obtain ⟨moved, usdc, htransfer, _, rfl, rfl⟩ := h
  obtain ⟨_, hfunds, rfl⟩ := Erc20.transfer_true.mp htransfer
  exact .released hnonce hlocked hfunds

end Ledger

theorem BridgeV1.call_step {bridge : Bytes20} {ctx : CallContext bridge} {message : BridgeV1Call}
    {s s' : BridgeV1} {effect : BridgeEffect} (h : s.call ctx message = .ok (effect, s')) :
    Ledger.Step bridge s.ledger effect s'.ledger := by
  cases message with
  | deposit amount obscuraRecipient =>
    simp only [call, bind_ok, pure_ok, Prod.exists, Prod.mk.injEq] at h
    obtain ⟨depositId, ledger, hdeposit, rfl, rfl⟩ := h
    exact Ledger.deposit_step hdeposit
  | release depositId recipient withdrawalNonce =>
    simp only [call, release, bind_ok, ensure_ok, pure_ok, Prod.mk.injEq] at h
    obtain ⟨_, ⟨_, _, _, hnonce, _, hlocked, ledger, hpay, rfl⟩, rfl, rfl⟩ := h
    exact Ledger.payOut_step _ hnonce hlocked hpay
  | setRelayer newRelayer =>
    simp only [call, setRelayer, bind_ok, ensure_ok, pure_ok, Prod.mk.injEq] at h
    obtain ⟨_, ⟨_, _, rfl⟩, rfl, rfl⟩ := h
    exact .noted

theorem BridgeV2.call_step {keccak256 : Bytes → Bytes32}
    {ecrecover : Bytes32 → UInt8 → Bytes → Bytes → Bytes20} {chainId : Nat} {bridge : Bytes20}
    {ctx : CallContext bridge} {message : BridgeV2Call} {s s' : BridgeV2} {effect : BridgeEffect}
    (h : s.call keccak256 ecrecover chainId ctx message = .ok (effect, s')) :
    Ledger.Step bridge s.ledger effect s'.ledger := by
  cases message with
  | deposit amount obscuraRecipient =>
    simp only [call, bind_ok, pure_ok, Prod.exists, Prod.mk.injEq] at h
    obtain ⟨depositId, ledger, hdeposit, rfl, rfl⟩ := h
    exact Ledger.deposit_step hdeposit
  | releaseMultisig depositId recipient withdrawalNonce signatures =>
    simp only [call, releaseMultisig, bind_ok, ensure_ok, pure_ok, Prod.mk.injEq] at h
    obtain ⟨_, ⟨_, hnonce, _, hlocked, _, _, _, _, seen, _, _, _, ledger, hpay, rfl⟩, rfl, rfl⟩ := h
    exact Ledger.payOut_step _ hnonce hlocked hpay
  | addSigner signer =>
    simp only [call, addSigner, bind_ok, pure_ok, Prod.mk.injEq] at h
    obtain ⟨_, ⟨_, _, _, _, _, _, _, _, rfl⟩, rfl, rfl⟩ := h
    exact .noted
  | removeSigner signer =>
    simp only [call, removeSigner, bind_ok, pure_ok, Prod.mk.injEq] at h
    obtain ⟨_, ⟨_, _, _, _, hremoved⟩, rfl, rfl⟩ := h
    split at hremoved
    next i _ =>
      rw [pure_ok] at hremoved
      rw [← hremoved]
      exact .noted
    next => cases hremoved
  | setThreshold newThreshold =>
    simp only [call, setThreshold, bind_ok, pure_ok, Prod.mk.injEq] at h
    obtain ⟨_, ⟨_, _, _, _, _, _, rfl⟩, rfl, rfl⟩ := h
    exact .noted
  | transferOwnership newOwner =>
    simp only [call, transferOwnership, bind_ok, pure_ok, Prod.mk.injEq] at h
    obtain ⟨_, ⟨_, _, _, _, rfl⟩, rfl, rfl⟩ := h
    show Ledger.Step bridge s.ledger .other { s.ledger with events := s.ledger.events }
    exact .noted

/-- What a bridge still owes for a deposit. -/
def Deposit.owed (d : Deposit) : Nat := if d.status = 1 then d.amount else 0

/-- The contract's mappings against the history of its calls. -/
structure SolvencyInvariant (bridge : Bytes20) (l : Ledger) (h : History) : Prop where
  live : ∀ id, ((l.deposits id).status = 1 ∨ (l.deposits id).status = 2) ↔ id < l.nextDepositId
  lockedIds : ∀ id, id ∈ h.locks.map Lock.depositId ↔ id < l.nextDepositId
  releasedIds : ∀ id, id ∈ h.releases.map Release.depositId ↔ (l.deposits id).status = 2
  usedNonces : ∀ nonce, nonce ∈ h.releases.map Release.withdrawalNonce ↔
    l.usedWithdrawalNonces nonce = true
  lockedOnce : (h.locks.map Lock.depositId).Nodup
  releasedOnce : (h.releases.map Release.depositId).Nodup
  noncesOnce : (h.releases.map Release.withdrawalNonce).Nodup
  lockTransfers : ∀ lock ∈ h.locks, ∃ sender,
    lock.transfers = [⟨sender, bridge, (l.deposits lock.depositId).amount⟩]
  releaseTransfers : ∀ r ∈ h.releases, ∃ recipient,
    r.transfers = [⟨bridge, recipient, (l.deposits r.depositId).amount⟩]
  backed : ∑ id ∈ Finset.range l.nextDepositId, (l.deposits id).owed ≤ l.usdc.balanceOf bridge

section Invariant

variable {bridge : Bytes20} {l : Ledger} {h : History}

theorem SolvencyInvariant.solvent (inv : SolvencyInvariant bridge l h) : Solvent bridge l h where
  backed ids := by
    have howed : ∑ id ∈ ids with (l.deposits id).status = 1, (l.deposits id).amount =
        ∑ id ∈ ids with (l.deposits id).status = 1, (l.deposits id).owed := by
      refine Finset.sum_congr rfl fun id hid => ?_
      rw [Deposit.owed, if_pos (Finset.mem_filter.mp hid).2]
    have hlive : {id ∈ ids | (l.deposits id).status = 1} ⊆ Finset.range l.nextDepositId := by
      intro id hid
      exact Finset.mem_range.mpr ((inv.live id).mp (Or.inl (Finset.mem_filter.mp hid).2))
    have hsum := Finset.sum_le_sum_of_subset (f := fun id => (l.deposits id).owed) hlive
    rw [howed]
    exact hsum.trans inv.backed
  live := inv.live
  lockedOnce := inv.lockedOnce
  releasedOnce := inv.releasedOnce
  noncesOnce := inv.noncesOnce
  exact r hr := by
    obtain ⟨recipient, hpaid⟩ := inv.releaseTransfers r hr
    have hstatus := (inv.releasedIds r.depositId).mp (List.mem_map_of_mem hr)
    have hlive := (inv.live r.depositId).mp (Or.inr hstatus)
    obtain ⟨lock, hlock, hid⟩ := List.mem_map.mp ((inv.lockedIds r.depositId).mpr hlive)
    obtain ⟨sender, htaken⟩ := inv.lockTransfers lock hlock
    rw [hid] at htaken
    exact ⟨lock, hlock, sender, recipient, _, hid, htaken, hpaid⟩

theorem newTransfers_move (sender recipient : Bytes20) (amount : Nat) {l' : Ledger}
    (hl : l'.usdc = l.usdc.move sender recipient amount) :
    newTransfers l l' = [⟨sender, recipient, amount⟩] := by
  rw [newTransfers, hl, Erc20.move, List.drop_left]

section Update

variable (deposits : Nat → Deposit) (n : Nat) (d : Deposit)

theorem status_update (id : Nat) : (Function.update deposits n d id).status =
    if id = n then d.status else (deposits id).status := by
  rw [Function.update_apply, apply_ite Deposit.status]

/-- The debts after the next id is set. -/
theorem owed_locked : ∑ id ∈ Finset.range (n + 1), (Function.update deposits n d id).owed =
    ∑ id ∈ Finset.range n, (deposits id).owed + d.owed := by
  have hold : ∑ id ∈ Finset.range n, (Function.update deposits n d id).owed =
      ∑ id ∈ Finset.range n, (deposits id).owed := by
    refine Finset.sum_congr rfl fun id hid => ?_
    have hlt := Finset.mem_range.mp hid
    rw [Function.update_of_ne (by omega)]
  rw [Finset.sum_range_succ, hold, Function.update_self]

theorem owed_update (id : Nat) : (Function.update deposits n d id).owed =
    Function.update (fun id => (deposits id).owed) n d.owed id :=
  Function.apply_update (fun _ => Deposit.owed) deposits n d id

/-- The debts after an id is set to a deposit that owes nothing. -/
theorem owed_released {size : Nat} (hn : n < size) (hd : d.owed = 0) :
    ∑ id ∈ Finset.range size, (Function.update deposits n d id).owed + (deposits n).owed =
      ∑ id ∈ Finset.range size, (deposits id).owed := by
  have hset := sum_update_entry (fun id => (deposits id).owed) (Finset.mem_range.mpr hn) d.owed
  simp only [← owed_update] at hset
  rw [hd, Nat.add_zero] at hset
  exact hset

end Update

section Record

variable (l l' : Ledger) (h : History) (id : Nat) (nonce : Bytes32)

theorem record_lockedIds : (h.record l l' (.locked id)).locks.map Lock.depositId =
    h.locks.map Lock.depositId ++ [id] := by
  rw [History.record, List.map_append, List.map_singleton]

theorem record_releasedIds : (h.record l l' (.released id nonce)).releases.map Release.depositId =
    h.releases.map Release.depositId ++ [id] := by
  rw [History.record, List.map_append, List.map_singleton]

theorem record_nonces :
    (h.record l l' (.released id nonce)).releases.map Release.withdrawalNonce =
      h.releases.map Release.withdrawalNonce ++ [nonce] := by
  rw [History.record, List.map_append, List.map_singleton]

end Record

/-- The next id is locked with the amount that has come in. -/
theorem locked_invariant {sender : Bytes20} {obscuraRecipient : Bytes32} {amount : Nat}
    {timestamp : UInt64} {l' : Ledger} (inv : SolvencyInvariant bridge l h)
    (hsender : sender ≠ bridge)
    (husdc : l'.usdc = l.usdc.move sender bridge amount)
    (hnext : l'.nextDepositId = l.nextDepositId + 1)
    (hdeposits : l'.deposits = Function.update l.deposits l.nextDepositId
      ⟨sender, obscuraRecipient, amount, timestamp, 1⟩)
    (hused : l'.usedWithdrawalNonces = l.usedWithdrawalNonces) :
    SolvencyInvariant bridge l' (h.record l l' (.locked l.nextDepositId)) := by
  have hfresh : ∀ id, id < l.nextDepositId → l'.deposits id = l.deposits id := by
    intro id hid
    rw [hdeposits, Function.update_of_ne (by omega)]
  have hnewId : l.nextDepositId ∉ h.locks.map Lock.depositId := by
    rw [inv.lockedIds]
    omega
  refine
    { live := ?_, lockedIds := ?_, releasedIds := ?_, usedNonces := ?_, lockedOnce := ?_
      releasedOnce := inv.releasedOnce, noncesOnce := inv.noncesOnce, lockTransfers := ?_
      releaseTransfers := ?_, backed := ?_ }
  · intro id
    rw [hdeposits, status_update, hnext]
    by_cases hid : id = l.nextDepositId
    · rw [if_pos hid]
      exact iff_of_true (Or.inl rfl) (by omega)
    · rw [if_neg hid, inv.live]
      omega
  · intro id
    rw [record_lockedIds, List.mem_append, List.mem_singleton, inv.lockedIds, hnext]
    omega
  · intro id
    show id ∈ h.releases.map Release.depositId ↔ _
    rw [inv.releasedIds, hdeposits, status_update]
    by_cases hid : id = l.nextDepositId
    · have hdead : (l.deposits id).status ≠ 2 := by
        intro htwo
        have hlive := (inv.live id).mp (Or.inr htwo)
        omega
      rw [if_pos hid]
      exact iff_of_false hdead (by decide : (1 : UInt8) ≠ 2)
    · rw [if_neg hid]
  · intro nonce
    rw [hused]
    exact inv.usedNonces nonce
  · rw [record_lockedIds, ← List.concat_eq_append]
    exact inv.lockedOnce.concat hnewId
  · intro lock hlock
    rcases List.mem_append.mp hlock with hold | hlast
    · have hid := (inv.lockedIds lock.depositId).mp (List.mem_map_of_mem hold)
      rw [hfresh _ hid]
      exact inv.lockTransfers lock hold
    · rw [List.mem_singleton.mp hlast]
      refine ⟨sender, ?_⟩
      rw [hdeposits, Function.update_self]
      exact newTransfers_move _ _ _ husdc
  · intro r hr
    have htwo := (inv.releasedIds r.depositId).mp (List.mem_map_of_mem hr)
    rw [hfresh _ ((inv.live _).mp (Or.inr htwo))]
    exact inv.releaseTransfers r hr
  · have howed : Deposit.owed ⟨sender, obscuraRecipient, amount, timestamp, 1⟩ = amount :=
      if_pos rfl
    rw [hnext, hdeposits, owed_locked, howed, husdc, Erc20.move_balance_recipient _ hsender]
    exact Nat.add_le_add_right inv.backed amount

/-- A locked deposit is released: what the bridge owes falls by what it pays. -/
theorem released_invariant {depositId : Nat} {recipient : Bytes20} {withdrawalNonce : Bytes32}
    {l' : Ledger} (inv : SolvencyInvariant bridge l h)
    (hnonce : l.usedWithdrawalNonces withdrawalNonce = false)
    (hlocked : (l.deposits depositId).status = 1)
    (husdc : l'.usdc = l.usdc.move bridge recipient (l.deposits depositId).amount)
    (hnext : l'.nextDepositId = l.nextDepositId)
    (hdeposits : l'.deposits =
      Function.update l.deposits depositId { l.deposits depositId with status := 2 })
    (hused : l'.usedWithdrawalNonces =
      Function.update l.usedWithdrawalNonces withdrawalNonce true) :
    SolvencyInvariant bridge l' (h.record l l' (.released depositId withdrawalNonce)) := by
  have hid : depositId < l.nextDepositId := (inv.live depositId).mp (Or.inl hlocked)
  have hamount : ∀ id, (l'.deposits id).amount = (l.deposits id).amount := by
    intro id
    by_cases heq : id = depositId
    · rw [hdeposits, heq, Function.update_self]
    · rw [hdeposits, Function.update_of_ne heq]
  have hunreleased : depositId ∉ h.releases.map Release.depositId := by
    rw [inv.releasedIds, hlocked]
    decide
  have hunused : withdrawalNonce ∉ h.releases.map Release.withdrawalNonce := by
    rw [inv.usedNonces, hnonce]
    decide
  refine
    { live := ?_, lockedIds := ?_, releasedIds := ?_, usedNonces := ?_
      lockedOnce := inv.lockedOnce, releasedOnce := ?_, noncesOnce := ?_, lockTransfers := ?_
      releaseTransfers := ?_, backed := ?_ }
  · intro id
    rw [hdeposits, status_update, hnext, ← inv.live]
    by_cases heq : id = depositId
    · rw [if_pos heq, heq]
      exact iff_of_true (Or.inr rfl) (Or.inl hlocked)
    · rw [if_neg heq]
  · intro id
    rw [hnext]
    exact inv.lockedIds id
  · intro id
    rw [record_releasedIds, List.mem_append, List.mem_singleton, inv.releasedIds, hdeposits,
      status_update]
    by_cases heq : id = depositId
    · rw [if_pos heq]
      exact iff_of_true (Or.inr heq) rfl
    · rw [if_neg heq]
      exact or_iff_left heq
  · intro nonce
    rw [record_nonces, List.mem_append, List.mem_singleton, inv.usedNonces, hused]
    by_cases heq : nonce = withdrawalNonce
    · rw [heq, Function.update_self]
      exact iff_of_true (Or.inr rfl) rfl
    · rw [Function.update_of_ne heq]
      exact or_iff_left heq
  · rw [record_releasedIds, ← List.concat_eq_append]
    exact inv.releasedOnce.concat hunreleased
  · rw [record_nonces, ← List.concat_eq_append]
    exact inv.noncesOnce.concat hunused
  · intro lock hlock
    rw [hamount]
    exact inv.lockTransfers lock hlock
  · intro r hr
    rw [hamount]
    rcases List.mem_append.mp hr with hold | hlast
    · exact inv.releaseTransfers r hold
    · rw [List.mem_singleton.mp hlast]
      exact ⟨recipient, newTransfers_move _ _ _ husdc⟩
  · have howed : (l.deposits depositId).owed = (l.deposits depositId).amount := if_pos hlocked
    have hsum := owed_released l.deposits depositId { l.deposits depositId with status := 2 } hid
      (if_neg (by decide : (2 : UInt8) ≠ 1))
    have hbefore := inv.backed
    have hbalance := l.usdc.move_balance_sender bridge recipient (l.deposits depositId).amount
    rw [hnext, hdeposits, husdc]
    omega

/-- The token grows for the bridge, or the events change: nothing that is owed does. -/
theorem other_invariant {l' : Ledger} (inv : SolvencyInvariant bridge l h)
    (husdc : l.usdc.balanceOf bridge ≤ l'.usdc.balanceOf bridge)
    (hnext : l'.nextDepositId = l.nextDepositId) (hdeposits : l'.deposits = l.deposits)
    (hused : l'.usedWithdrawalNonces = l.usedWithdrawalNonces) : SolvencyInvariant bridge l' h where
  live := by rw [hnext, hdeposits]; exact inv.live
  lockedIds := by rw [hnext]; exact inv.lockedIds
  releasedIds := by rw [hdeposits]; exact inv.releasedIds
  usedNonces := by rw [hused]; exact inv.usedNonces
  lockedOnce := inv.lockedOnce
  releasedOnce := inv.releasedOnce
  noncesOnce := inv.noncesOnce
  lockTransfers := by rw [hdeposits]; exact inv.lockTransfers
  releaseTransfers := by rw [hdeposits]; exact inv.releaseTransfers
  backed := by
    rw [hnext, hdeposits]
    exact inv.backed.trans husdc

theorem step_invariant {l' : Ledger} {effect : BridgeEffect} (inv : SolvencyInvariant bridge l h)
    (hstep : Ledger.Step bridge l effect l') :
    SolvencyInvariant bridge l' (h.record l l' effect) := by
  cases hstep with
  | locked hsender => exact locked_invariant inv hsender rfl rfl rfl rfl
  | released hnonce hlocked _ => exact released_invariant inv hnonce hlocked rfl rfl rfl rfl
  | noted => exact other_invariant inv le_rfl rfl rfl rfl
  | moved hsender =>
    exact other_invariant inv (l.usdc.le_move_balance hsender.symm _) rfl rfl rfl

end Invariant

/-- A ledger before the first call, whatever the token already holds. -/
def Ledger.initial (usdc : Erc20) : Ledger where
  usdc := usdc
  nextDepositId := 0
  deposits := fun _ => Deposit.empty
  usedWithdrawalNonces := fun _ => false
  events := []

theorem initial_invariant (bridge : Bytes20) (usdc : Erc20) :
    SolvencyInvariant bridge (Ledger.initial usdc) ⟨[], []⟩ where
  live _ := by simp [Ledger.initial, Deposit.empty]
  lockedIds _ := by simp [Ledger.initial]
  releasedIds _ := by simp [Ledger.initial, Deposit.empty]
  usedNonces _ := by simp [Ledger.initial]
  lockedOnce := List.nodup_nil
  releasedOnce := List.nodup_nil
  noncesOnce := List.nodup_nil
  lockTransfers := by simp
  releaseTransfers := by simp
  backed := Nat.zero_le _

/-- A call of the contract, or a transfer of another account's tokens. -/
inductive BridgeAction (bridge : Bytes20) (Message : Type) where
  | call (ctx : CallContext bridge) (message : Message)
  | usdcTransfer (sender : Bytes20) (notBridge : sender ≠ bridge) (recipient : Bytes20)
      (amount : Nat)

def Ledger.usdcTransfer (sender recipient : Bytes20) (amount : Nat) (l : Ledger) :
    Outcome Ledger := do
  let (_, usdc) ← l.usdc.transfer .moves sender recipient amount
  pure { l with usdc := usdc }

theorem Ledger.usdcTransfer_step {bridge sender recipient : Bytes20} {amount : Nat} {l l' : Ledger}
    (hsender : sender ≠ bridge) (h : l.usdcTransfer sender recipient amount = .ok l') :
    Step bridge l .other l' := by
  simp only [usdcTransfer, Erc20.transfer, bind_ok, ensure_ok, pure_ok] at h
  obtain ⟨_, ⟨_, _, rfl⟩, rfl⟩ := h
  exact .moved hsender

/-- A contract with what its accepted calls have done. -/
structure Audited (σ : Type) where
  contract : σ
  history : History

section Runs

variable {σ ι : Type}

/-- Take an action and write down its effect. -/
def audit (ledger : σ → Ledger) (act : ι → σ → Outcome (BridgeEffect × σ)) (i : ι) (a : Audited σ) :
    Outcome (Audited σ) := do
  let (effect, s) ← act i a.contract
  pure ⟨s, a.history.record (ledger a.contract) (ledger s) effect⟩

/-- Every sequence of actions, each reverted as a whole when it fails. -/
def auditAll (ledger : σ → Ledger) (act : ι → σ → Outcome (BridgeEffect × σ)) (s : σ)
    (actions : List ι) : Audited σ :=
  settleAll (audit ledger act) ⟨s, ⟨[], []⟩⟩ actions

theorem auditAll_invariant {bridge : Bytes20} {ledger : σ → Ledger}
    {act : ι → σ → Outcome (BridgeEffect × σ)}
    (hact : ∀ i s effect s', act i s = .ok (effect, s') →
      Ledger.Step bridge (ledger s) effect (ledger s')) {s : σ}
    (hstart : SolvencyInvariant bridge (ledger s) ⟨[], []⟩) (actions : List ι) :
    SolvencyInvariant bridge (ledger (auditAll ledger act s actions).contract)
      (auditAll ledger act s actions).history := by
  refine run_invariant
    (P := fun (a : Audited σ) _ => SolvencyInvariant bridge (ledger a.contract) a.history)
    hstart ?_ actions
  intro a _ i a' inv hstep
  simp only [audit, bind_ok, pure_ok, Prod.exists] at hstep
  obtain ⟨effect, s', haction, rfl⟩ := hstep
  exact step_invariant inv (hact i a.contract effect s' haction)

end Runs

namespace BridgeV1

variable {bridge : Bytes20}

def act : BridgeAction bridge BridgeV1Call → BridgeV1 → Outcome (BridgeEffect × BridgeV1)
  | .call ctx message, s => s.call ctx message
  | .usdcTransfer sender _ recipient amount, s => do
    let ledger ← s.ledger.usdcTransfer sender recipient amount
    pure (.other, { s with ledger := ledger })

def construct (owner relayer : Bytes20) (ledger : Ledger) : BridgeV1 := ⟨owner, relayer, ledger⟩

theorem act_step {action : BridgeAction bridge BridgeV1Call} {s s' : BridgeV1}
    {effect : BridgeEffect} (h : act action s = .ok (effect, s')) :
    Ledger.Step bridge s.ledger effect s'.ledger := by
  cases action with
  | call ctx message => exact call_step h
  | usdcTransfer sender hsender recipient amount =>
    simp only [act, bind_ok, pure_ok, Prod.mk.injEq] at h
    obtain ⟨ledger, hledger, rfl, rfl⟩ := h
    exact Ledger.usdcTransfer_step hsender hledger

end BridgeV1

namespace BridgeV2

variable {keccak256 : Bytes → Bytes32} {ecrecover : Bytes32 → UInt8 → Bytes → Bytes → Bytes20}
  {chainId : Nat} {bridge : Bytes20}

variable (keccak256 ecrecover chainId) in
def act : BridgeAction bridge BridgeV2Call → BridgeV2 → Outcome (BridgeEffect × BridgeV2)
  | .call ctx message, s => s.call keccak256 ecrecover chainId ctx message
  | .usdcTransfer sender _ recipient amount, s => do
    let ledger ← s.ledger.usdcTransfer sender recipient amount
    pure (.other, { s with ledger := ledger })

theorem act_step {action : BridgeAction bridge BridgeV2Call} {s s' : BridgeV2}
    {effect : BridgeEffect} (h : act keccak256 ecrecover chainId action s = .ok (effect, s')) :
    Ledger.Step bridge s.ledger effect s'.ledger := by
  cases action with
  | call ctx message => exact call_step h
  | usdcTransfer sender hsender recipient amount =>
    simp only [act, bind_ok, pure_ok, Prod.mk.injEq] at h
    obtain ⟨ledger, hledger, rfl, rfl⟩ := h
    exact Ledger.usdcTransfer_step hsender hledger

theorem construct_ledger {owner : Bytes20} {signers : List Bytes20} {threshold : Nat}
    {ledger : Ledger} {s : BridgeV2} (h : construct owner signers threshold ledger = .ok s) :
    s.ledger = ledger := by
  simp only [construct, bind_ok, ensure_ok, pure_ok] at h
  obtain ⟨_, _, _, _, _, _, _, _, rfl⟩ := h
  rfl

end BridgeV2

/-- Both versions stay solvent, release every deposit and use every nonce at most once, and have a
status on exactly the ids handed out, after every sequence of calls and transfers. -/
theorem bridge_contracts_solvent (bridge : Bytes20) (usdc : Erc20) (owner : Bytes20) :
    (∀ (relayer : Bytes20) (actions : List (BridgeAction bridge BridgeV1Call)),
      let final := auditAll BridgeV1.ledger BridgeV1.act
        (BridgeV1.construct owner relayer (Ledger.initial usdc)) actions
      Solvent bridge final.contract.ledger final.history) ∧
    ∀ (keccak256 : Bytes → Bytes32) (ecrecover : Bytes32 → UInt8 → Bytes → Bytes → Bytes20)
      (chainId : Nat) (signers : List Bytes20) (threshold : Nat) (deployed : BridgeV2),
      BridgeV2.construct owner signers threshold (Ledger.initial usdc) = .ok deployed →
      ∀ actions : List (BridgeAction bridge BridgeV2Call),
        let final := auditAll BridgeV2.ledger (BridgeV2.act keccak256 ecrecover chainId) deployed
          actions
        Solvent bridge final.contract.ledger final.history := by
  have hstart := initial_invariant bridge usdc
  constructor
  · intro relayer actions final
    have hconstructed : SolvencyInvariant bridge
        (BridgeV1.construct owner relayer (Ledger.initial usdc)).ledger ⟨[], []⟩ := hstart
    have inv : SolvencyInvariant bridge final.contract.ledger final.history :=
      auditAll_invariant (fun _ _ _ _ => BridgeV1.act_step) hconstructed actions
    exact inv.solvent
  · intro keccak256 ecrecover chainId signers threshold deployed hdeployed actions final
    rw [← BridgeV2.construct_ledger hdeployed] at hstart
    have inv : SolvencyInvariant bridge final.contract.ledger final.history :=
      auditAll_invariant (fun _ _ _ _ => BridgeV2.act_step) hstart actions
    exact inv.solvent

section Sample

def sampleBridge : Bytes20 := FixedBytes.replicate 20 0xbb

def sampleUser : Bytes20 := FixedBytes.replicate 20 1

def sampleOwner : Bytes20 := FixedBytes.replicate 20 2

/-- A token in which every account holds five USDC. -/
def sampleUsdc : Erc20 := ⟨fun _ => 5000000, []⟩

def sampleCtx (usdc : TokenReply) : CallContext sampleBridge := ⟨sampleUser, by decide, 1, usdc⟩

/-- A deposit, the release of it to the bridge itself, and the release again. -/
def sampleActions : List (BridgeAction sampleBridge BridgeV1Call) :=
  [.call (sampleCtx .moves) (.deposit 2000000 (FixedBytes.replicate 32 7)),
    .call (sampleCtx .returnsFalse) (.deposit 2000000 (FixedBytes.replicate 32 7)),
    .call (sampleCtx .moves) (.release 0 sampleBridge (FixedBytes.replicate 32 1)),
    .call (sampleCtx .moves) (.release 0 sampleUser (FixedBytes.replicate 32 2))]

example : (auditAll BridgeV1.ledger BridgeV1.act
    (BridgeV1.construct sampleOwner sampleUser (Ledger.initial sampleUsdc))
      sampleActions).history =
    ⟨[⟨0, [⟨sampleUser, sampleBridge, 2000000⟩]⟩],
      [⟨0, FixedBytes.replicate 32 1, [⟨sampleBridge, sampleBridge, 2000000⟩]⟩]⟩ := by
  decide +kernel

/-- The relayers with the private keys `0xa1`, `0xa2` and `0xa3`. -/
def relayer1 : Bytes20 := ⟨toBeBytes 20 0xd2431ca38735c2fd438e2caa23f094191d89675b, by simp⟩

def relayer2 : Bytes20 := ⟨toBeBytes 20 0x612b7be154a64292aae070aaa86fcd66ba218071, by simp⟩

def relayer3 : Bytes20 := ⟨toBeBytes 20 0x681ce2f439fdc80e70c1eea8b8a085dfb976d32a, by simp⟩

def sampleSigners : List Bytes20 := [relayer1, relayer2, relayer3]

def sampleDeployed : BridgeV2 := ⟨sampleOwner, 2, sampleSigners, Ledger.initial sampleUsdc⟩

/-- A deposit and a release whose two signatures are zero bytes: no address signs with those. -/
def sampleForgery : List (BridgeAction sampleBridge BridgeV2Call) :=
  [.call (sampleCtx .moves) (.deposit 2000000 (FixedBytes.replicate 32 7)),
    .call (sampleCtx .moves) (.releaseMultisig 0 sampleUser (FixedBytes.replicate 32 1)
      [List.replicate 65 0, List.replicate 65 0])]

theorem bridge_contracts_solvent_forgery (keccak256 : Bytes → Bytes32) :
    Solvent sampleBridge
      (auditAll BridgeV2.ledger (BridgeV2.act keccak256 (fun _ _ _ _ => zeroAddress) 11155111)
        sampleDeployed sampleForgery).contract.ledger
      (auditAll BridgeV2.ledger (BridgeV2.act keccak256 (fun _ _ _ _ => zeroAddress) 11155111)
        sampleDeployed sampleForgery).history := by
  have hdeployed : BridgeV2.construct sampleOwner sampleSigners 2 (Ledger.initial sampleUsdc) =
      .ok sampleDeployed := rfl
  exact (bridge_contracts_solvent sampleBridge sampleUsdc sampleOwner).2 keccak256
    (fun _ _ _ _ => zeroAddress) 11155111 sampleSigners 2 sampleDeployed hdeployed sampleForgery

end Sample

end ObscuraNetwork
