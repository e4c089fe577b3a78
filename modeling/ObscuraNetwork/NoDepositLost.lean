import ObscuraNetwork.AutoRelayer

namespace ObscuraNetwork

namespace AutoRelayer

/-- A turn that loses no deposit: a claim that fails with "nonce used" is for a deposit that has
been accepted, and a start without a saved `lastBlock` passes only accepted deposits. -/
def careful (events : List DepositLog) (w : RelayWorld) : Turn → Bool
  | .answer (.error message) =>
    match w.task with
    | .claiming _ _ call =>
      !includes message "nonce used" || isAccepted w.accepted call.request.depositId
    | _ => true
  | .block (some latest) =>
    match w.task, w.initial with
    | .firstBlock _, some first => events.all fun log =>
      !decide (first < log.blockNumber ∧ log.blockNumber ≤ latest - 50) ||
        isAccepted w.accepted log.depositId
    | _, _ => true
  | _ => true

/-- A state has lost nothing: what it calls claimed has been accepted, and every deposit after the
initial block and up to `lastBlock` has been accepted or waits for a retry. -/
structure Kept (events : List DepositLog) (accepted : List ClaimRequest) (initial : Option Int)
    (s : RelayState) : Prop where
  claimed : ∀ id ∈ s.claimed, isAccepted accepted id = true
  covered : ∀ log ∈ events, ∀ first, initial = some first → first < log.blockNumber →
    log.blockNumber ≤ s.lastBlock →
    isAccepted accepted log.depositId = true ∨ ∃ p ∈ s.pending, p.depositId = log.depositId

/-- The deposits of the blocks of a scan are still to come, accepted or in the retry queue. -/
def Ahead (events : List DepositLog) (accepted : List ClaimRequest) (s : RelayState)
    (rest : List DepositLog) (toBlock : Int) : Prop :=
  ∀ log ∈ events, s.lastBlock < log.blockNumber → log.blockNumber ≤ toBlock →
    log ∈ rest ∨ isAccepted accepted log.depositId = true ∨
      ∃ p ∈ s.pending, p.depositId = log.depositId

/-- The entries of the retry queue are still to come, failed again or accepted. -/
def Queued (accepted : List ClaimRequest) (s : RelayState) (todo stillPending : List Pending) :
    Prop :=
  ∀ p ∈ s.pending, p ∈ todo ∨ p ∈ stillPending ∨ isAccepted accepted p.depositId = true

def CallSound (accepted : List ClaimRequest) (depositId : Nat) (call : ClaimCall) : Prop :=
  call.request.depositId = depositId ∧
    (call.included = true → isAccepted accepted depositId = true)

def PurposeSound (events : List DepositLog) (accepted : List ClaimRequest) (s : RelayState)
    (call : ClaimCall) : Purpose → Prop
  | .retry p todo stillPending =>
    Queued accepted s (p :: todo) stillPending ∧ CallSound accepted p.depositId call
  | .scan log rest toBlock =>
    Ahead events accepted s (log :: rest) toBlock ∧ CallSound accepted log.depositId call

def TaskSound (events : List DepositLog) (w : RelayWorld) : MainTask → Prop
  | .stopped => True
  | .firstBlock s => s = loadState w.disk ∧ s.lastBlock = 0
  | .top s => Kept events w.accepted w.initial s
  | .retrying s todo stillPending =>
    Kept events w.accepted w.initial s ∧ Queued w.accepted s todo stillPending
  | .latestBlock s => Kept events w.accepted w.initial s
  | .logs s fromBlock _ =>
    Kept events w.accepted w.initial s ∧ fromBlock = s.lastBlock + 1
  | .scanning s rest toBlock =>
    Kept events w.accepted w.initial s ∧ Ahead events w.accepted s rest toBlock
  | .claiming s purpose call =>
    Kept events w.accepted w.initial s ∧ PurposeSound events w.accepted s call purpose
  | .sleeping s => Kept events w.accepted w.initial s

/-- The file and the loop's state have lost nothing. -/
structure RelayInvariant (events : List DepositLog) (w : RelayWorld) : Prop where
  disk : ∀ s, w.disk = .saved s → Kept events w.accepted w.initial s
  task : TaskSound events w w.task

section Steps

variable {events : List DepositLog} {w w' : RelayWorld} {accepted accepted' : List ClaimRequest}
  {initial : Option Int} {s : RelayState}

theorem isAccepted_cons {request : ClaimRequest} {id : Nat} (h : isAccepted accepted id = true) :
    isAccepted (request :: accepted) id = true := by
  simp only [isAccepted, List.any_cons, Bool.or_eq_true] at h ⊢
  exact Or.inr h

theorem isAccepted_self (request : ClaimRequest) (accepted : List ClaimRequest) :
    isAccepted (request :: accepted) request.depositId = true := by
  simp [isAccepted]

section Monotone

variable (hmore : ∀ id, isAccepted accepted id = true → isAccepted accepted' id = true)

include hmore

theorem Kept.mono (h : Kept events accepted initial s) : Kept events accepted' initial s where
  claimed id hid := hmore id (h.claimed id hid)
  covered log hlog first hfirst hafter hbelow :=
    (h.covered log hlog first hfirst hafter hbelow).imp_left (hmore _)

theorem Ahead.mono {rest : List DepositLog} {toBlock : Int}
    (h : Ahead events accepted s rest toBlock) : Ahead events accepted' s rest toBlock :=
  fun log hlog hafter hbelow => (h log hlog hafter hbelow).imp_right fun h => h.imp_left (hmore _)

theorem Queued.mono {todo stillPending : List Pending} (h : Queued accepted s todo stillPending) :
    Queued accepted' s todo stillPending :=
  fun p hp => (h p hp).imp_right fun h => h.imp_right (hmore _)

theorem PurposeSound.mono {purpose : Purpose} {call : ClaimCall}
    (h : PurposeSound events accepted s call purpose) :
    PurposeSound events accepted' s call purpose := by
  cases purpose with
  | retry p todo stillPending =>
    obtain ⟨hqueued, hcall⟩ := h
    exact ⟨hqueued.mono hmore, hcall.1, fun hin => hmore _ (hcall.2 hin)⟩
  | scan log rest toBlock =>
    obtain ⟨hahead, hcall⟩ := h
    exact ⟨hahead.mono hmore, hcall.1, fun hin => hmore _ (hcall.2 hin)⟩

end Monotone

theorem Kept.claim {id : Nat} (h : Kept events accepted initial s)
    (hid : isAccepted accepted id = true) : Kept events accepted initial (s.claim id) where
  claimed id' hid' := by
    rcases List.mem_append.mp hid' with hold | hnew
    · exact h.claimed id' hold
    · rw [List.mem_singleton.mp hnew]
      exact hid
  covered := h.covered

theorem mem_queue {p q : Pending} : q ∈ (s.queue p).pending ↔ q ∈ s.pending ∨ q = p := by
  show q ∈ s.pending ++ [p] ↔ _
  rw [List.mem_append, List.mem_singleton]

theorem waits_queue {p : Pending} {id : Nat} (h : ∃ q ∈ s.pending, q.depositId = id) :
    ∃ q ∈ (s.queue p).pending, q.depositId = id := by
  obtain ⟨q, hq, hid⟩ := h
  exact ⟨q, mem_queue.mpr (Or.inl hq), hid⟩

theorem Kept.queue {p : Pending} (h : Kept events accepted initial s) :
    Kept events accepted initial (s.queue p) where
  claimed := h.claimed
  covered log hlog first hfirst hafter hbelow :=
    (h.covered log hlog first hfirst hafter hbelow).imp_right waits_queue

/-- A log of the scan that is accepted or has been queued is no longer to come. -/
theorem Ahead.next {s' : RelayState} {log : DepositLog} {rest : List DepositLog} {toBlock : Int}
    (h : Ahead events accepted s (log :: rest) toBlock) (hblock : s'.lastBlock = s.lastBlock)
    (hpending : ∀ p ∈ s.pending, p ∈ s'.pending)
    (hlog : isAccepted accepted log.depositId = true ∨
      ∃ p ∈ s'.pending, p.depositId = log.depositId) :
    Ahead events accepted s' rest toBlock := by
  intro log' hmem hafter hbelow
  rw [hblock] at hafter
  rcases h log' hmem hafter hbelow with hahead | haccepted | ⟨p, hp, hid⟩
  · rcases List.mem_cons.mp hahead with rfl | hrest
    · exact Or.inr hlog
    · exact Or.inl hrest
  · exact Or.inr (Or.inl haccepted)
  · exact Or.inr (Or.inr ⟨p, hpending p hp, hid⟩)

/-- At the end of a scan nothing in its blocks is left. -/
theorem Kept.advance {toBlock : Int} (h : Kept events accepted initial s)
    (hahead : Ahead events accepted s [] toBlock) :
    Kept events accepted initial { s with lastBlock := toBlock } where
  claimed := h.claimed
  covered log hlog first hfirst hafter hbelow := by
    by_cases hold : log.blockNumber ≤ s.lastBlock
    · exact h.covered log hlog first hfirst hafter hold
    · exact (hahead log hlog (by omega) hbelow).resolve_left (by simp)

/-- At the end of the retries the queue holds what failed again. -/
theorem Kept.requeue {stillPending : List Pending} (h : Kept events accepted initial s)
    (hqueued : Queued accepted s [] stillPending) :
    Kept events accepted initial { s with pendingRetry := some stillPending } where
  claimed := h.claimed
  covered log hlog first hfirst hafter hbelow := by
    rcases h.covered log hlog first hfirst hafter hbelow with haccepted | ⟨p, hp, hid⟩
    · exact Or.inl haccepted
    · rcases hqueued p hp with hnone | hstill | haccepted
      · cases hnone
      · exact Or.inr ⟨p, hstill, hid⟩
      · exact Or.inl (hid ▸ haccepted)

/-- A careful answer that counts as processed is for an accepted deposit. -/
theorem processed_accepted {purpose : Purpose} {call : ClaimCall} {reply : ClaimReply} {id : Nat}
    (htask : w.task = .claiming s purpose call) (hcall : CallSound w.accepted id call)
    (hanswer : canAnswer w call reply = true) (hcareful : careful events w (.answer reply) = true)
    (hprocessed : reply.processed = true) : isAccepted w.accepted id = true := by
  obtain ⟨hid, hincluded⟩ := hcall
  cases reply with
  | ok => exact hincluded hanswer
  | error message =>
    simp only [canAnswer, Bool.and_eq_true, Bool.or_eq_true, Bool.not_eq_true', hid] at hanswer
    simp only [careful, htask, Bool.or_eq_true, Bool.not_eq_true', hid] at hcareful
    rcases Bool.or_eq_true_iff.mp hprocessed with hclaimed | hnonce
    · exact hanswer.1.resolve_left (by simp [hclaimed])
    · exact hcareful.resolve_left (by simp [hnonce])

theorem answered_invariant {purpose : Purpose} {call : ClaimCall} {reply : ClaimReply}
    (inv : RelayInvariant events w) (htask : w.task = .claiming s purpose call)
    (hanswer : canAnswer w call reply = true)
    (hcareful : careful events w (.answer reply) = true) :
    RelayInvariant events (answered w s reply purpose) := by
  obtain ⟨hkept, hpurpose⟩ : TaskSound events w (.claiming s purpose call) := htask ▸ inv.task
  cases purpose with
  | retry p todo stillPending =>
    obtain ⟨hqueued, hcall⟩ := hpurpose
    rw [answered]
    split
    next hprocessed =>
      have haccepted := processed_accepted htask hcall hanswer hcareful hprocessed
      refine ⟨inv.disk, hkept.claim haccepted, fun q hq => ?_⟩
      rcases hqueued q hq with hmem | hstill | hold
      · rcases List.mem_cons.mp hmem with rfl | htodo
        · exact Or.inr (Or.inr haccepted)
        · exact Or.inl htodo
      · exact Or.inr (Or.inl hstill)
      · exact Or.inr (Or.inr hold)
    next =>
      refine ⟨inv.disk, hkept, fun q hq => ?_⟩
      rcases hqueued q hq with hmem | hstill | hold
      · rcases List.mem_cons.mp hmem with rfl | htodo
        · exact Or.inr (Or.inl (by simp))
        · exact Or.inl htodo
      · exact Or.inr (Or.inl (List.mem_append_left _ hstill))
      · exact Or.inr (Or.inr hold)
  | scan log rest toBlock =>
    obtain ⟨hahead, hcall⟩ := hpurpose
    rw [answered]
    split
    next hprocessed =>
      have haccepted := processed_accepted htask hcall hanswer hcareful hprocessed
      have hclaimed : Kept events w.accepted w.initial (s.claim log.depositId) :=
        hkept.claim haccepted
      refine ⟨?_, hclaimed, hahead.next rfl (fun _ hp => hp) (Or.inl haccepted)⟩
      intro saved hsaved
      cases hsaved
      exact hclaimed
    next =>
      have hwaits : ∃ p ∈ (s.queue log.pending).pending, p.depositId = log.depositId :=
        ⟨log.pending, mem_queue.mpr (Or.inr rfl), rfl⟩
      have hqueue : Kept events w.accepted w.initial (s.queue log.pending) := hkept.queue
      refine ⟨?_, hqueue, hahead.next rfl (fun p hp => mem_queue.mpr (Or.inl hp)) (Or.inr hwaits)⟩
      intro saved hsaved
      cases hsaved
      exact hqueue

/-- A start from a saved `lastBlock`, or one that passes accepted deposits only. -/
theorem enter_invariant (inv : RelayInvariant events w)
    (hclaimed : ∀ id ∈ s.claimed, isAccepted w.accepted id = true)
    (hdisk : ∀ saved, w.disk = .saved saved → saved.lastBlock = 0 ∨ saved = s)
    (hcovered : ∀ log ∈ events, ∀ first, w.initial = some first → first < log.blockNumber →
      log.blockNumber ≤ s.lastBlock →
      isAccepted w.accepted log.depositId = true ∨ ∃ p ∈ s.pending, p.depositId = log.depositId) :
    RelayInvariant events (w.enter s) := by
  have hkept : Kept events w.accepted (some (w.initial.getD s.lastBlock)) s := by
    refine ⟨hclaimed, fun log hlog first hfirst hafter hbelow => ?_⟩
    cases hinitial : w.initial with
    | none =>
      rw [hinitial, Option.getD_none] at hfirst
      cases hfirst
      omega
    | some old =>
      rw [hinitial, Option.getD_some] at hfirst
      cases hfirst
      exact hcovered log hlog first hinitial hafter hbelow
  refine ⟨fun saved hsaved => ?_, hkept⟩
  rcases hdisk saved hsaved with hzero | rfl
  · refine ⟨(inv.disk saved hsaved).claimed, fun log _ first _ _ hbelow => ?_⟩
    have hpositive := log.afterGenesis
    omega
  · exact hkept

theorem loadState_claimed (inv : RelayInvariant events w) :
    ∀ id ∈ (loadState w.disk).claimed, isAccepted w.accepted id = true := by
  cases hdisk : w.disk with
  | saved s => exact (inv.disk s hdisk).claimed
  | absent => simp [loadState]
  | unreadable => simp [loadState]

theorem start_invariant (inv : RelayInvariant events w) {loaded : RelayState}
    (hloaded : loadState w.disk = loaded) (hblock : loaded.lastBlock ≠ 0) :
    RelayInvariant events (w.enter loaded) := by
  have hdisk : w.disk = .saved loaded := by
    cases hd : w.disk with
    | saved s => exact congrArg Disk.saved (by rw [← hloaded, hd, loadState])
    | absent =>
      rw [hd] at hloaded
      exact absurd (congrArg RelayState.lastBlock hloaded).symm hblock
    | unreadable =>
      rw [hd] at hloaded
      exact absurd (congrArg RelayState.lastBlock hloaded).symm hblock
  have hkept := inv.disk loaded hdisk
  refine enter_invariant inv hkept.claimed (fun saved hsaved => ?_) hkept.covered
  exact Or.inr (Disk.saved.inj (hsaved.symm.trans hdisk))

/-- Without a saved `lastBlock` the start passes accepted deposits only. -/
theorem firstBlock_invariant {latest : Int} (inv : RelayInvariant events w)
    (htask : w.task = .firstBlock s)
    (hcareful : careful events w (.block (some latest)) = true) :
    RelayInvariant events (w.enter { s with lastBlock := latest - 50 }) := by
  obtain ⟨hs, hzero⟩ : TaskSound events w (.firstBlock s) := htask ▸ inv.task
  refine enter_invariant inv ?_ (fun saved hsaved => ?_) ?_
  · exact hs ▸ loadState_claimed inv
  · have hsame : s = saved := hs.trans (congrArg loadState hsaved)
    exact Or.inl (hsame ▸ hzero)
  · intro log hlog first hfirst hafter hbelow
    simp only [careful, htask, hfirst, List.all_eq_true, Bool.or_eq_true, Bool.not_eq_true',
      decide_eq_false_iff_not] at hcareful
    exact Or.inl ((hcareful log hlog).resolve_left fun hnot => hnot ⟨hafter, hbelow⟩)

theorem mem_logsBetween {fromBlock toBlock : Int} {logs : List DepositLog} {log : DepositLog}
    (h : logsBetween events fromBlock toBlock = some logs) (hlog : log ∈ events)
    (hfrom : fromBlock ≤ log.blockNumber) (hto : log.blockNumber ≤ toBlock) : log ∈ logs := by
  rw [logsBetween] at h
  split at h
  next => cases h
  next =>
    cases h
    exact List.mem_filter.mpr ⟨hlog, decide_eq_true ⟨hfrom, hto⟩⟩

theorem logs_invariant {fromBlock toBlock : Int} {answers : Bool} (inv : RelayInvariant events w)
    (htask : w.task = .logs s fromBlock toBlock)
    (hstep : mainStep events w (.logs s fromBlock toBlock) (.logs answers) = some w') :
    RelayInvariant events w' := by
  obtain ⟨hkept, hfrom⟩ : TaskSound events w (.logs s fromBlock toBlock) := htask ▸ inv.task
  simp only [mainStep] at hstep
  split at hstep
  next logs hlogs =>
    cases hstep
    refine ⟨inv.disk, hkept, fun log hlog hafter hbelow => Or.inl ?_⟩
    exact mem_logsBetween hlogs hlog (by omega) hbelow
  next =>
    cases hstep
    exact ⟨inv.disk, hkept⟩

theorem scanning_invariant {log : DepositLog} {rest : List DepositLog} {toBlock : Int}
    (inv : RelayInvariant events w) (htask : w.task = .scanning s (log :: rest) toBlock)
    (hstep : mainStep events w (.scanning s (log :: rest) toBlock) .proceed = some w') :
    RelayInvariant events w' := by
  obtain ⟨hkept, hahead⟩ : TaskSound events w (.scanning s (log :: rest) toBlock) :=
    htask ▸ inv.task
  rw [mainStep] at hstep
  split at hstep
  next hclaimed =>
    cases hstep
    have haccepted := hkept.claimed _ (List.contains_iff_mem.mp hclaimed)
    exact ⟨inv.disk, hkept, hahead.next rfl (fun _ hp => hp) (Or.inl haccepted)⟩
  next =>
    split at hstep
    next hpending =>
      cases hstep
      obtain ⟨p, hp, hid⟩ := List.any_eq_true.mp hpending
      have hwaits : ∃ p ∈ s.pending, p.depositId = log.depositId := ⟨p, hp, of_decide_eq_true hid⟩
      exact ⟨inv.disk, hkept, hahead.next rfl (fun _ hp => hp) (Or.inr hwaits)⟩
    next =>
      cases hstep
      exact ⟨inv.disk, hkept, hahead, rfl, by simp [newCall]⟩

/-- A call keeps what is known of it when its nonce is read or it is accepted. -/
theorem PurposeSound.recall {purpose : Purpose} {call call' : ClaimCall}
    (h : PurposeSound events accepted s call purpose) (hrequest : call'.request = call.request)
    (hincluded : call'.included = true →
      call.included = true ∨ isAccepted accepted call.request.depositId = true) :
    PurposeSound events accepted s call' purpose := by
  have hcall {id : Nat} (hold : CallSound accepted id call) : CallSound accepted id call' := by
    obtain ⟨hid, hin⟩ := hold
    refine ⟨hrequest ▸ hid, fun hnew => ?_⟩
    rcases hincluded hnew with hin' | haccepted
    · exact hin hin'
    · exact hid ▸ haccepted
  cases purpose with
  | retry p todo stillPending => exact ⟨h.1, hcall h.2⟩
  | scan log rest toBlock => exact ⟨h.1, hcall h.2⟩

theorem accept_invariant {purpose : Purpose} {call : ClaimCall} (inv : RelayInvariant events w)
    (htask : w.task = .claiming s purpose call)
    (hstep : mainStep events w (.claiming s purpose call) .accept = some w') :
    RelayInvariant events w' := by
  obtain ⟨hkept, hpurpose⟩ : TaskSound events w (.claiming s purpose call) := htask ▸ inv.task
  have hmore : ∀ id, isAccepted w.accepted id = true →
      isAccepted (call.request :: w.accepted) id = true := fun _ => isAccepted_cons
  rw [mainStep] at hstep
  split at hstep
  next =>
    cases hstep
    refine ⟨fun saved hsaved => (inv.disk saved hsaved).mono hmore, hkept.mono hmore, ?_⟩
    exact (hpurpose.mono hmore).recall rfl fun _ => Or.inr (isAccepted_self call.request _)
  next => cases hstep

theorem mainStep_invariant {turn : Turn} (inv : RelayInvariant events w)
    (hcareful : careful events w turn = true) (hstep : mainStep events w w.task turn = some w') :
    RelayInvariant events w' := by
  have hsound := inv.task
  have hstep' := hstep
  unfold mainStep at hstep
  split at hstep
  next htask =>
    dsimp only at hstep
    split at hstep
    next hzero =>
      cases hstep
      exact ⟨inv.disk, rfl, hzero⟩
    next hblock =>
      cases hstep
      exact start_invariant inv rfl hblock
  next s htask =>
    cases hstep
    exact ⟨inv.disk, trivial⟩
  next s latest htask =>
    cases hstep
    exact firstBlock_invariant inv htask hcareful
  next s htask =>
    rw [htask] at hsound
    split at hstep
    next =>
      cases hstep
      exact ⟨inv.disk, hsound⟩
    next =>
      cases hstep
      exact ⟨inv.disk, hsound, fun p hp => Or.inl hp⟩
  next s p todo stillPending htask =>
    rw [htask] at hsound
    cases hstep
    exact ⟨inv.disk, hsound.1, hsound.2, rfl, by simp [newCall]⟩
  next s stillPending htask =>
    rw [htask] at hsound
    cases hstep
    have hkept := hsound.1.requeue hsound.2
    refine ⟨fun saved hsaved => ?_, hkept⟩
    cases hsaved
    exact hkept
  next s htask =>
    rw [htask] at hsound
    cases hstep
    exact ⟨inv.disk, hsound⟩
  next s latest htask =>
    rw [htask] at hsound
    split at hstep
    next =>
      cases hstep
      exact ⟨inv.disk, hsound⟩
    next =>
      cases hstep
      exact ⟨inv.disk, hsound, rfl⟩
  next s fromBlock toBlock answers htask =>
    rw [htask] at hstep'
    exact logs_invariant inv htask hstep'
  next s log rest toBlock htask =>
    rw [htask] at hstep'
    exact scanning_invariant inv htask hstep'
  next s toBlock htask =>
    rw [htask] at hsound
    cases hstep
    have hkept := hsound.1.advance hsound.2
    refine ⟨fun saved hsaved => ?_, hkept⟩
    cases hsaved
    exact hkept
  next s purpose call htask =>
    rw [htask] at hsound
    cases hstep
    exact ⟨inv.disk, hsound.1, hsound.2.recall rfl Or.inl⟩
  next s purpose call htask =>
    rw [htask] at hstep'
    exact accept_invariant inv htask hstep'
  next s purpose call reply htask =>
    split at hstep
    next hanswer =>
      cases hstep
      exact answered_invariant inv htask hanswer hcareful
    next => cases hstep
  next s htask =>
    rw [htask] at hsound
    cases hstep
    exact ⟨inv.disk, hsound⟩
  next => cases hstep

theorem TaskSound.mono {task : MainTask} {accepted : List ClaimRequest}
    (hmore : ∀ id, isAccepted w.accepted id = true → isAccepted accepted id = true)
    (h : TaskSound events w task) : TaskSound events { w with accepted := accepted } task := by
  cases task with
  | stopped => exact h
  | firstBlock s => exact h
  | top s => exact Kept.mono hmore h
  | retrying s todo stillPending => exact ⟨h.1.mono hmore, h.2.mono hmore⟩
  | latestBlock s => exact Kept.mono hmore h
  | logs s fromBlock toBlock => exact ⟨h.1.mono hmore, h.2⟩
  | scanning s rest toBlock => exact ⟨h.1.mono hmore, h.2.mono hmore⟩
  | claiming s purpose call => exact ⟨h.1.mono hmore, h.2.mono hmore⟩
  | sleeping s => exact Kept.mono hmore h

/-- No task reads the nonce. -/
theorem TaskSound.of_nonce {task : MainTask} {nonce : Nat} (h : TaskSound events w task) :
    TaskSound events { w with nonce := nonce } task := by
  cases task <;> exact h

/-- The step lemma: a careful turn keeps the invariant. -/
theorem relayStep_invariant {turn : Turn} (inv : RelayInvariant events w)
    (hcareful : careful events w turn = true) (hstep : relayStep events w turn = some w') :
    RelayInvariant events w' := by
  unfold relayStep at hstep
  split at hstep
  next =>
    cases hstep
    exact ⟨inv.disk, trivial⟩
  next =>
    split at hstep
    next =>
      cases hstep
      exact ⟨fun _ hsaved => (nomatch hsaved), trivial⟩
    next => cases hstep
  next =>
    cases hstep
    exact ⟨inv.disk, inv.task.of_nonce⟩
  next request =>
    split at hstep
    next => cases hstep
    next =>
      cases hstep
      have hmore : ∀ id, isAccepted w.accepted id = true →
          isAccepted (request :: w.accepted) id = true := fun _ => isAccepted_cons
      exact ⟨fun saved hsaved => (inv.disk saved hsaved).mono hmore, inv.task.mono hmore⟩
  next => exact mainStep_invariant inv hcareful hstep

theorem Fresh.invariant (h : Fresh w) : RelayInvariant events w := by
  refine ⟨fun saved hsaved => ⟨fun id hid => h.claimed id ?_, fun _ _ first hfirst => ?_⟩, ?_⟩
  · rw [hsaved]
    exact hid
  · rw [h.initial] at hfirst
    cases hfirst
  · rw [h.stopped]
    trivial

/-- The run lemma. -/
theorem reaches_invariant {start : RelayWorld} (hfresh : Fresh start)
    (h : Reaches (relayStep events) (careful events) start w) : RelayInvariant events w :=
  h.invariant hfresh.invariant fun _ _ _ => relayStep_invariant

end Steps

/-- In a run whose answers and starts are careful no deposit is lost: those of the blocks after the
initial one and up to the saved `lastBlock` are accepted or wait in the retry queue. -/
theorem no_deposit_lost (events : List DepositLog) {start w : RelayWorld} (hfresh : Fresh start)
    (h : Reaches (relayStep events) (careful events) start w) {s : RelayState}
    (hsaved : w.disk = .saved s) :
    (∀ id ∈ s.claimed, isAccepted w.accepted id = true) ∧
      ∀ log ∈ events, ∀ first, w.initial = some first → first < log.blockNumber →
        log.blockNumber ≤ s.lastBlock →
        isAccepted w.accepted log.depositId = true ∨
          ∃ p ∈ s.pending, p.depositId = log.depositId := by
  have hkept := (reaches_invariant hfresh h).disk s hsaved
  exact ⟨hkept.claimed, hkept.covered⟩

section Sample

/-- One deposit, in the block after the saved one. -/
def lockedLog : DepositLog :=
  ⟨101, by decide, FixedBytes.replicate 32 3, 0, FixedBytes.replicate 20 1,
    FixedBytes.replicate 32 2, 5000000⟩

def savedWorld : RelayWorld := ⟨.saved ⟨100, [], none⟩, .stopped, [], 0, none⟩

theorem savedWorld_fresh : Fresh savedWorld where
  stopped := rfl
  initial := rfl
  claimed id hid := by cases hid

/-- From the start to the claim of the deposit. -/
def untilClaim : List Turn :=
  [.start, .proceed, .block (some 102), .logs true, .proceed, .sign]

/-- What the file says of the run, and what the rollup has accepted. -/
def RelayWorld.summary (w : RelayWorld) : Disk × Option Int × List Nat :=
  (w.disk, w.initial, w.accepted.map ClaimRequest.depositId)

theorem no_deposit_lost_claimed : ∃ w,
    stepAll (relayStep [lockedLog]) (careful [lockedLog])
        (untilClaim ++ [.accept, .answer .ok, .proceed]) savedWorld = some w ∧
      w.summary = (.saved ⟨102, [0], none⟩, some 100, [0]) ∧
      isAccepted w.accepted lockedLog.depositId = true := by
  have hrun : (stepAll (relayStep [lockedLog]) (careful [lockedLog])
      (untilClaim ++ [.accept, .answer .ok, .proceed]) savedWorld).map RelayWorld.summary =
        some (.saved ⟨102, [0], none⟩, some 100, [0]) := by
    decide
  obtain ⟨w, hw, hsummary⟩ := Option.map_eq_some_iff.mp hrun
  refine ⟨w, hw, hsummary, ?_⟩
  obtain ⟨hdisk, hrest⟩ := Prod.mk.inj hsummary
  have hreached := Reaches.start.stepAll hw
  exact (no_deposit_lost [lockedLog] savedWorld_fresh hreached hdisk).1 0 (by decide)

/-- A withdrawal takes the nonce of the claim, and the file calls the deposit claimed. -/
theorem nonce_used_loses_deposit : ∃ w s,
    Reaches (relayStep [lockedLog]) (fun _ _ => true) savedWorld w ∧ w.disk = .saved s ∧
      w.initial = some 100 ∧ 100 < lockedLog.blockNumber ∧ lockedLog.blockNumber ≤ s.lastBlock ∧
      lockedLog.depositId ∈ s.claimed ∧ s.pending = [] ∧
      isAccepted w.accepted lockedLog.depositId = false := by
  have hrun : (stepAll (relayStep [lockedLog]) (fun _ _ => true)
      (untilClaim ++ [.withdraw, .answer (.error "nonce used"), .proceed]) savedWorld).map
        RelayWorld.summary = some (.saved ⟨102, [0], none⟩, some 100, []) := by
    decide
  obtain ⟨w, hw, hsummary⟩ := Option.map_eq_some_iff.mp hrun
  obtain ⟨hdisk, hrest⟩ := Prod.mk.inj hsummary
  obtain ⟨hinitial, hnone⟩ := Prod.mk.inj hrest
  have haccepted : isAccepted w.accepted lockedLog.depositId = false := by
    rw [List.map_eq_nil_iff.mp hnone]
    rfl
  exact ⟨w, _, Reaches.start.stepAll hw, hdisk, hinitial, by decide, by decide, by decide, rfl,
    haccepted⟩

/-- A crash before the first save: the restart begins past the deposit. -/
example : (stepAll (relayStep [lockedLog]) (fun _ _ => true)
    [.start, .block (some 150), .crash, .start, .block (some 250), .proceed, .block (some 250),
      .logs true, .proceed] ⟨.absent, .stopped, [], 0, none⟩).map RelayWorld.summary =
    some (.saved ⟨209, [], some []⟩, some 100, []) := by
  decide

end Sample

end AutoRelayer

end ObscuraNetwork
