import ObscuraNetwork.NoDepositLost

namespace ObscuraNetwork

namespace AutoRelayer

def FromLogs (logs : List DepositLog) (ps : List Pending) : Prop :=
  ∀ p ∈ ps, ∃ log ∈ logs, log.pending = p

/-- What a state holds comes from the blocks up to the head. -/
structure Within (logs : List DepositLog) (head : Int) (s : RelayState) : Prop where
  lastBlock : s.lastBlock ≤ head
  pending : FromLogs logs s.pending

/-- The deposit that a claim is for. -/
def Purpose.pending : Purpose → Pending
  | .retry p _ _ => p
  | .scan log _ _ => log.pending

def PurposeWithin (logs : List DepositLog) (head : Int) : Purpose → Prop
  | .retry p todo stillPending => FromLogs logs (p :: todo) ∧ FromLogs logs stillPending
  | .scan log rest toBlock => log :: rest ⊆ logs ∧ toBlock ≤ head

def TaskWithin (logs : List DepositLog) (head : Int) : MainTask → Prop
  | .stopped => True
  | .firstBlock s => Within logs head s
  | .top s => Within logs head s
  | .retrying s todo stillPending =>
    Within logs head s ∧ FromLogs logs todo ∧ FromLogs logs stillPending
  | .latestBlock s => Within logs head s
  | .logs s _ toBlock => Within logs head s ∧ toBlock ≤ head
  | .scanning s rest toBlock => Within logs head s ∧ rest ⊆ logs ∧ toBlock ≤ head
  | .claiming s purpose call =>
    Within logs head s ∧ PurposeWithin logs head purpose ∧ call.request = purpose.pending.request
  | .sleeping s => Within logs head s

/-- The file and the loop hold nothing but deposits of blocks up to the head. -/
structure WorldWithin (logs : List DepositLog) (head : Int) (w : RelayWorld) : Prop where
  disk : ∀ s, w.disk = .saved s → Within logs head s
  task : TaskWithin logs head w.task

/-- The node names no block after the head. -/
def upTo (head : Int) : Turn → Bool
  | .block (some latest) => decide (latest ≤ head)
  | _ => true

section GenuineClaims

variable {logs logs' : List DepositLog} {head head' : Int} {w w' : RelayWorld} {s : RelayState}

theorem FromLogs.mono {ps : List Pending} (h : FromLogs logs ps) (hlogs : logs ⊆ logs') :
    FromLogs logs' ps := by
  intro p hp
  obtain ⟨log, hlog, hpending⟩ := h p hp
  exact ⟨log, hlogs hlog, hpending⟩

theorem FromLogs.concat {ps : List Pending} {p : Pending} (h : FromLogs logs ps)
    (hp : ∃ log ∈ logs, log.pending = p) : FromLogs logs (ps ++ [p]) := by
  intro q hq
  rcases List.mem_append.mp hq with hold | hlast
  · exact h q hold
  · rw [List.mem_singleton.mp hlast]
    exact hp

theorem Within.mono (h : Within logs head s) (hlogs : logs ⊆ logs') (hhead : head ≤ head') :
    Within logs' head' s :=
  ⟨h.lastBlock.trans hhead, h.pending.mono hlogs⟩

theorem TaskWithin.mono {task : MainTask} (h : TaskWithin logs head task) (hlogs : logs ⊆ logs')
    (hhead : head ≤ head') : TaskWithin logs' head' task := by
  cases task with
  | stopped => trivial
  | firstBlock s => exact Within.mono h hlogs hhead
  | top s => exact Within.mono h hlogs hhead
  | retrying s todo stillPending =>
    exact ⟨h.1.mono hlogs hhead, h.2.1.mono hlogs, h.2.2.mono hlogs⟩
  | latestBlock s => exact Within.mono h hlogs hhead
  | logs s fromBlock toBlock => exact ⟨h.1.mono hlogs hhead, h.2.trans hhead⟩
  | scanning s rest toBlock =>
    exact ⟨h.1.mono hlogs hhead, List.Subset.trans h.2.1 hlogs, h.2.2.trans hhead⟩
  | claiming s purpose call =>
    refine ⟨h.1.mono hlogs hhead, ?_, h.2.2⟩
    cases purpose with
    | retry p todo stillPending => exact ⟨h.2.1.1.mono hlogs, h.2.1.2.mono hlogs⟩
    | scan log rest toBlock =>
      exact ⟨List.Subset.trans h.2.1.1 hlogs, h.2.1.2.trans hhead⟩
  | sleeping s => exact Within.mono h hlogs hhead

theorem WorldWithin.mono (h : WorldWithin logs head w) (hlogs : logs ⊆ logs')
    (hhead : head ≤ head') : WorldWithin logs' head' w :=
  ⟨fun s hs => (h.disk s hs).mono hlogs hhead, h.task.mono hlogs hhead⟩

/-- A loaded state is the saved one or an empty one. -/
theorem WorldWithin.loaded (h : WorldWithin logs head w) (hhead : 0 ≤ head) :
    Within logs head (loadState w.disk) := by
  cases hdisk : w.disk with
  | absent => exact ⟨hhead, fun p hp => (nomatch hp)⟩
  | unreadable => exact ⟨hhead, fun p hp => (nomatch hp)⟩
  | saved s => exact h.disk s hdisk

theorem WorldWithin.save {task : MainTask} (hs : Within logs head s)
    (htask : TaskWithin logs head task) :
    WorldWithin logs head { w with task := task, disk := .saved s } := by
  refine ⟨fun saved hsaved => ?_, htask⟩
  cases hsaved
  exact hs

theorem Within.claim (h : Within logs head s) (depositId : Nat) :
    Within logs head (s.claim depositId) := ⟨h.lastBlock, h.pending⟩

theorem Within.queue {log : DepositLog} (h : Within logs head s) (hlog : log ∈ logs) :
    Within logs head (s.queue log.pending) :=
  ⟨h.lastBlock, h.pending.concat ⟨log, hlog, rfl⟩⟩

theorem answered_within {purpose : Purpose} {reply : ClaimReply} (h : WorldWithin logs head w)
    (hs : Within logs head s) (hpurpose : PurposeWithin logs head purpose) :
    WorldWithin logs head (answered w s reply purpose) := by
  cases purpose with
  | retry p todo stillPending =>
    obtain ⟨htodo, hstill⟩ := hpurpose
    have hrest : FromLogs logs todo := fun q hq => htodo q (List.mem_cons_of_mem p hq)
    simp only [answered]
    split
    next => exact ⟨h.disk, hs.claim _, hrest, hstill⟩
    next => exact ⟨h.disk, hs, hrest, hstill.concat (htodo p List.mem_cons_self)⟩
  | scan log rest toBlock =>
    obtain ⟨hsub, hbound⟩ := hpurpose
    obtain ⟨hlog, hrest⟩ := List.cons_subset.mp hsub
    have hnext : Within logs head
        (if reply.processed then s.claim log.depositId else s.queue log.pending) := by
      split
      next => exact hs.claim _
      next => exact hs.queue hlog
    exact WorldWithin.save hnext ⟨hnext, hrest, hbound⟩

theorem logsBetween_subset {fromBlock toBlock : Int} {found : List DepositLog}
    (h : logsBetween logs fromBlock toBlock = some found) : found ⊆ logs := by
  unfold logsBetween at h
  split at h
  next => cases h
  next =>
    cases h
    exact List.filter_subset_self logs

theorem mainStep_within {turn : Turn} (h : WorldWithin logs head w) (hhead : 0 ≤ head)
    (hturn : upTo head turn = true) (hstep : mainStep logs w w.task turn = some w') :
    WorldWithin logs head w' := by
  have htask := h.task
  unfold mainStep at hstep
  split at hstep
  next =>
    dsimp only at hstep
    split at hstep
    next =>
      cases hstep
      exact ⟨h.disk, h.loaded hhead⟩
    next =>
      cases hstep
      exact ⟨h.disk, h.loaded hhead⟩
  next =>
    cases hstep
    exact ⟨h.disk, trivial⟩
  next s latest heq =>
    rw [heq] at htask
    cases hstep
    have hlatest : latest ≤ head := of_decide_eq_true hturn
    have hfirst : Within logs head { s with lastBlock := latest - 50 } :=
      ⟨by show latest - 50 ≤ head; omega, htask.pending⟩
    exact ⟨h.disk, hfirst⟩
  next s heq =>
    rw [heq] at htask
    split at hstep
    next =>
      cases hstep
      exact ⟨h.disk, htask⟩
    next =>
      cases hstep
      exact ⟨h.disk, htask, htask.pending, fun p hp => (nomatch hp)⟩
  next s p todo stillPending heq =>
    rw [heq] at htask
    cases hstep
    exact ⟨h.disk, htask.1, ⟨htask.2.1, htask.2.2⟩, rfl⟩
  next s stillPending heq =>
    rw [heq] at htask
    cases hstep
    have hs : Within logs head { s with pendingRetry := some stillPending } :=
      ⟨htask.1.lastBlock, htask.2.2⟩
    exact WorldWithin.save hs hs
  next s heq =>
    rw [heq] at htask
    cases hstep
    exact ⟨h.disk, htask⟩
  next s latest heq =>
    rw [heq] at htask
    have hlatest : latest ≤ head := of_decide_eq_true hturn
    split at hstep
    next =>
      cases hstep
      exact ⟨h.disk, htask⟩
    next =>
      cases hstep
      exact ⟨h.disk, htask, (min_le_left latest (s.lastBlock + 9)).trans hlatest⟩
  next s fromBlock toBlock answers heq =>
    rw [heq] at htask
    split at hstep
    next found hfound =>
      cases hstep
      exact ⟨h.disk, htask.1, logsBetween_subset hfound, htask.2⟩
    next =>
      cases hstep
      exact ⟨h.disk, htask.1⟩
  next s log rest toBlock heq =>
    rw [heq] at htask
    obtain ⟨hs, hsub, hbound⟩ := htask
    have hrest : rest ⊆ logs := (List.cons_subset.mp hsub).2
    split at hstep
    next =>
      cases hstep
      exact ⟨h.disk, hs, hrest, hbound⟩
    next =>
      split at hstep
      next =>
        cases hstep
        exact ⟨h.disk, hs, hrest, hbound⟩
      next =>
        cases hstep
        exact ⟨h.disk, hs, ⟨hsub, hbound⟩, rfl⟩
  next s toBlock heq =>
    rw [heq] at htask
    cases hstep
    have hs : Within logs head { s with lastBlock := toBlock } := ⟨htask.2.2, htask.1.pending⟩
    exact WorldWithin.save hs hs
  next s purpose call heq =>
    rw [heq] at htask
    cases hstep
    exact ⟨h.disk, htask⟩
  next s purpose call heq =>
    rw [heq] at htask
    split at hstep
    next =>
      cases hstep
      exact ⟨h.disk, htask⟩
    next => cases hstep
  next s purpose call reply heq =>
    rw [heq] at htask
    split at hstep
    next =>
      cases hstep
      exact answered_within h htask.1 htask.2.1
    next => cases hstep
  next s heq =>
    rw [heq] at htask
    cases hstep
    exact ⟨h.disk, htask⟩
  next => cases hstep

/-- Whatever the process, the node and the rollup do, nothing is claimed but what was logged. -/
theorem relayStep_within {turn : Turn} (h : WorldWithin logs head w) (hhead : 0 ≤ head)
    (hturn : upTo head turn = true) (hstep : relayStep logs w turn = some w') :
    WorldWithin logs head w' := by
  unfold relayStep at hstep
  split at hstep
  next =>
    cases hstep
    exact ⟨h.disk, trivial⟩
  next =>
    split at hstep
    next =>
      cases hstep
      exact ⟨fun _ hsaved => (nomatch hsaved), trivial⟩
    next => cases hstep
  next =>
    cases hstep
    exact ⟨h.disk, h.task⟩
  next =>
    split at hstep
    next => cases hstep
    next =>
      cases hstep
      exact ⟨h.disk, h.task⟩
  next => exact mainStep_within h hhead hturn hstep

section NewLog

variable {log : DepositLog} {accepted : List ClaimRequest} {initial : Option Int}

/-- A deposit of a block after the head is behind no state and in no scan. -/
theorem Kept.newLog (h : Kept logs accepted initial s) (hs : Within logs head s)
    (hnew : head < log.blockNumber) : Kept (logs ++ [log]) accepted initial s where
  claimed := h.claimed
  covered log' hlog first hfirst hafter hbelow := by
    rcases List.mem_append.mp hlog with hold | hlast
    · exact h.covered log' hold first hfirst hafter hbelow
    · rw [List.mem_singleton.mp hlast] at hbelow
      have := hs.lastBlock
      omega

theorem Ahead.newLog {rest : List DepositLog} {toBlock : Int}
    (h : Ahead logs accepted s rest toBlock)
    (hbound : toBlock ≤ head) (hnew : head < log.blockNumber) :
    Ahead (logs ++ [log]) accepted s rest toBlock := by
  intro log' hlog hafter hbelow
  rcases List.mem_append.mp hlog with hold | hlast
  · exact h log' hold hafter hbelow
  · rw [List.mem_singleton.mp hlast] at hbelow
    omega

theorem RelayInvariant.newLog (inv : RelayInvariant logs w) (h : WorldWithin logs head w)
    (hnew : head < log.blockNumber) : RelayInvariant (logs ++ [log]) w := by
  refine ⟨fun s hs => (inv.disk s hs).newLog (h.disk s hs) hnew, ?_⟩
  have hsound := inv.task
  have htask := h.task
  generalize w.task = task at hsound htask ⊢
  cases task with
  | stopped => trivial
  | firstBlock s => exact hsound
  | top s => exact Kept.newLog hsound htask hnew
  | retrying s todo stillPending => exact ⟨hsound.1.newLog htask.1 hnew, hsound.2⟩
  | latestBlock s => exact Kept.newLog hsound htask hnew
  | logs s fromBlock toBlock => exact ⟨hsound.1.newLog htask.1 hnew, hsound.2⟩
  | scanning s rest toBlock =>
    exact ⟨hsound.1.newLog htask.1 hnew, hsound.2.newLog htask.2.2 hnew⟩
  | claiming s purpose call =>
    refine ⟨hsound.1.newLog htask.1 hnew, ?_⟩
    cases purpose with
    | retry p todo stillPending => exact hsound.2
    | scan log' rest toBlock => exact ⟨hsound.2.1.newLog htask.2.1.2 hnew, hsound.2.2⟩
  | sleeping s => exact Kept.newLog hsound htask hnew

/-- Several deposits are logged in the block after the head. -/
theorem RelayInvariant.newLogs {new : List DepositLog} (inv : RelayInvariant logs w)
    (h : WorldWithin logs head w)
    (hnew : ∀ log ∈ new, head < log.blockNumber) : RelayInvariant (logs ++ new) w := by
  induction new generalizing logs with
  | nil =>
    rw [List.append_nil]
    exact inv
  | cons log rest ih =>
    have hlog := RelayInvariant.newLog inv h (hnew log List.mem_cons_self)
    have hwithin := h.mono (List.subset_append_left logs [log]) le_rfl
    have hrest := ih hlog hwithin fun log' hlog' => hnew log' (List.mem_cons_of_mem log hlog')
    rwa [List.append_assoc, List.singleton_append] at hrest

end NewLog

end GenuineClaims

end AutoRelayer

end ObscuraNetwork
