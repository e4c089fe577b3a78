import ObscuraNetwork.VaultRelayer

namespace ObscuraNetwork

namespace VaultRelayer

/-- Between the check of a deposit and the record of its release. -/
def Task.phase : Task → Phase DepositKey
  | .destination a => .trying a.key
  | .releasing a _ false => .trying a.key
  | .releasing a _ true => .sent a.key
  | _ => .idle

def Task.workedKey : Task → Option DepositKey
  | .destination a => some a.key
  | .releasing a _ _ => some a.key
  | _ => none

/-- A turn that writes a loaded state back loses no record that the file has gained since. -/
def keepsRecords (w : World) : Action → Bool
  | .resume i reply =>
    match w.tasks[i]?, reply with
    | some (.watch _ snapshot), .block (some _) =>
      w.file.processed.all fun key => snapshot.processed.contains key
    | some (.releasing a _ true), .result true =>
      w.file.processed.all fun key => a.snapshot.processed.contains key
    | _, _ => true
  | .timer _ => true

/-- A deposit without a record is taken up only while no other call works on it and none has ended
in an error after its transaction was accepted. -/
def startsAlone (w : World) : Action → Bool
  | .resume i .turn =>
    match w.tasks[i]? with
    | some (.deposits chain (event :: _) _) =>
      let key : DepositKey := (chain, event.depositId)
      w.file.processed.contains key || !w.lost.contains key &&
        w.tasks.all fun task => decide (task.workedKey ≠ some key)
    | _ => true
  | _ => true

def orderly (w : World) (a : Action) : Bool := keepsRecords w a && startsAlone w a

/-- The world as actors that send for deposits. -/
def World.attempts (w : World) : Attempts Nat DepositKey where
  phase i := (w.tasks[i]?).elim .idle Task.phase
  recorded := {key | key ∈ w.file.processed}
  lost := {key | key ∈ w.lost}
  sends := w.submissions.map VaultRelease.key

section Simulation

variable {events : ChainId → List DepositEvent} {w w' : World} {i : Nat} {task task' : Task}

theorem phase_of_task (h : w.tasks[i]? = some task) : w.attempts.phase i = task.phase := by
  simp only [World.attempts, h, Option.elim_some]

theorem setTask_moves (h : w.tasks[i]? = some task) (task' : Task) :
    w.attempts.Moves i task'.phase (w.setTask i task').attempts.phase := by
  obtain ⟨hi, _⟩ := List.getElem?_eq_some_iff.mp h
  constructor
  · simp only [World.attempts, World.setTask, List.getElem?_set_self hi, Option.elim_some]
  · intro j hj
    simp only [World.attempts, World.setTask, List.getElem?_set_ne (Ne.symm hj)]

theorem setTask_phase (h : w.tasks[i]? = some task) (hsame : task'.phase = task.phase) :
    (w.setTask i task').attempts.phase = w.attempts.phase := by
  obtain ⟨hat, hother⟩ := setTask_moves h task'
  funext j
  by_cases hj : j = i
  · rw [hj, hat, hsame, phase_of_task h]
  · exact hother j hj

theorem busy_workedKey {key : DepositKey} (h : w.attempts.Busy i key) :
    ∃ task ∈ w.tasks, task.workedKey = some key := by
  simp only [Attempts.Busy, World.attempts] at h
  cases htask : w.tasks[i]? with
  | none => simp [htask] at h
  | some task =>
    rw [htask, Option.elim_some] at h
    refine ⟨task, List.mem_of_getElem? htask, ?_⟩
    cases task with
    | destination a => simpa [Task.phase, Task.workedKey] using h
    | releasing a dest submitted =>
      cases submitted <;> simpa [Task.phase, Task.workedKey] using h
    | _ => simp [Task.phase] at h

theorem mem_record {s : StateFile} {key key' : DepositKey} :
    key' ∈ (s.record key).processed ↔ key' ∈ s.processed ∨ key' = key := by
  unfold StateFile.record
  split
  next h =>
    constructor
    · exact Or.inl
    · intro h'
      exact h'.elim id fun heq => heq ▸ h
  next => simp

/-- A turn that leaves every actor in its phase. -/
theorem save_attempts (htask : w.tasks[i]? = some task) (hsame : task'.phase = task.phase)
    {file : StateFile} (hkept : ∀ key ∈ w.file.processed, key ∈ file.processed) :
    Attempts.Step w.attempts { w.setTask i task' with file := file }.attempts := by
  have hphase := setTask_phase htask hsame
  have heq : { w.setTask i task' with file := file }.attempts =
      ⟨w.attempts.phase, {key | key ∈ file.processed}, w.attempts.lost, w.attempts.sends⟩ := by
    rw [← hphase]
    rfl
  rw [heq]
  exact .keep hkept

theorem keep_attempts (htask : w.tasks[i]? = some task) (hsame : task'.phase = task.phase) :
    Attempts.Step w.attempts (w.setTask i task').attempts :=
  save_attempts htask hsame fun _ hkey => hkey

theorem deposit_attempts {chain : ChainId} {event : DepositEvent} {rest : List DepositEvent}
    {toBlock : Int} (htask : w.tasks[i]? = some (.deposits chain (event :: rest) toBlock))
    (hnew : (chain, event.depositId) ∉ w.file.processed)
    (halone : startsAlone w (.resume i .turn) = true) :
    Attempts.Step w.attempts
      (w.setTask i (.destination ⟨chain, event, w.file, rest, toBlock⟩)).attempts := by
  simp only [startsAlone, htask, Bool.or_eq_true, Bool.and_eq_true, Bool.not_eq_true',
    List.contains_iff_mem, List.all_eq_true, decide_eq_true_eq] at halone
  obtain ⟨hlost, hfree⟩ := halone.resolve_left hnew
  refine .begin (setTask_moves htask _) (phase_of_task htask) hnew ?_ ?_
  · intro hmem
    have hcontains : w.lost.contains (chain, event.depositId) = true :=
      List.contains_iff_mem.mpr hmem
    rw [hcontains] at hlost
    cases hlost
  · intro j hbusy
    obtain ⟨task, hmem, hkey⟩ := busy_workedKey hbusy
    exact hfree task hmem hkey

/-- A turn that is orderly is a step of the actors. -/
theorem resume_attempts {reply : Reply} (htask : w.tasks[i]? = some task)
    (horderly : orderly w (.resume i reply) = true)
    (hstep : w.resume events i task reply = some w') :
    Attempts.Step w.attempts w'.attempts := by
  have hphase := phase_of_task htask
  obtain ⟨hkeeps, halone⟩ := Bool.and_eq_true_iff.mp horderly
  unfold World.resume at hstep
  split at hstep
  next =>
    cases hstep
    exact keep_attempts htask rfl
  next chain snapshot block =>
    cases hstep
    simp only [keepsRecords, htask, List.all_eq_true, List.contains_iff_mem] at hkeeps
    refine save_attempts htask ?_ hkeeps
    rfl
  next =>
    cases hstep
    exact keep_attempts htask rfl
  next =>
    cases hstep
    exact keep_attempts htask rfl
  next =>
    split at hstep
    · cases hstep
      exact keep_attempts htask rfl
    · cases hstep
      exact keep_attempts htask rfl
  next =>
    cases hstep
    refine save_attempts htask ?_ fun _ hkey => hkey
    rfl
  next chain event rest toBlock =>
    split at hstep
    next =>
      cases hstep
      exact keep_attempts htask rfl
    next hnew =>
      cases hstep
      exact deposit_attempts htask hnew halone
  next a answers =>
    split at hstep
    next =>
      cases hstep
      exact .quit (setTask_moves htask _) hphase
    next =>
      cases hstep
      exact keep_attempts htask rfl
  next a dest =>
    cases hstep
    have hsends : (w.submissions ++ [(⟨a.key, dest, a.event.amount,
        bytes32ToAddress a.event.obscuraRecipient⟩ : VaultRelease)]).map VaultRelease.key =
        w.attempts.sends ++ [a.key] := by
      rw [List.map_append]
      rfl
    have hsend := Attempts.Step.send (setTask_moves htask (.releasing a dest true)) hphase
    rw [← hsends] at hsend
    exact hsend
  next a dest =>
    cases hstep
    simp only [keepsRecords, htask, List.all_eq_true, List.contains_iff_mem] at hkeeps
    exact .record (setTask_moves htask _) hphase
      (fun key hkey => mem_record.mpr (Or.inl (hkeeps key hkey))) (mem_record.mpr (Or.inr rfl))
  next a dest =>
    cases hstep
    have hlost : {key | key ∈ a.key :: w.lost} = insert a.key w.attempts.lost := by
      ext key
      exact List.mem_cons
    have hlose := Attempts.Step.lose
      (setTask_moves htask (.deposits a.source a.rest a.toBlock)) hphase
    rw [← hlost] at hlose
    exact hlose
  next =>
    cases hstep
    exact .quit (setTask_moves htask _) hphase
  next => cases hstep

theorem step_attempts {a : Action} (horderly : orderly w a = true)
    (hstep : step events w a = some w') : Attempts.Step w.attempts w'.attempts := by
  cases a with
  | timer chain =>
    rw [step] at hstep
    split at hstep
    next =>
      cases hstep
      have hphase : (fun j => ((w.tasks ++ [.pollBlock chain])[j]?).elim .idle Task.phase) =
          w.attempts.phase := by
        funext j
        rw [List.getElem?_append]
        split
        next => rfl
        next hj =>
          have hnone : w.tasks[j]? = none := List.getElem?_eq_none (by omega)
          simp only [World.attempts, hnone, Option.elim_none]
          cases j - w.tasks.length <;> rfl
      have hkeep : Attempts.Step w.attempts
          ⟨w.attempts.phase, w.attempts.recorded, w.attempts.lost, w.attempts.sends⟩ :=
        .keep subset_rfl
      rw [← hphase] at hkeep
      exact hkeep
    next => cases hstep
  | resume i reply =>
    obtain ⟨task, htask, hresume⟩ := Option.bind_eq_some_iff.mp hstep
    exact resume_attempts htask horderly hresume

theorem start_idle (file : StateFile) (i : Nat) : (start file).attempts.phase i = .idle := by
  simp only [World.attempts]
  cases htask : (start file).tasks[i]? with
  | none => rfl
  | some task =>
    obtain ⟨chain, _, rfl⟩ := List.mem_map.mp (List.mem_of_getElem? htask)
    cases file.lastBlock chain <;> rfl

theorem start_invariant (file : StateFile) : Attempts.Invariant (start file).attempts := by
  have hinv := Attempts.invariant_start (start_idle file) {key | key ∈ file.processed}
  have hlost : {key : DepositKey | key ∈ ([] : List DepositKey)} = ∅ := by simp
  rw [← hlost] at hinv
  exact hinv

/-- An orderly run of the relayer is a run of the attempts. -/
theorem reaches_attempts {file : StateFile} (h : Reaches (step events) orderly (start file) w) :
    Relation.ReflTransGen Attempts.Step (start file).attempts w.attempts :=
  h.simulates World.attempts fun _ _ _ => step_attempts

end Simulation

/-- However the watchers and the polls interleave, as long as the turns are orderly no deposit is
released twice. -/
theorem release_at_most_once (events : ChainId → List DepositEvent) (file : StateFile) {w : World}
    (h : Reaches (step events) orderly (start file) w) :
    (w.submissions.map VaultRelease.key).Nodup :=
  (Attempts.steps_invariant (start_invariant file) (reaches_attempts h)).nodup

section Sample

def lockedEvent : DepositEvent :=
  ⟨5, 0, FixedBytes.replicate 20 1, 3000000, FixedBytes.replicate 32 2⟩

/-- One deposit, on the first chain. -/
def lockedEvents : ChainId → List DepositEvent
  | .baseSepolia => [lockedEvent]
  | _ => []

/-- A file in which every chain has been watched before. -/
def watchedFile : StateFile := ⟨[], fun _ => some 0⟩

/-- No vault has a verifier key, and every vault can pay. -/
def fundedVaults : ChainId → VaultAnswers := fun _ => ⟨none, some 5000000⟩

/-- A poll of the first chain from its block number to the release of its deposit. -/
def quietPoll (i : Nat) : List Action :=
  [.resume i (.block (some 10)), .resume i (.logs true), .resume i .turn,
    .resume i (.vaults fundedVaults), .resume i .submitted, .resume i (.result true),
    .resume i .turn]

/-- Two polls of one chain that run side by side. -/
def overlappingPolls : List Action :=
  [.timer .baseSepolia, .resume 0 (.block (some 10)), .resume 4 (.block (some 10)),
    .resume 0 (.logs true), .resume 4 (.logs true), .resume 0 .turn, .resume 4 .turn,
    .resume 0 (.vaults fundedVaults), .resume 4 (.vaults fundedVaults), .resume 0 .submitted,
    .resume 0 (.result true), .resume 4 .submitted]

theorem release_at_most_once_quiet : ∃ w,
    stepAll (step lockedEvents) orderly (quietPoll 0) (start watchedFile) = some w ∧
      w.submissions.map VaultRelease.key = [(.baseSepolia, 0)] ∧
      (w.submissions.map VaultRelease.key).Nodup := by
  have hrun : (stepAll (step lockedEvents) orderly (quietPoll 0) (start watchedFile)).map
      (fun w => w.submissions.map VaultRelease.key) = some [(.baseSepolia, 0)] := by
    decide
  obtain ⟨w, hw, hkeys⟩ := Option.map_eq_some_iff.mp hrun
  exact ⟨w, hw, hkeys, release_at_most_once lockedEvents watchedFile (Reaches.start.stepAll hw)⟩

/-- Both polls find no record of the deposit, and both release it. -/
theorem overlapping_polls_release_twice : ∃ w,
    Reaches (step lockedEvents) (fun _ _ => true) (start watchedFile) w ∧
      w.submissions.map VaultRelease.key = [(.baseSepolia, 0), (.baseSepolia, 0)] ∧
      ¬(w.submissions.map VaultRelease.key).Nodup := by
  have hrun : (stepAll (step lockedEvents) (fun _ _ => true) overlappingPolls
      (start watchedFile)).map
      (fun w => w.submissions.map VaultRelease.key) =
        some [(.baseSepolia, 0), (.baseSepolia, 0)] := by
    decide
  obtain ⟨w, hw, hkeys⟩ := Option.map_eq_some_iff.mp hrun
  refine ⟨w, Reaches.start.stepAll hw, hkeys, ?_⟩
  rw [hkeys]
  decide

end Sample

end VaultRelayer

end ObscuraNetwork
