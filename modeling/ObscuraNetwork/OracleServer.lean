import ObscuraNetwork.GuardedMachine
import ObscuraNetwork.OracleRefresh

namespace ObscuraNetwork

namespace SanctionsOracle

structure RootResponse where
  root : String
  depth : UInt32
  addressCount : Nat
  updatedAt : UInt64
  deriving DecidableEq

structure CheckResponse where
  address : String
  sanctioned : Bool
  deriving DecidableEq

/-- What a route answers: its body, or a status with an error text. -/
inductive Reply (α : Type) where
  | body (value : α)
  | refused (status : Nat) (error : String)

/-- `parse_addr`: the address of a query, left-padded with zeros. -/
def parseAddr (b : Build) (s : String) : Outcome Bytes32 := do
  let text := (stripHexPrefix (trimChars s.toList)).flatMap String.utf8EncodeChar
  ensure (text.length = 40) (.bail "Address must be 40 hex chars (20 bytes)")
  match hexDecode 0 text with
  | .error (c, i) => .error (.bail (b.hexErrorText c i))
  | .ok bytes =>
    if h : bytes.length = 20 then pure (paddedAddress ⟨bytes, h⟩)
    else .error (.bail "Invalid string length")

def getRoot (s : OracleState) : Outcome RootResponse := do
  let root ← s.tree.root
  pure ⟨"0x" ++ hexEncode root.bytes, s.tree.depth, s.addressCount, s.updatedAt⟩

/-- A route's error becomes an answer with the status; a panic stays one. -/
def answer {α : Type} (status : Nat) : Outcome α → Outcome (Reply α)
  | .ok a => pure (.body a)
  | .error (.bail e) => pure (.refused status e)
  | .error (.panic message) => .error (.panic message)

def getWitness (b : Build) (timestamp : UInt64) (addr : String) (s : OracleState) :
    Outcome (Reply NonMembershipWitness) :=
  match parseAddr b addr with
  | .error e => answer 400 (.error e)
  | .ok address => answer 403 (s.tree.nonMembershipWitness b.sha256 address timestamp)

def checkAddress (b : Build) (addr : String) (s : OracleState) : Outcome (Reply CheckResponse) :=
  match parseAddr b addr with
  | .error e => answer 400 (.error e)
  | .ok address => pure (.body ⟨addr, s.tree.isSanctioned b.sha256 address⟩)

/-- `OracleState::build`: without a list the server does not start. -/
def OracleState.build (sha256 : Bytes → Bytes32) (ctx : RefreshContext)
    (sdnPath refreshSecret : Option String) : Outcome OracleState := do
  let (addresses, _) ← loadAddresses ctx sdnPath
  let tree ← SanctionsOracle.build sha256 addresses
  pure ⟨tree, ctx.now, addresses.length, sdnPath, refreshSecret⟩

/-- Where a call of `refresh` stands between two takings of the lock. -/
inductive RefreshTask where
  | authorised
  | built (tree : SanctionsMerkleTree) (root : Bytes32) (addressCount : Nat) (now : UInt64)
  | answered (reply : Outcome RefreshReply)

structure OracleServer where
  state : OracleState
  tasks : List RefreshTask

/-- A refresh is posted, loads the list without the lock, or takes the lock to write. -/
inductive ServerEvent where
  | post (secret : Option String)
  | load (i : Nat) (ctx : RefreshContext)
  | write (i : Nat)

namespace OracleServer

def authorise (secret : Option String) (s : OracleState) : RefreshTask :=
  match checkSecret s.refreshSecret secret with
  | some error => .answered (pure (.refused 401 error))
  | none => .authorised

def loaded (sha256 : Bytes → Bytes32) (ctx : RefreshContext) (s : OracleState) : RefreshTask :=
  match loadAddresses ctx s.sdnPath with
  | .error (.bail e) => .answered (pure (.refused 500 e))
  | .error (.panic message) => .answered (.error (.panic message))
  | .ok (addresses, _) =>
    match buildWithRoot sha256 addresses with
    | .error e => .answered (.error e)
    | .ok (tree, root) => .built tree root addresses.length ctx.now

def refreshReply (root : Bytes32) (addressCount : Nat) (now : UInt64) : RefreshReply :=
  .refreshed ("0x" ++ hexEncode root.bytes) addressCount now

def step (sha256 : Bytes → Bytes32) (s : OracleServer) : ServerEvent → Option OracleServer
  | .post secret => some { s with tasks := s.tasks ++ [authorise secret s.state] }
  | .load i ctx =>
    match s.tasks[i]? with
    | some .authorised => some { s with tasks := s.tasks.set i (loaded sha256 ctx s.state) }
    | _ => none
  | .write i =>
    match s.tasks[i]? with
    | some (.built tree root addressCount now) =>
      some
        { state := { s.state with tree, addressCount, updatedAt := now }
          tasks := s.tasks.set i (.answered (pure (refreshReply root addressCount now))) }
    | _ => none

/-- A list of addresses takes at most `isize::MAX` bytes. -/
def allowed (s : OracleServer) : ServerEvent → Bool
  | .load _ ctx =>
    match loadAddresses ctx s.state.sdnPath with
    | .ok (addresses, _) => decide (32 * addresses.length < 2 ^ 63)
    | .error _ => true
  | _ => true

def run (sha256 : Bytes → Bytes32) (start : OracleState) (events : List ServerEvent) :
    Option OracleServer :=
  stepAll (step sha256) allowed events ⟨start, []⟩

end OracleServer

/-- What was read for the list of a refresh. -/
def loadOf (events : List ServerEvent) (i : Nat) : Option RefreshContext :=
  events.findSome? fun event =>
    match event with
    | .load j ctx => if j = i then some ctx else none
    | _ => none

/-- The refresh that took the lock last to write. -/
def lastWrite (events : List ServerEvent) : Option Nat :=
  events.reverse.findSome? fun event =>
    match event with
    | .write i => some i
    | _ => none

/-- The load whose list is served: that of the last refresh that wrote, or that of the start. -/
def servedLoad (start : RefreshContext) (events : List ServerEvent) : RefreshContext :=
  ((lastWrite events).bind (loadOf events)).getD start

/-- The tree, the count and the time all belong to the list of one load. -/
structure Snapshot (sha256 : Bytes → Bytes32) (ctx : RefreshContext) (sdnPath : Option String)
    (slice : AddressSlice) (tree : SanctionsMerkleTree) (addressCount : Nat) (now : UInt64) :
    Prop where
  loaded : ∃ xml, loadAddresses ctx sdnPath = .ok (slice.addresses, xml)
  tree : build sha256 slice.addresses = .ok tree
  addressCount : addressCount = slice.addresses.length
  now : now = ctx.now

/-- The invariant of a run: the state is the snapshot of the served load, and what waits for the
lock is the snapshot of its own. -/
structure Serves (sha256 : Bytes → Bytes32) (start : RefreshContext) (sdnPath : Option String)
    (s : OracleServer) (events : List ServerEvent) : Prop where
  path : s.state.sdnPath = sdnPath
  state : ∃ slice, Snapshot sha256 (servedLoad start events) sdnPath slice s.state.tree
    s.state.addressCount s.state.updatedAt
  waiting : ∀ i tree root addressCount now,
    s.tasks[i]? = some (.built tree root addressCount now) →
    ∃ ctx slice, loadOf events i = some ctx ∧
      Snapshot sha256 ctx sdnPath slice tree addressCount now
  unloaded : ∀ i, s.tasks.length ≤ i ∨ s.tasks[i]? = some .authorised → loadOf events i = none
  written : ∀ i, lastWrite events = some i → loadOf events i ≠ none

section OracleServer

variable {sha256 : Bytes → Bytes32} {start ctx : RefreshContext} {sdnPath : Option String}
  {slice : AddressSlice} {tree : SanctionsMerkleTree} {addressCount : Nat} {now : UInt64}
  {s s' : OracleServer} {events : List ServerEvent}

theorem loadOf_concat (events : List ServerEvent) (event : ServerEvent) (i : Nat) :
    loadOf (events ++ [event]) i = (loadOf events i).or (loadOf [event] i) :=
  List.findSome?_append

theorem loadOf_kept {event : ServerEvent} {i : Nat} (h : loadOf events i = some ctx) :
    loadOf (events ++ [event]) i = some ctx := by
  rw [loadOf_concat, h, Option.some_or]

theorem lastWrite_concat (events : List ServerEvent) (event : ServerEvent) :
    lastWrite (events ++ [event]) = (lastWrite [event]).or (lastWrite events) := by
  rw [lastWrite, List.reverse_append, List.findSome?_append]
  rfl

/-- Another event than a write leaves the served load as it is. -/
theorem servedLoad_kept {event : ServerEvent} (hevent : lastWrite [event] = none)
    (hwritten : ∀ i, lastWrite events = some i → loadOf events i ≠ none) :
    servedLoad start (events ++ [event]) = servedLoad start events := by
  rw [servedLoad, servedLoad, lastWrite_concat, hevent, Option.none_or]
  cases hlast : lastWrite events with
  | none => rfl
  | some i =>
    obtain ⟨ctx, hctx⟩ := Option.ne_none_iff_exists'.mp (hwritten i hlast)
    rw [Option.bind_some, Option.bind_some, hctx, loadOf_kept hctx]

theorem written_kept {event : ServerEvent} (hevent : lastWrite [event] = none)
    (hwritten : ∀ i, lastWrite events = some i → loadOf events i ≠ none) (i : Nat)
    (h : lastWrite (events ++ [event]) = some i) : loadOf (events ++ [event]) i ≠ none := by
  rw [lastWrite_concat, hevent, Option.none_or] at h
  obtain ⟨ctx, hctx⟩ := Option.ne_none_iff_exists'.mp (hwritten i h)
  rw [loadOf_kept hctx]
  exact Option.some_ne_none ctx

/-- What a load leaves to be written is a snapshot of what it read. -/
theorem loaded_built {root : Bytes32} {i : Nat}
    (hallowed : OracleServer.allowed s (.load i ctx) = true)
    (h : OracleServer.loaded sha256 ctx s.state = .built tree root addressCount now) :
    ∃ slice, Snapshot sha256 ctx s.state.sdnPath slice tree addressCount now := by
  unfold OracleServer.loaded at h
  split at h
  next => cases h
  next => cases h
  next addresses xml hload =>
    split at h
    next => cases h
    next tree' root' hbuild =>
      cases h
      have hfits : 32 * addresses.length < 2 ^ 63 := by
        rw [OracleServer.allowed, hload] at hallowed
        exact of_decide_eq_true hallowed
      obtain ⟨built, hbuilt, hroot⟩ := bind_ok.mp hbuild
      obtain ⟨_, _, hpair⟩ := bind_ok.mp hroot
      cases hpair
      exact ⟨⟨addresses, hfits⟩, ⟨xml, hload⟩, hbuilt, rfl, rfl⟩

theorem loaded_ne_authorised {state : OracleState} :
    OracleServer.loaded sha256 ctx state ≠ .authorised := by
  unfold OracleServer.loaded
  split
  · simp
  · simp
  · split <;> simp

theorem authorise_ne_built {secret : Option String} {state : OracleState} {root : Bytes32} :
    OracleServer.authorise secret state ≠ .built tree root addressCount now := by
  unfold OracleServer.authorise
  split <;> simp

theorem Serves.post (h : Serves sha256 start sdnPath s events) (secret : Option String) :
    Serves sha256 start sdnPath
      { s with tasks := s.tasks ++ [OracleServer.authorise secret s.state] }
      (events ++ [.post secret]) := by
  have hload : ∀ i, loadOf (events ++ [.post secret]) i = loadOf events i := by
    intro i
    rw [loadOf_concat]
    exact Option.or_none
  refine ⟨h.path, ?_, ?_, ?_, written_kept rfl h.written⟩
  · rw [servedLoad_kept rfl h.written]
    exact h.state
  · intro i tree root addressCount now htask
    rw [hload]
    rw [List.getElem?_append] at htask
    split at htask
    next => exact h.waiting i tree root addressCount now htask
    next =>
      obtain ⟨_, hnew⟩ := List.getElem?_eq_some_iff.mp htask
      rw [List.getElem_singleton] at hnew
      exact absurd hnew authorise_ne_built
  · intro i hi
    rw [hload]
    refine h.unloaded i ?_
    rw [List.length_append, List.length_singleton] at hi
    by_cases hlt : i < s.tasks.length
    · rw [List.getElem?_append_left hlt] at hi
      exact Or.inr (hi.resolve_left (by omega))
    · exact Or.inl (by omega)

theorem Serves.load (h : Serves sha256 start sdnPath s events) {i : Nat}
    (htask : s.tasks[i]? = some .authorised)
    (hallowed : OracleServer.allowed s (.load i ctx) = true) :
    Serves sha256 start sdnPath
      { s with tasks := s.tasks.set i (OracleServer.loaded sha256 ctx s.state) }
      (events ++ [.load i ctx]) := by
  have hnew : loadOf (events ++ [.load i ctx]) i = some ctx := by
    rw [loadOf_concat, h.unloaded i (Or.inr htask), Option.none_or]
    simp [loadOf]
  have hother : ∀ j, j ≠ i → loadOf (events ++ [.load i ctx]) j = loadOf events j := by
    intro j hj
    rw [loadOf_concat]
    simp [loadOf, hj.symm]
  obtain ⟨hlt, _⟩ := List.getElem?_eq_some_iff.mp htask
  refine ⟨h.path, ?_, ?_, ?_, written_kept rfl h.written⟩
  · rw [servedLoad_kept rfl h.written]
    exact h.state
  · intro j tree root addressCount now hj
    rw [List.getElem?_set] at hj
    by_cases hji : i = j
    · subst hji
      rw [if_pos rfl, if_pos hlt] at hj
      obtain ⟨slice, hslice⟩ := loaded_built hallowed (Option.some.inj hj)
      exact ⟨ctx, slice, hnew, h.path ▸ hslice⟩
    · rw [if_neg hji] at hj
      rw [hother j (Ne.symm hji)]
      exact h.waiting j tree root addressCount now hj
  · intro j hj
    rw [List.length_set, List.getElem?_set] at hj
    by_cases hji : i = j
    · subst hji
      rw [if_pos rfl, if_pos hlt] at hj
      rcases hj with hlong | htask'
      · omega
      · exact absurd (Option.some.inj htask') loaded_ne_authorised
    · rw [if_neg hji] at hj
      rw [hother j (Ne.symm hji)]
      exact h.unloaded j hj

theorem Serves.write (h : Serves sha256 start sdnPath s events) {i : Nat} {root : Bytes32}
    (htask : s.tasks[i]? = some (.built tree root addressCount now))
    (reply : Outcome RefreshReply) :
    Serves sha256 start sdnPath
      ⟨{ s.state with tree, addressCount, updatedAt := now }, s.tasks.set i (.answered reply)⟩
      (events ++ [.write i]) := by
  obtain ⟨ctx, slice, hctx, hslice⟩ := h.waiting i tree root addressCount now htask
  have hload : ∀ j, loadOf (events ++ [.write i]) j = loadOf events j := by
    intro j
    rw [loadOf_concat]
    exact Option.or_none
  have hlast : lastWrite (events ++ [.write i]) = some i := by
    rw [lastWrite_concat]
    rfl
  have hset : ∀ (j : Nat) (task : RefreshTask),
      (s.tasks.set i (RefreshTask.answered reply))[j]? = some task →
      (∀ r, task ≠ .answered r) → s.tasks[j]? = some task := by
    intro j task hj hne
    rw [List.getElem?_set] at hj
    split at hj
    next =>
      split at hj
      next => exact absurd (Option.some.inj hj).symm (hne reply)
      next => cases hj
    next => exact hj
  refine ⟨h.path, ⟨slice, ?_⟩, ?_, ?_, ?_⟩
  · rw [servedLoad, hlast, Option.bind_some, hload, hctx]
    exact hslice
  · intro j tree' root' addressCount' now' hj
    rw [hload]
    exact h.waiting j tree' root' addressCount' now' (hset j _ hj (by simp))
  · intro j hj
    rw [hload]
    rw [List.length_set] at hj
    exact h.unloaded j (hj.imp_right fun hj => hset j _ hj (by simp))
  · intro j hj
    rw [hlast] at hj
    cases hj
    rw [hload, hctx]
    exact Option.some_ne_none ctx

theorem Serves.step (h : Serves sha256 start sdnPath s events) {event : ServerEvent}
    (hallowed : OracleServer.allowed s event = true)
    (hstep : OracleServer.step sha256 s event = some s') :
    Serves sha256 start sdnPath s' (events ++ [event]) := by
  cases event with
  | post secret =>
    cases hstep
    exact h.post secret
  | load i ctx =>
    simp only [OracleServer.step] at hstep
    split at hstep
    next htask =>
      cases hstep
      exact h.load htask hallowed
    next => cases hstep
  | write i =>
    simp only [OracleServer.step] at hstep
    split at hstep
    next htask =>
      cases hstep
      exact h.write htask _
    next => cases hstep

/-- The state before any event is the snapshot of the load it was built from. -/
theorem serves_start {refreshSecret : Option String} {state : OracleState}
    (hbuild : OracleState.build sha256 start sdnPath refreshSecret = .ok state)
    (hfits : ∀ addresses xml, loadAddresses start sdnPath = .ok (addresses, xml) →
      32 * addresses.length < 2 ^ 63) : Serves sha256 start sdnPath ⟨state, []⟩ [] := by
  obtain ⟨⟨addresses, xml⟩, hload, hrest⟩ := bind_ok.mp hbuild
  obtain ⟨tree, htree, hstate⟩ := bind_ok.mp hrest
  cases hstate
  refine ⟨rfl, ⟨⟨addresses, hfits addresses xml hload⟩, ⟨xml, hload⟩, htree, rfl, rfl⟩, ?_, ?_, ?_⟩
  · intro i tree root addressCount now htask
    rw [List.getElem?_nil] at htask
    cases htask
  · intro i _
    rfl
  · intro i hlast
    cases hlast

section Uninterrupted

variable {secret : Option String} {addresses : List Bytes32} {xml : String}

theorem step_post (s : OracleServer) : OracleServer.step sha256 s (.post secret) =
    some { s with tasks := s.tasks ++ [OracleServer.authorise secret s.state] } := rfl

theorem step_load {task : RefreshTask} {tasks : List RefreshTask} {state : OracleState}
    (h : task = .authorised) :
    OracleServer.step sha256 ⟨state, tasks ++ [task]⟩ (.load tasks.length ctx) =
      some ⟨state, tasks ++ [OracleServer.loaded sha256 ctx state]⟩ := by
  have htask : (tasks ++ [task])[tasks.length]? = some .authorised := by
    rw [List.getElem?_append_right le_rfl, Nat.sub_self, h]
    rfl
  simp only [OracleServer.step, htask, List.set_append_right _ _ le_rfl, Nat.sub_self]
  rfl

theorem step_write {task : RefreshTask} {root : Bytes32} {tasks : List RefreshTask}
    {state : OracleState} (h : task = .built tree root addressCount now) :
    OracleServer.step sha256 ⟨state, tasks ++ [task]⟩ (.write tasks.length) =
      some ⟨{ state with tree, addressCount, updatedAt := now },
        tasks ++ [.answered (pure (OracleServer.refreshReply root addressCount now))]⟩ := by
  have htask : (tasks ++ [task])[tasks.length]? = some (.built tree root addressCount now) := by
    rw [List.getElem?_append_right le_rfl, Nat.sub_self, h]
    rfl
  simp only [OracleServer.step, htask, List.set_append_right _ _ le_rfl, Nat.sub_self]
  rfl

theorem refresh_of_built {root : Bytes32} {state : OracleState}
    (hsecret : checkSecret state.refreshSecret secret = none)
    (h : OracleServer.loaded sha256 ctx state = .built tree root addressCount now) :
    refresh sha256 ctx secret state =
      (pure (OracleServer.refreshReply root addressCount now),
        { state with tree, addressCount, updatedAt := now }) := by
  unfold OracleServer.loaded at h
  split at h
  next => cases h
  next => cases h
  next hload =>
    split at h
    next => cases h
    next hbuild =>
      cases h
      simp only [refresh, hsecret, hload, hbuild]
      rfl

theorem refresh_of_answered {reply : Outcome RefreshReply} {state : OracleState}
    (hsecret : checkSecret state.refreshSecret secret = none)
    (h : OracleServer.loaded sha256 ctx state = .answered reply) :
    refresh sha256 ctx secret state = (reply, state) := by
  unfold OracleServer.loaded at h
  split at h
  next hload =>
    cases h
    simp only [refresh, hsecret, hload]
  next hload =>
    cases h
    simp only [refresh, hsecret, hload]
  next hload =>
    split at h
    next hbuild =>
      cases h
      simp only [refresh, hsecret, hload, hbuild]
    next => cases h

/-- A refresh that nothing comes between is the handler as one step. -/
theorem refresh_uninterrupted (secret : Option String) (state : OracleState)
    (tasks : List RefreshTask)
    (hallowed : OracleServer.allowed ⟨state, []⟩ (.load 0 ctx) = true) :
    ∃ rest, rest <+: [.load tasks.length ctx, .write tasks.length] ∧
      stepAll (OracleServer.step sha256) OracleServer.allowed (.post secret :: rest)
        ⟨state, tasks⟩ =
      some ⟨(refresh sha256 ctx secret state).2,
        tasks ++ [.answered (refresh sha256 ctx secret state).1]⟩ := by
  have hpost : OracleServer.allowed ⟨state, tasks⟩ (.post secret) = true := rfl
  have hload : ∀ task, OracleServer.allowed ⟨state, tasks ++ [task]⟩ (.load tasks.length ctx) =
      true := fun _ => hallowed
  cases hsecret : checkSecret state.refreshSecret secret with
  | some error =>
    refine ⟨[], List.nil_prefix, ?_⟩
    rw [refresh_unauthorised hsecret]
    simp only [stepAll, hpost, if_true, step_post, Option.bind_some, OracleServer.authorise,
      hsecret]
    rfl
  | none =>
    have hauthorised : OracleServer.authorise secret state = .authorised := by
      rw [OracleServer.authorise, hsecret]
    cases htask : OracleServer.loaded sha256 ctx state with
    | authorised => exact absurd htask loaded_ne_authorised
    | built tree root addressCount now =>
      refine ⟨_, List.prefix_refl _, ?_⟩
      have hwrite : OracleServer.allowed ⟨state, tasks ++ [.built tree root addressCount now]⟩
          (.write tasks.length) = true := rfl
      rw [refresh_of_built hsecret htask]
      simp only [stepAll, hpost, if_true, step_post, Option.bind_some, hload,
        step_load hauthorised, htask, hwrite, step_write rfl]
    | answered reply =>
      refine ⟨_, List.prefix_append [ServerEvent.load tasks.length ctx] _, ?_⟩
      rw [refresh_of_answered hsecret htask]
      simp only [stepAll, hpost, if_true, step_post, Option.bind_some, hload,
        step_load hauthorised, htask]

end Uninterrupted

/-- The root of a witness is that of the tree. -/
theorem witness_root {address : Bytes32} {timestamp : UInt64} {w : NonMembershipWitness}
    (h : tree.nonMembershipWitness sha256 address timestamp = .ok w) :
    tree.root = .ok w.sanctionsRoot := by
  simp only [SanctionsMerkleTree.nonMembershipWitness, bind_ok, ensure_ok, pure_ok] at h
  obtain ⟨_, _, _, _, _, _, _, _, root, hroot, _, _, _, _, rfl⟩ := h
  exact hroot

/-- The query parser reads the same texts as the parser of the list. -/
theorem parseAddr_ok {b : Build} {addr : String} {address : Bytes32} :
    parseAddr b addr = .ok address ↔ parseEthAddress addr = some address := by
  unfold parseAddr parseEthAddress
  generalize (stripHexPrefix (trimChars addr.toList)).flatMap String.utf8EncodeChar = text
  dsimp only
  by_cases hlen : text.length = 40
  · rw [ensure_true hlen, ok_bind, if_neg (not_not.mpr hlen)]
    cases hexDecode 0 text with
    | error e => simp
    | ok bytes =>
      by_cases hsize : bytes.length = 20
      · simp [hsize]
      · simp [hsize]
  · rw [ensure_false hlen, error_bind, if_pos hlen]
    simp

theorem parseAddr_noPanic (b : Build) (addr : String) : NoPanic (parseAddr b addr) := by
  refine (noPanic_ensure _ _).bind fun _ _ => ?_
  split
  · exact noPanic_bail _
  · split
    · exact noPanic_ok _
    · exact noPanic_bail _

/-- What the routes answer to a query of an address while a list is served. -/
structure AnswersAgree (b : Build) (s : OracleState) (addresses : List Bytes32) (root : Bytes32)
    (addr : String) (timestamp : UInt64) : Prop where
  reported : getRoot s =
    .ok ⟨"0x" ++ hexEncode root.bytes, s.tree.depth, s.addressCount, s.updatedAt⟩
  unparsed : (∀ address, parseEthAddress addr ≠ some address) → ∃ text,
    checkAddress b addr s = .ok (.refused 400 text) ∧
      getWitness b timestamp addr s = .ok (.refused 400 text)
  parsed : ∀ address, parseEthAddress addr = some address →
    (checkAddress b addr s = .ok (.body ⟨addr, true⟩) ∧
      ∃ text, getWitness b timestamp addr s = .ok (.refused 403 text)) ∨
    (checkAddress b addr s = .ok (.body ⟨addr, false⟩) ∧ address ∉ addresses ∧
      ∃ w, getWitness b timestamp addr s = .ok (.body w) ∧
        ∀ t, sanctionsMain b.sha256 (w.forRecipient address t) =
          .ok ⟨recipientCommitment b.sha256 address, root, true, t⟩)

theorem answers_agree {b : Build} {state : OracleState}
    (htree : build b.sha256 slice.addresses = .ok state.tree) :
    ∃ root, ∀ addr timestamp,
      AnswersAgree b state slice.addresses root addr timestamp := by
  obtain ⟨tree, d, hbuild, hb⟩ := build_ok b.sha256 slice.addresses
  cases Except.ok.inj (htree.symm.trans hbuild)
  obtain ⟨root, hroot⟩ : ∃ root, state.tree.root = .ok root := ⟨_, built_root hb⟩
  refine ⟨root, fun addr timestamp => ⟨?_, fun hnone => ?_, fun address hparse => ?_⟩⟩
  · rw [getRoot, hroot, ok_bind]
    rfl
  · cases hparse : parseAddr b addr with
    | ok address => exact absurd (parseAddr_ok.mp hparse) (hnone address)
    | error e =>
      cases e with
      | panic message => exact absurd hparse (parseAddr_noPanic b addr message)
      | bail text =>
        refine ⟨text, ?_, ?_⟩
        · rw [checkAddress, hparse]
          rfl
        · rw [getWitness, hparse]
          rfl
  · have hparse' : parseAddr b addr = .ok address := parseAddr_ok.mpr hparse
    have hsanctioned := isSanctioned_iff hb address
    by_cases hm : hashAddr b.sha256 address ∈ state.tree.sortedAddrHashes
    · obtain ⟨text, htext⟩ := nonMembershipWitness_listed hb timestamp hm
      refine Or.inl ⟨?_, text, ?_⟩
      · rw [checkAddress, hparse']
        simp only [hsanctioned.mpr hm]
        rfl
      · rw [getWitness, hparse']
        simp only [htext]
        rfl
    · obtain ⟨w, hw, haccepted⟩ := nonMembershipWitness_unlisted hb timestamp hm
      have hclean : state.tree.isSanctioned b.sha256 address = false :=
        eq_false_of_ne_true fun h => hm (hsanctioned.mp h)
      have hwroot := witness_root hw
      rw [hroot] at hwroot
      refine Or.inr ⟨?_, fun hlisted => ?_, w, ?_, fun t => ?_⟩
      · rw [checkAddress, hparse']
        simp only [hclean]
        rfl
      · exact hm ((hb.mem _).mpr (Or.inr (Or.inr ⟨address, hlisted, rfl⟩)))
      · rw [getWitness, hparse']
        simp only [hw]
        rfl
      · rw [Except.ok.inj hwroot]
        exact sanctionsMain_ok.mpr ⟨haccepted t, rfl⟩

theorem loaded_ok (sha256 : Bytes → Bytes32) {addresses : List Bytes32} {xml : String}
    {state : OracleState} (h : loadAddresses ctx state.sdnPath = .ok (addresses, xml)) :
    ∃ tree root, OracleServer.loaded sha256 ctx state =
      .built tree root addresses.length ctx.now := by
  obtain ⟨tree, root, hbuild⟩ := buildWithRoot_ok sha256 addresses
  refine ⟨tree, root, ?_⟩
  simp only [OracleServer.loaded, h, hbuild]

/-- After any interleaving of refreshes the list served is that of the one load whose refresh took
the lock last, whole, and the routes agree on it: an address that can be read is sanctioned or gets
a witness that the circuit accepts under the reported root, and no listed address gets one. -/
theorem served_answers_agree {b : Build} {start : RefreshContext}
    {sdnPath refreshSecret : Option String} {state : OracleState} {events : List ServerEvent}
    {s : OracleServer} (hbuild : OracleState.build b.sha256 start sdnPath refreshSecret = .ok state)
    (hfits : ∀ addresses xml, loadAddresses start sdnPath = .ok (addresses, xml) →
      32 * addresses.length < 2 ^ 63) (hrun : OracleServer.run b.sha256 state events = some s) :
    ∃ slice root, Snapshot b.sha256 (servedLoad start events) sdnPath slice s.state.tree
      s.state.addressCount s.state.updatedAt ∧
      ∀ addr timestamp, AnswersAgree b s.state slice.addresses root addr timestamp := by
  have hserves : Serves b.sha256 start sdnPath s events :=
    stepAll_invariant (serves_start hbuild hfits) (fun _ _ _ _ h => h.step) hrun
  obtain ⟨slice, hslice⟩ := hserves.state
  obtain ⟨root, hroot⟩ := answers_agree (b := b) hslice.tree
  exact ⟨slice, root, hslice, hroot⟩

end OracleServer

section Sample

/-- The file reads as a text, at a time. -/
def readContext (text : String) (now : UInt64) : RefreshContext where
  files _ := .ok text
  download := .sendFailed "offline"
  now := now

/-- Two refreshes of which the one that has loaded first takes the lock last. -/
def overtakenRefresh : List ServerEvent :=
  [.post none, .post none, .load 0 (readContext (sampleXml "0x") 2), .load 1 (readContext "" 3),
    .write 1, .write 0]

theorem listed_loaded (now : UInt64) : loadAddresses (readContext (sampleXml "0x") now)
    (some "sdn.xml") = .ok ([paddedAddress sampleAddress], sampleXml "0x") := by
  have hparsed : parseEthAddresses ["0x" ++ sampleDigits] = [paddedAddress sampleAddress] := by
    obtain ⟨hspelled, _⟩ := sampleText_spells
    obtain ⟨htrim, hmarker⟩ := extracted_of_scan sampleXml_scanned.1 _ List.mem_cons_self
    rw [parseEthAddresses, List.filterMap_cons,
      (parse_extracted htrim hmarker).mpr ⟨_, hspelled, rfl⟩]
    rfl
  have hscan := sampleXml_scanned.1
  rw [loadAddresses, loadSdn, loadLocalSdn, readContext]
  simp only [pure, Except.pure, ok_bind, hscan, hparsed]

theorem empty_loaded (now : UInt64) :
    loadAddresses (readContext "" now) (some "sdn.xml") = .ok ([], "") := rfl

theorem overtakenRefresh_runs (tree : SanctionsMerkleTree) : ∃ s,
    OracleServer.run ObscuraNetwork.sha256 ⟨tree, 1, 0, some "sdn.xml", none⟩ overtakenRefresh =
      some s := by
  set state : OracleState := ⟨tree, 1, 0, some "sdn.xml", none⟩
  obtain ⟨tree₀, root₀, hfirst⟩ := @loaded_ok (readContext (sampleXml "0x") 2)
    ObscuraNetwork.sha256 _ _ state (listed_loaded 2)
  obtain ⟨tree₁, root₁, hsecond⟩ := @loaded_ok (readContext "" 3) ObscuraNetwork.sha256 _ _ state
    (empty_loaded 3)
  have hlisted : loadAddresses (readContext (sampleXml "0x") 2) state.sdnPath = _ :=
    listed_loaded 2
  have hempty : loadAddresses (readContext "" 3) state.sdnPath = _ := empty_loaded 3
  have hauthorised : OracleServer.authorise none state = .authorised := rfl
  refine Option.isSome_iff_exists.mp ?_
  simp [OracleServer.run, overtakenRefresh, stepAll, OracleServer.allowed, OracleServer.step,
    hauthorised, hlisted, hempty, hfirst, hsecond]

theorem overtaken_refresh_served : ∃ state s,
    OracleState.build ObscuraNetwork.sha256 (readContext "" 1) (some "sdn.xml") none = .ok state ∧
      OracleServer.run ObscuraNetwork.sha256 state overtakenRefresh = some s ∧
      ∃ slice root, Snapshot ObscuraNetwork.sha256 (readContext (sampleXml "0x") 2) (some "sdn.xml")
        slice s.state.tree s.state.addressCount s.state.updatedAt ∧
        ∀ addr timestamp,
          AnswersAgree Build.default s.state slice.addresses root addr timestamp := by
  obtain ⟨tree, d, htree, _⟩ := build_ok ObscuraNetwork.sha256 []
  have hbuild : OracleState.build ObscuraNetwork.sha256 (readContext "" 1) (some "sdn.xml") none =
      .ok ⟨tree, 1, 0, some "sdn.xml", none⟩ := by
    rw [OracleState.build, empty_loaded, ok_bind]
    simp only [htree, ok_bind]
    rfl
  obtain ⟨s, hrun⟩ := overtakenRefresh_runs tree
  refine ⟨_, s, hbuild, hrun, served_answers_agree (b := Build.default) hbuild ?_ hrun⟩
  intro addresses xml hload
  rw [empty_loaded] at hload
  cases hload
  decide

end Sample

end SanctionsOracle

end ObscuraNetwork
