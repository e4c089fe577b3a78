import ObscuraNetwork.SdnAddresses

namespace ObscuraNetwork

namespace SanctionsOracle

structure OracleState where
  tree : SanctionsMerkleTree
  updatedAt : UInt64
  addressCount : Nat
  sdnPath : Option String
  refreshSecret : Option String

/-- What comes of the request for the list: no client, no answer, or an answer with a status whose
body is read or not. -/
inductive Download where
  | buildFailed (e : String)
  | sendFailed (e : String)
  | answered (status : Nat) (text : Except String String)
  deriving DecidableEq

/-- What the handler reads besides its state. -/
structure RefreshContext where
  files : String → Except String String
  download : Download
  now : UInt64

inductive RefreshReply where
  | refreshed (root : String) (addressCount : Nat) (updatedAt : UInt64)
  | refused (status : Nat) (error : String)
  deriving DecidableEq

/-- The status of the answer is not looked at. -/
def fetchOfacSdn : Download → Outcome String
  | .buildFailed e => .error (.bail ("build client: " ++ e))
  | .sendFailed e => .error (.bail ("HTTP GET failed: " ++ e))
  | .answered _ (.error e) => .error (.bail ("reading response: " ++ e))
  | .answered _ (.ok body) => pure body

def loadLocalSdn (files : String → Except String String) (path : String) : Outcome String :=
  match files path with
  | .error e => .error (.bail ("reading " ++ path ++ ": " ++ e))
  | .ok xml => pure xml

def loadSdn (ctx : RefreshContext) : Option String → Outcome String
  | some path => loadLocalSdn ctx.files path
  | none => fetchOfacSdn ctx.download

def loadAddresses (ctx : RefreshContext) (sdnPath : Option String) :
    Outcome (List Bytes32 × String) := do
  let xml ← loadSdn ctx sdnPath
  let raw ← extractEthAddressesFromXml xml
  pure (parseEthAddresses raw, xml)

/-- The error of the secret check, if it fails. -/
def checkSecret (refreshSecret provided : Option String) : Option String :=
  match refreshSecret, provided with
  | none, _ => none
  | some _, none => some "Missing ?secret="
  | some expected, some secret => if secret ≠ expected then some "Invalid secret" else none

def buildWithRoot (sha256 : Bytes → Bytes32) (addresses : List Bytes32) :
    Outcome (SanctionsMerkleTree × Bytes32) := do
  let tree ← build sha256 addresses
  let root ← tree.root
  pure (tree, root)

/-- The handler: its answer and the state it leaves; a handler that panics does not answer. -/
def refresh (sha256 : Bytes → Bytes32) (ctx : RefreshContext) (secret : Option String)
    (s : OracleState) : Outcome RefreshReply × OracleState :=
  match checkSecret s.refreshSecret secret with
  | some error => (pure (.refused 401 error), s)
  | none =>
    match loadAddresses ctx s.sdnPath with
    | .error (.bail e) => (pure (.refused 500 e), s)
    | .error (.panic message) => (.error (.panic message), s)
    | .ok (addresses, _) =>
      match buildWithRoot sha256 addresses with
      | .error e => (.error e, s)
      | .ok (tree, root) =>
        (pure (.refreshed ("0x" ++ hexEncode root.bytes) addresses.length ctx.now),
          { s with tree, addressCount := addresses.length, updatedAt := ctx.now })

def isSuccess (status : Nat) : Bool := decide (200 ≤ status ∧ status < 300)

/-- The list was obtained: its file was read, or the download succeeded. -/
def Obtained (ctx : RefreshContext) (sdnPath : Option String) : Prop :=
  match sdnPath with
  | some path => ∃ xml, ctx.files path = .ok xml
  | none => ∃ status body, ctx.download = .answered status (.ok body) ∧ isSuccess status = true

/-- Without the list the handler answers with an error and the state stays as it is. -/
def FailureKeepsState (sha256 : Bytes → Bytes32) (ctx : RefreshContext) (secret : Option String)
    (s : OracleState) : Prop :=
  ¬Obtained ctx s.sdnPath → ∃ status error,
    (refresh sha256 ctx secret s).1 = .ok (.refused status error) ∧
      (refresh sha256 ctx secret s).2 = s

/-- The request is let through, goes to the server and is answered with the page of a failure. -/
def ErrorPageRead (ctx : RefreshContext) (secret : Option String) (s : OracleState) : Prop :=
  checkSecret s.refreshSecret secret = none ∧ s.sdnPath = none ∧
    ∃ status page, ctx.download = .answered status (.ok page) ∧ isSuccess status = false

section OracleRefresh

variable {sha256 : Bytes → Bytes32} {ctx : RefreshContext} {secret : Option String}
  {s : OracleState}

/-- The functions on the text have no error to return. -/
def NeverBails {α : Type} (x : Outcome α) : Prop := ∀ message, x ≠ .error (.bail message)

theorem NeverBails.bind {α β : Type} {x : Outcome α} {f : α → Outcome β} (hx : NeverBails x)
    (hf : ∀ a, x = .ok a → NeverBails (f a)) : NeverBails (x >>= f) := by
  cases x with
  | ok a => exact hf a rfl
  | error e => exact fun message h => hx message (by simpa using h)

theorem neverBails_ok {α : Type} (a : α) : NeverBails (.ok a : Outcome α) := fun _ h => by
  simp at h

theorem sliceFrom_neverBails (cs : List Char) (n : Nat) : NeverBails (sliceFrom cs n) := by
  fun_induction sliceFrom cs n with
  | case1 cs => exact neverBails_ok cs
  | case2 n => simp [NeverBails]
  | case3 c cs n _ ih => exact ih
  | case4 c cs n _ => simp [NeverBails]

theorem sliceTo_neverBails (cs : List Char) (n : Nat) : NeverBails (sliceTo cs n) := by
  fun_induction sliceTo cs n with
  | case1 cs => exact neverBails_ok []
  | case2 n => simp [NeverBails]
  | case3 c cs n _ ih => exact ih.bind fun rest _ => neverBails_ok (c :: rest)
  | case4 c cs n _ => simp [NeverBails]

theorem scanLoop_neverBails (fuel : Nat) (search : List Char) (addresses : List String) :
    NeverBails (scanLoop fuel search addresses) := by
  induction fuel generalizing search addresses with
  | zero => simp [scanLoop, NeverBails]
  | succ fuel ih =>
    rw [scanLoop]
    split
    next => exact neverBails_ok addresses
    next pos _ =>
      refine (sliceFrom_neverBails _ _).bind fun after _ => ?_
      refine (sliceTo_neverBails _ _).bind fun window _ => ?_
      obtain ⟨found, hfound⟩ := versionDetail_ok window
      rw [hfound, ok_bind]
      exact ih after _

theorem buildWithRoot_ok (sha256 : Bytes → Bytes32) (addresses : List Bytes32) :
    ∃ tree root, buildWithRoot sha256 addresses = .ok (tree, root) := by
  obtain ⟨tree, d, hbuild, hb⟩ := build_ok sha256 addresses
  rw [buildWithRoot, hbuild, ok_bind, built_root hb]
  exact ⟨_, _, rfl⟩

theorem refresh_unauthorised {error : String}
    (h : checkSecret s.refreshSecret secret = some error) :
    refresh sha256 ctx secret s = (.ok (.refused 401 error), s) := by
  rw [refresh, h]
  rfl

theorem refresh_unloaded (h : checkSecret s.refreshSecret secret = none) {e : String}
    (hload : loadSdn ctx s.sdnPath = .error (.bail e)) :
    refresh sha256 ctx secret s = (.ok (.refused 500 e), s) := by
  rw [refresh, h, loadAddresses, hload]
  rfl

/-- Once a text is there the handler answers with no error any more. -/
theorem refresh_loaded (h : checkSecret s.refreshSecret secret = none) {xml : String}
    (hload : loadSdn ctx s.sdnPath = .ok xml) (status : Nat) (error : String) :
    (refresh sha256 ctx secret s).1 ≠ .ok (.refused status error) := by
  have hscan := scanLoop_neverBails (xml.toList.length + 1) xml.toList []
  rw [refresh, h, loadAddresses, hload, ok_bind, extractEthAddressesFromXml]
  cases hraw : scanLoop (xml.toList.length + 1) xml.toList [] with
  | error e =>
    cases e with
    | bail message => exact absurd hraw (hscan message)
    | panic message => simp
  | ok raw =>
    obtain ⟨tree, root, hbuild⟩ := buildWithRoot_ok sha256 (parseEthAddresses raw)
    simp only [ok_bind, pure, Except.pure, hbuild]
    simp

/-- Without the list there is either no text or the page of a failure. -/
theorem not_obtained (h : ¬Obtained ctx s.sdnPath) :
    (∃ e, loadSdn ctx s.sdnPath = .error (.bail e)) ∨
      s.sdnPath = none ∧ ∃ status page, ctx.download = .answered status (.ok page) ∧
        isSuccess status = false := by
  cases hpath : s.sdnPath with
  | some path =>
    rw [hpath] at h
    cases hfile : ctx.files path with
    | error e => exact Or.inl ⟨_, by rw [loadSdn, loadLocalSdn, hfile]⟩
    | ok xml => exact absurd ⟨xml, hfile⟩ h
  | none =>
    rw [hpath] at h
    cases hdownload : ctx.download with
    | buildFailed e => exact Or.inl ⟨_, by rw [loadSdn, hdownload]; rfl⟩
    | sendFailed e => exact Or.inl ⟨_, by rw [loadSdn, hdownload]; rfl⟩
    | answered status text =>
      cases text with
      | error e => exact Or.inl ⟨_, by rw [loadSdn, hdownload]; rfl⟩
      | ok page =>
        refine Or.inr ⟨rfl, status, page, rfl, ?_⟩
        exact eq_false_of_ne_true fun hs => h ⟨status, page, hdownload, hs⟩

/-- A failed refresh leaves the oracle as it is unless a failure comes with a page. -/
theorem failure_keeps_state_iff (sha256 : Bytes → Bytes32) (ctx : RefreshContext)
    (secret : Option String) (s : OracleState) :
    FailureKeepsState sha256 ctx secret s ↔ ¬ErrorPageRead ctx secret s := by
  constructor
  · intro hkeeps hpage
    obtain ⟨hsecret, hpath, status, page, hdownload, hstatus⟩ := hpage
    have hnot : ¬Obtained ctx s.sdnPath := by
      rw [hpath]
      rintro ⟨status', body, hdownload', hsuccess⟩
      rw [hdownload] at hdownload'
      cases hdownload'
      rw [hstatus] at hsuccess
      cases hsuccess
    obtain ⟨code, error, hreply, _⟩ := hkeeps hnot
    have hload : loadSdn ctx s.sdnPath = .ok page := by
      rw [hpath, loadSdn, hdownload]
      rfl
    exact refresh_loaded hsecret hload code error hreply
  · intro hpage hnot
    cases hsecret : checkSecret s.refreshSecret secret with
    | some error =>
      rw [refresh_unauthorised hsecret]
      exact ⟨401, error, rfl, rfl⟩
    | none =>
      rcases not_obtained hnot with ⟨e, hload⟩ | ⟨hpath, hanswer⟩
      · rw [refresh_unloaded hsecret hload]
        exact ⟨500, e, rfl, rfl⟩
      · exact absurd ⟨hsecret, hpath, hanswer⟩ hpage

/-- An oracle with one listed address. -/
def listedState : OracleState where
  tree := listedTree
  updatedAt := 0
  addressCount := 1
  sdnPath := none
  refreshSecret := none

def unavailable : RefreshContext where
  files _ := .error "No such file or directory (os error 2)"
  download := .answered 503 (.ok "Service Unavailable")
  now := 1

/-- The page of a failure is taken for the list, and nobody is sanctioned any more. -/
theorem error_page_empties_list :
    ¬FailureKeepsState ObscuraNetwork.sha256 unavailable none listedState ∧
      listedState.tree.isSanctioned ObscuraNetwork.sha256 sanctionedAddress = true ∧
      (refresh ObscuraNetwork.sha256 unavailable none listedState).2.tree.isSanctioned
        ObscuraNetwork.sha256 sanctionedAddress = false := by
  have hnot : ¬Obtained unavailable listedState.sdnPath := by
    rintro ⟨status, body, hdownload, hsuccess⟩
    cases hdownload
    exact absurd hsuccess (by decide)
  have hload : loadSdn unavailable listedState.sdnPath = .ok "Service Unavailable" := rfl
  refine ⟨fun hkeeps => ?_, by decide +kernel, by decide +kernel⟩
  obtain ⟨status, error, hreply, _⟩ := hkeeps hnot
  exact refresh_loaded rfl hload status error hreply

end OracleRefresh

end SanctionsOracle

end ObscuraNetwork
