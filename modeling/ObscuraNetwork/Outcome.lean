import ObscuraNetwork.FixedBytes
import Mathlib.Logic.Function.Basic

namespace ObscuraNetwork

/-- How a call can fail: an `Err` with its text, or a panic. -/
inductive Failure where
  | bail (message : String)
  | panic (message : String)
  deriving DecidableEq

abbrev Outcome := Except Failure

/-- The check that every `bail!` and `assert!` of the source sits behind. -/
def ensure (p : Prop) [Decidable p] (failure : Failure) : Outcome Unit :=
  if p then .ok () else .error failure

@[simp] theorem ensure_ok {p : Prop} [Decidable p] {failure : Failure} {u : Unit} :
    ensure p failure = .ok u ↔ p := by
  unfold ensure
  split <;> simp_all

theorem ensure_true {p : Prop} [Decidable p] {failure : Failure} (h : p) :
    ensure p failure = .ok () := if_pos h

theorem ensure_false {p : Prop} [Decidable p] {failure : Failure} (h : ¬p) :
    ensure p failure = .error failure := if_neg h

theorem isOk_iff {α : Type} {x : Outcome α} : x.isOk = true ↔ ∃ a, x = .ok a := by
  cases x with
  | ok a => exact ⟨fun _ => ⟨a, rfl⟩, fun _ => rfl⟩
  | error e => exact ⟨fun h => absurd h Bool.false_ne_true, fun h => by simp at h⟩

theorem bind_ok {α β : Type} {x : Outcome α} {f : α → Outcome β} {b : β} :
    (x >>= f) = .ok b ↔ ∃ a, x = .ok a ∧ f a = .ok b := by
  cases x with
  | ok a => simp [bind, Except.bind]
  | error e => simp [bind, Except.bind]

@[simp] theorem ok_bind {α β : Type} (a : α) (f : α → Outcome β) :
    ((.ok a : Outcome α) >>= f) = f a := rfl

@[simp] theorem error_bind {α β : Type} (e : Failure) (f : α → Outcome β) :
    ((.error e : Outcome α) >>= f) = .error e := rfl

@[simp] theorem pure_ok {α : Type} {a b : α} : (pure a : Outcome α) = .ok b ↔ a = b := by
  simp [pure, Except.pure]

def ensureAll {α : Type} (p : α → Prop) [DecidablePred p] (failure : α → Failure) :
    List α → Outcome Unit
  | [] => pure ()
  | a :: rest => do
    ensure (p a) (failure a)
    ensureAll p failure rest

@[simp] theorem ensureAll_ok {α : Type} {p : α → Prop} [DecidablePred p] {failure : α → Failure}
    {xs : List α} {u : Unit} : ensureAll p failure xs = .ok u ↔ ∀ a ∈ xs, p a := by
  induction xs with
  | nil => simp [ensureAll]
  | cons a rest ih => simp [ensureAll, bind_ok, ih]

/-- The call returns; at worst it returns an `Err`. -/
def NoPanic {α : Type} (x : Outcome α) : Prop := ∀ message, x ≠ .error (.panic message)

theorem noPanic_ok {α : Type} (a : α) : NoPanic (.ok a : Outcome α) := fun _ h => by simp at h

theorem noPanic_bail {α : Type} (message : String) :
    NoPanic (.error (.bail message) : Outcome α) := fun _ h => by simp at h

theorem NoPanic.bind {α β : Type} {x : Outcome α} {f : α → Outcome β} (hx : NoPanic x)
    (hf : ∀ a, x = .ok a → NoPanic (f a)) : NoPanic (x >>= f) := by
  cases x with
  | ok a => exact hf a rfl
  | error e => exact fun message h => hx message (by simpa using h)

/-- The call returns an `Err`. -/
def Refused {α : Type} (x : Outcome α) : Prop := ∃ message, x = .error (.bail message)

theorem NoPanic.refused {α : Type} {x : Outcome α} (hx : NoPanic x) (h : ∀ a, x ≠ .ok a) :
    Refused x := by
  cases x with
  | ok a => exact absurd rfl (h a)
  | error e =>
    cases e with
    | bail message => exact ⟨message, rfl⟩
    | panic message => exact absurd rfl (hx message)

theorem Refused.noPanic {α : Type} {x : Outcome α} (h : Refused x) : NoPanic x := by
  obtain ⟨message, rfl⟩ := h
  exact noPanic_bail message

theorem Refused.ne_ok {α : Type} {x : Outcome α} (h : Refused x) (a : α) : x ≠ .ok a := by
  obtain ⟨message, rfl⟩ := h
  simp

theorem Refused.bind {α β : Type} {x : Outcome α} (h : Refused x) (f : α → Outcome β) :
    Refused (x >>= f) := by
  obtain ⟨message, rfl⟩ := h
  exact ⟨message, rfl⟩

theorem noPanic_ensure (p : Prop) [Decidable p] (message : String) :
    NoPanic (ensure p (.bail message)) := by
  unfold ensure
  split
  · exact noPanic_ok ()
  · exact noPanic_bail message

theorem noPanic_ensureAll {α : Type} (p : α → Prop) [DecidablePred p] (text : α → String)
    (xs : List α) : NoPanic (ensureAll p (fun a => .bail (text a)) xs) := by
  induction xs with
  | nil => exact noPanic_ok ()
  | cons a rest ih => exact (noPanic_ensure _ _).bind fun _ _ => ih

abbrev StateMap (κ ν : Type) := κ → Option ν

def StateMap.set {κ ν : Type} [DecidableEq κ] (m : StateMap κ ν) (k : κ) (v : ν) : StateMap κ ν :=
  Function.update m k (some v)

@[simp] theorem StateMap.set_self {κ ν : Type} [DecidableEq κ] (m : StateMap κ ν) (k : κ) (v : ν) :
    m.set k v k = some v := Function.update_self k _ m

theorem StateMap.set_of_ne {κ ν : Type} [DecidableEq κ] (m : StateMap κ ν) {k k' : κ} (v : ν)
    (h : k' ≠ k) : m.set k v k' = m k' := Function.update_of_ne h _ m

def saturatingSub (a b : UInt64) : UInt64 := if b ≤ a then a - b else 0

theorem toNat_saturatingSub (a b : UInt64) :
    (saturatingSub a b).toNat = a.toNat - b.toNat := by
  unfold saturatingSub
  split
  next h => exact UInt64.toNat_sub_of_le _ _ h
  next h =>
    have := UInt64.le_iff_toNat_le.not.mp h
    simp
    omega

def hexDigit (n : Nat) : Char :=
  if n < 10 then Char.ofNat (48 + n) else Char.ofNat (87 + n)

def hexEncode (bs : Bytes) : String :=
  String.ofList (bs.flatMap fun b => [hexDigit (b.toNat / 16), hexDigit (b.toNat % 16)])

def debugBytes (bs : Bytes) : String :=
  "[" ++ String.intercalate ", " (bs.map fun b => toString b.toNat) ++ "]"

/-- The `Debug` text of a string without characters to escape. -/
def quoted (s : String) : String := "\"" ++ s ++ "\""

end ObscuraNetwork
