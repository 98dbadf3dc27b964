import RustyDhcp.Foundation.Checked

/-! # Decoders

A decoder refuses some inputs with an error, and like any other code it can
panic. -/

namespace RustyDhcp

/-- Why a decoder gives no value: it panics, one of its loops goes on for more
rounds than it was given, or it refuses the input. -/
inductive Failure (Error : Type) where
  | panic (reason : Panic)
  | endless
  | refused (error : Error)
deriving DecidableEq

abbrev Fallible (Error : Type) := Except (Failure Error)

/-- A panic of a step is a panic of the decoder. -/
instance Fallible.ofChecked : MonadLift Checked (Fallible Error) where
  monadLift result := result.mapError Failure.panic

namespace Fallible

def refuse (error : Error) : Fallible Error α := .error (.refused error)

def Panics (result : Fallible Error α) : Prop := ∃ reason, result = .error (.panic reason)

/-- `while let Ok(value) = step`: an error ends the loop, a panic everything. -/
def attempt (result : Fallible Error α) : Fallible Other (Option α) :=
  match result with
  | .ok value => .ok (some value)
  | .error (.refused _) => .ok none
  | .error (.panic reason) => .error (.panic reason)
  | .error .endless => .error .endless

/-- The decoder ends without a panic, with a value or with an error. -/
def Returns (result : Fallible Error α) : Prop :=
  (∃ value, result = .ok value) ∨ ∃ error, result = refuse error

@[simp] theorem bind_ok (value : α) (next : α → Fallible Error β) :
    ((.ok value : Fallible Error α) >>= next) = next value := rfl

@[simp] theorem bind_error (failure : Failure Error) (next : α → Fallible Error β) :
    ((.error failure : Fallible Error α) >>= next) = .error failure := rfl

@[simp] theorem bind_refuse (error : Error) (next : α → Fallible Error β) :
    (refuse error >>= next) = refuse error := rfl

@[simp] theorem pure_eq_ok (value : α) : (pure value : Fallible Error α) = .ok value := rfl

@[simp] theorem lift_ok (value : α) :
    (liftM (.ok value : Checked α) : Fallible Error α) = .ok value := rfl

@[simp] theorem lift_error (reason : Panic) :
    (liftM (.error reason : Checked α) : Fallible Error α) = .error (.panic reason) := rfl

theorem lift_eq_ok_iff {result : Checked α} {value : α} :
    (liftM result : Fallible Error α) = .ok value ↔ result = .ok value := by
  cases result with
  | error reason =>
      rw [lift_error]
      exact iff_of_false (by simp) (by simp)
  | ok found => rw [lift_ok, Except.ok.injEq, Except.ok.injEq]

@[simp] theorem returns_ok (value : α) : Returns (.ok value : Fallible Error α) :=
  .inl ⟨value, rfl⟩

@[simp] theorem returns_refuse (error : Error) : Returns (refuse error : Fallible Error α) :=
  .inr ⟨error, rfl⟩

theorem Returns.bind {step : Fallible Error α} {next : α → Fallible Error β}
    (first : Returns step) (second : ∀ value, step = .ok value → Returns (next value)) :
    Returns (step >>= next) := by
  rcases first with ⟨value, rfl⟩ | ⟨error, rfl⟩
  · exact second value rfl
  · exact returns_refuse error

/-- A computation that begins with a step succeeds exactly when the step
succeeds and the rest succeeds on its value. -/
theorem bind_eq_ok_iff {step : Fallible Error α} {next : α → Fallible Error β} {result : β} :
    (step >>= next) = .ok result ↔
      ∃ value, step = .ok value ∧ next value = .ok result := by
  cases step with
  | error failure =>
      constructor
      · intro equal
        cases equal
      · intro found
        rcases found with ⟨_, equal, _⟩
        cases equal
  | ok value =>
      constructor
      · exact fun equal => ⟨value, rfl, equal⟩
      · intro found
        rcases found with ⟨_, equal, rest⟩
        cases equal
        exact rest

/-! ## Reading item after item -/

/-- Read items until nothing is left, in at most the given rounds. -/
def many (item : List UInt8 → Fallible Error (List UInt8 × α)) :
    (rounds : Nat) → List UInt8 → Fallible Error (List α)
  | _, [] => .ok []
  | 0, _ :: _ => .error .endless
  | rounds + 1, byte :: bytes => do
      let (rest, value) ← item (byte :: bytes)
      let values ← many item rounds rest
      return value :: values

@[simp] theorem many_nil (item : List UInt8 → Fallible Error (List UInt8 × α)) (rounds : Nat) :
    many item rounds [] = .ok [] := by
  cases rounds <;> rfl

theorem many_succ {item : List UInt8 → Fallible Error (List UInt8 × α)} {rounds : Nat}
    {bytes : List UInt8} (more : bytes ≠ []) :
    many item (rounds + 1) bytes = (do
      let (rest, value) ← item bytes
      let values ← many item rounds rest
      return value :: values) := by
  cases bytes with
  | nil => exact absurd rfl more
  | cons byte bytes => rfl

end Fallible

end RustyDhcp
