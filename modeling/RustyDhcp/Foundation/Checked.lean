import Mathlib.Algebra.Group.Nat.Defs
import Mathlib.Control.Monad.Basic

/-! # Checked execution

Rust code stops with a panic where a Lean function would have to invent a
value: an index past the end, an arithmetic overflow, a division by zero, an
`unwrap` of nothing. `Checked` makes the panic part of the result, so that its
absence is a theorem about the program rather than a choice of the model. -/

namespace RustyDhcp

/-- The reasons for which modelled code can panic. -/
inductive Panic where
  | indexOutOfBounds
  | arithmeticOverflow
  | divisionByZero
  | unwrapFailed
  | assertionFailed
  | lengthMismatch
deriving DecidableEq, Repr

abbrev Checked := Except Panic

/-! ## Fixed-width unsigned arithmetic

The unsigned integers of every width are `BitVec`s. The `Option` forms are
Rust's `checked_add` and `checked_sub`; the `Checked` forms are the plain
operators, which panic. -/

def checkedAdd (left right : BitVec width) : Option (BitVec width) :=
  if left.toNat + right.toNat < 2 ^ width then some (left + right) else none

def checkedSub (left right : BitVec width) : Option (BitVec width) :=
  if right.toNat ≤ left.toNat then some (left - right) else none

theorem checkedAdd_eq_some_iff {left right result : BitVec width} :
    checkedAdd left right = some result ↔
      result.toNat = left.toNat + right.toNat := by
  have bound := result.isLt
  rw [checkedAdd]
  split
  · rename_i fits
    rw [Option.some.injEq, ← BitVec.toNat_inj, BitVec.toNat_add,
      Nat.mod_eq_of_lt fits]
    exact eq_comm
  · simp only [reduceCtorEq, false_iff]
    omega

theorem checkedAdd_eq_none_iff {left right : BitVec width} :
    checkedAdd left right = none ↔ 2 ^ width ≤ left.toNat + right.toNat := by
  simp [checkedAdd]

theorem checkedSub_eq_some_iff {left right result : BitVec width} :
    checkedSub left right = some result ↔
      left.toNat = right.toNat + result.toNat := by
  have bound := left.isLt
  rw [checkedSub]
  split
  · rename_i fits
    rw [Option.some.injEq, ← BitVec.toNat_inj,
      BitVec.toNat_sub_of_le (BitVec.le_def.mpr fits)]
    omega
  · simp only [reduceCtorEq, false_iff]
    omega

namespace Checked

/-- `values[index]` -/
def index (values : List α) (position : Nat) : Checked α :=
  match values[position]? with
  | some value => .ok value
  | none => .error .indexOutOfBounds

/-- `left + right` on unsigned integers of one width. -/
def add (left right : BitVec width) : Checked (BitVec width) :=
  match checkedAdd left right with
  | some sum => .ok sum
  | none => .error .arithmeticOverflow

/-- `left % right` on unsigned integers of one width. -/
def rem (left right : BitVec width) : Checked (BitVec width) :=
  if right.toNat = 0 then .error .divisionByZero else .ok (left % right)

/-- `count - 1` on a `usize` counter. -/
def decrement (count : Nat) : Checked Nat :=
  if count = 0 then .error .arithmeticOverflow else .ok (count - 1)

/-- `count - less` on a `usize`. -/
def sub (count less : Nat) : Checked Nat :=
  if less ≤ count then .ok (count - less) else .error .arithmeticOverflow

/-- `values[start..stop]` -/
def slice (values : List α) (start stop : Nat) : Checked (List α) :=
  if start ≤ stop ∧ stop ≤ values.length then .ok ((values.drop start).take (stop - start))
  else .error .indexOutOfBounds

/-- `values.split_at(middle)` -/
def splitAt (values : List α) (middle : Nat) : Checked (List α × List α) :=
  if middle ≤ values.length then .ok (values.take middle, values.drop middle)
  else .error .indexOutOfBounds

/-- `assert!(condition)` -/
def assert (condition : Bool) : Checked Unit :=
  if condition then .ok () else .error .assertionFailed

/-- `option.unwrap()` -/
def unwrap (option : Option α) : Checked α :=
  match option with
  | some value => .ok value
  | none => .error .unwrapFailed

theorem index_eq_ok {values : List α} {position : Nat} {value : α}
    (found : values[position]? = some value) :
    index values position = .ok value := by
  simp [index, found]

theorem add_eq_ok {left right : BitVec width}
    (fits : left.toNat + right.toNat < 2 ^ width) :
    add left right = .ok (left + right) := by
  simp [add, checkedAdd, fits]

theorem rem_eq_ok {left right : BitVec width} (nonzero : right.toNat ≠ 0) :
    rem left right = .ok (left % right) := by
  simp [rem, nonzero]

theorem decrement_eq_ok {count : Nat} (positive : 0 < count) :
    decrement count = .ok (count - 1) := by
  simp [decrement, Nat.ne_of_gt positive]

theorem sub_eq_ok {count less : Nat} (below : less ≤ count) :
    sub count less = .ok (count - less) := by
  simp [sub, below]

theorem slice_eq_ok {values : List α} {start stop : Nat} (ordered : start ≤ stop)
    (inside : stop ≤ values.length) :
    slice values start stop = .ok ((values.drop start).take (stop - start)) := by
  simp [slice, ordered, inside]

/-- The slice from an index to the end. -/
theorem slice_length {values : List α} {start : Nat} (inside : start ≤ values.length) :
    slice values start values.length = .ok (values.drop start) := by
  rw [slice_eq_ok inside (Nat.le_refl _), ← List.length_drop, List.take_length]

theorem splitAt_eq_ok {values : List α} {middle : Nat} (inside : middle ≤ values.length) :
    splitAt values middle = .ok (values.take middle, values.drop middle) := by
  simp [splitAt, inside]

@[simp] theorem bind_ok (value : α) (next : α → Checked β) :
    ((.ok value : Checked α) >>= next) = next value := rfl

@[simp] theorem pure_eq_ok (value : α) : (pure value : Checked α) = .ok value := rfl

/-- A computation that begins with a step succeeds exactly when the step
succeeds and the rest succeeds on its value. -/
theorem bind_eq_ok_iff {step : Checked α} {next : α → Checked β} {result : β} :
    (step >>= next) = .ok result ↔
      ∃ value, step = .ok value ∧ next value = .ok result := by
  cases step with
  | error panic =>
      constructor
      · exact fun equal => nomatch equal
      · intro found
        rcases found with ⟨_, equal, _⟩
        cases equal
  | ok value =>
      constructor
      · exact fun equal => ⟨value, rfl, equal⟩
      · intro found
        rcases found with ⟨_, equal, rest⟩
        cases equal
        exact rest

/-- A cursor below `count` moves on by one, back to the start behind the last
offset. -/
theorem advance_eq {cursor count : BitVec width} (below : cursor.toNat < count.toNat)
    (next : BitVec width → Checked α) :
    (do let moved ← rem (← add cursor 1) count; next moved) =
      next (.ofNat width ((cursor.toNat + 1) % count.toNat)) := by
  have bound := count.isLt
  have wide : 1 < 2 ^ width := by omega
  have one : (1 : BitVec width).toNat = 1 := Nat.mod_eq_of_lt wide
  have advanced : (cursor + 1).toNat = cursor.toNat + 1 := by
    rw [BitVec.toNat_add, one, Nat.mod_eq_of_lt (by omega)]
  have small := Nat.mod_lt (cursor.toNat + 1) (show 0 < count.toNat by omega)
  have moved : (cursor + 1) % count = .ofNat width ((cursor.toNat + 1) % count.toNat) := by
    apply BitVec.eq_of_toNat_eq
    rw [BitVec.toNat_umod, advanced, BitVec.toNat_ofNat]
    exact (Nat.mod_eq_of_lt (by omega)).symm
  rw [add_eq_ok (by rw [one]; omega), bind_ok, rem_eq_ok (by omega), bind_ok, moved]

/-- Whether a computation succeeds with a value that passes a test. -/
def passes (result : Checked α) (test : α → Bool) : Bool :=
  match result with
  | .ok value => test value
  | .error _ => false

theorem exists_of_passes {result : Checked α} {test : α → Bool}
    (passed : result.passes test = true) :
    ∃ value, result = .ok value ∧ test value = true := by
  cases result with
  | error panic => cases passed
  | ok value => exact ⟨value, rfl, passed⟩

theorem exists_some_of_passes {result : Checked (α × Option β)}
    (passed : passes result (fun value => value.2.isSome) = true) :
    ∃ value found, result = .ok (value, some found) := by
  rcases exists_of_passes passed with ⟨⟨value, answer⟩, equal, isSome⟩
  rcases Option.isSome_iff_exists.mp isSome with ⟨found, same⟩
  exact ⟨value, found, by rw [equal, show answer = some found from same]⟩

end Checked

end RustyDhcp
