import Mathlib.Logic.Basic

/-! # What can be seen of a machine

A transcript is all that a machine puts out on its inputs, up to what stops it, such
as a panic. Machines that agree step by step have the same transcripts. -/

namespace RustyDhcp

/-- The outputs on the inputs in order, and why there are no more of them. -/
def transcript (step : State → Input → Except Stop (State × Output)) :
    State → List Input → List Output × Option Stop
  | _, [] => ([], none)
  | state, input :: inputs =>
      match step state input with
      | .error stop => ([], some stop)
      | .ok (next, output) =>
          let (outputs, stopped) := transcript step next inputs
          (output :: outputs, stopped)

/-- Both machines stop for the same reason, or they put out the same and go on in
related states. -/
inductive Agree {Stop Output : Type} (Related : State → Other → Prop) :
    Except Stop (State × Output) → Except Stop (Other × Output) → Prop
  | stop {stop : Stop} : Agree Related (.error stop) (.error stop)
  | output {state : State} {other : Other} {output : Output} (related : Related state other) :
      Agree Related (.ok (state, output)) (.ok (other, output))

variable {step : State → Input → Except Stop (State × Output)}
variable {otherStep : Other → Input → Except Stop (Other × Output)}
variable {Related : State → Other → Prop} {state : State} {other : Other}

theorem transcript_eq (agree : ∀ {state other} input, Related state other →
      Agree Related (step state input) (otherStep other input))
    (related : Related state other) (inputs : List Input) :
    transcript step state inputs = transcript otherStep other inputs := by
  induction inputs generalizing state other with
  | nil => rfl
  | cons input inputs induction =>
      have here := agree input related
      rw [transcript, transcript]
      generalize step state input = result at here ⊢
      generalize otherStep other input = otherResult at here ⊢
      cases here with
      | stop => rfl
      | output next => simp only [induction next]

/-! ## Where a machine stops -/

/-- In states of a kind that it never leaves, the machine stops at certain inputs
and at no others. -/
structure StopsAt (step : State → Input → Except Stop (State × Output)) (Holds : State → Prop)
    (Stops : Input → Prop) : Prop where
  ends : ∀ {state input}, Holds state → ((∃ result, step state input = .ok result) ↔ ¬Stops input)
  preserved : ∀ {state input next output}, Holds state → step state input = .ok (next, output) →
    Holds next

variable {Holds : State → Prop} {Stops : Input → Prop} {before : List Input}

/-- Inputs that do not stop the machine are all answered. -/
theorem StopsAt.transcript_of_harmless (stops : StopsAt step Holds Stops) (holds : Holds state)
    (harmless : ∀ input ∈ before, ¬Stops input) :
    (transcript step state before).1.length = before.length ∧
      (transcript step state before).2 = none := by
  induction before generalizing state with
  | nil => exact ⟨rfl, rfl⟩
  | cons input before induction =>
      rcases List.forall_mem_cons.mp harmless with ⟨first, harmless⟩
      rcases (stops.ends holds).mpr first with ⟨⟨next, output⟩, done⟩
      rcases induction (stops.preserved holds done) harmless with ⟨length, going⟩
      simp only [transcript, done, List.length_cons, length, going, and_self]

/-- Behind an input that stops it, the machine answers nothing any more. -/
theorem StopsAt.transcript_of_stop (stops : StopsAt step Holds Stops) (holds : Holds state)
    (harmless : ∀ input ∈ before, ¬Stops input) {last : Input} (stop : Stops last)
    (after : List Input) : ∃ reached reason, Holds reached ∧ step reached last = .error reason ∧
      transcript step state (before ++ last :: after) =
        ((transcript step state before).1, some reason) := by
  induction before generalizing state with
  | nil =>
      cases done : step state last with
      | ok result => exact absurd stop ((stops.ends holds).mp ⟨result, done⟩)
      | error reason =>
          refine ⟨state, reason, holds, done, ?_⟩
          simp only [List.nil_append, transcript, done]
  | cons input before induction =>
      rcases List.forall_mem_cons.mp harmless with ⟨first, harmless⟩
      rcases (stops.ends holds).mpr first with ⟨⟨next, output⟩, done⟩
      rcases induction (stops.preserved holds done) harmless with
        ⟨reached, reason, holding, last, rest⟩
      refine ⟨reached, reason, holding, last, ?_⟩
      simp only [List.cons_append, transcript, done, rest]

end RustyDhcp
