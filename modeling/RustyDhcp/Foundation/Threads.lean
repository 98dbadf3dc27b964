import Mathlib.Logic.Function.Basic
import RustyDhcp.Foundation.Transcript

/-! # Threads

Machines that have nothing in common run side by side, each on its own inputs,
until one of them stops. Whatever the order of the inputs, each of them does what
it does alone. -/

namespace RustyDhcp

variable {ι : Type} [DecidableEq ι] {State Input Output Item : ι → Type}

/-- What belongs to one thread. -/
def pick (thread : ι) (item : Σ thread, Item thread) : Option (Item thread) :=
  if same : item.1 = thread then some (same ▸ item.2) else none

@[simp] theorem pick_self (thread : ι) (item : Item thread) :
    pick thread ⟨thread, item⟩ = some item := dif_pos rfl

theorem pick_other {thread other : ι} (different : other ≠ thread) (item : Item other) :
    pick thread ⟨other, item⟩ = none := dif_neg different

/-- Every input is for one of the machines. -/
def threads
    (step : ∀ thread, State thread → Input thread → Except Stop (State thread × Output thread))
    (states : ∀ thread, State thread) (input : Σ thread, Input thread) :
    Except Stop ((∀ thread, State thread) × Σ thread, Output thread) := do
  let (next, output) ← step input.1 (states input.1) input.2
  return (Function.update states input.1 next, ⟨input.1, output⟩)

variable {step : ∀ thread, State thread → Input thread → Except Stop (State thread × Output thread)}
variable {Holds : ∀ thread, State thread → Prop} {Stops : ∀ thread, Input thread → Prop}
variable {states : ∀ thread, State thread} {thread : ι}

theorem threads_eq_ok {input : Input thread} {next : State thread} {output : Output thread}
    (done : step thread (states thread) input = .ok (next, output)) :
    threads step states ⟨thread, input⟩ =
      .ok (Function.update states thread next, ⟨thread, output⟩) := by
  rw [threads, done]
  rfl

theorem threads_eq_error {input : Input thread} {reason : Stop}
    (failed : step thread (states thread) input = .error reason) :
    threads step states ⟨thread, input⟩ = .error reason := by
  rw [threads, failed]
  rfl

theorem holds_update {next : State thread} (holds : ∀ thread, Holds thread (states thread))
    (new : Holds thread next) (other : ι) :
    Holds other (Function.update states thread next other) := by
  by_cases same : other = thread
  · subst same
    rw [Function.update_self]
    exact new
  · rw [Function.update_of_ne same]
    exact holds other

/-- The threads stop where one of them does. -/
theorem StopsAt.threads (stops : ∀ thread, StopsAt (step thread) (Holds thread) (Stops thread)) :
    StopsAt (threads step) (fun states => ∀ thread, Holds thread (states thread))
      (fun input => Stops input.1 input.2) where
  ends := by
    intro states input holds
    rcases input with ⟨thread, input⟩
    rw [← (stops thread).ends (holds thread)]
    cases done : step thread (states thread) input with
    | error reason =>
        rw [threads_eq_error done]
        exact iff_of_false (by simp) (by simp)
    | ok result =>
        rw [threads_eq_ok done]
        exact iff_of_true ⟨_, rfl⟩ ⟨_, rfl⟩
  preserved := by
    intro states input next output holds done
    rcases input with ⟨thread, input⟩
    cases stepped : step thread (states thread) input with
    | error reason =>
        rw [threads_eq_error stepped] at done
        cases done
    | ok result =>
        rw [threads_eq_ok stepped] at done
        cases done
        exact holds_update holds ((stops thread).preserved (holds thread) stepped)

/-- As long as no other thread stops, one puts out what it puts out alone, and
stops where it does. -/
theorem transcript_thread
    (stops : ∀ thread, StopsAt (step thread) (Holds thread) (Stops thread)) (thread : ι)
    {inputs : List (Σ thread, Input thread)} (holds : ∀ thread, Holds thread (states thread))
    (others : ∀ input ∈ inputs, input.1 ≠ thread → ¬Stops input.1 input.2) :
    ((transcript (threads step) states inputs).1.filterMap (pick thread),
        (transcript (threads step) states inputs).2) =
      transcript (step thread) (states thread) (inputs.filterMap (pick thread)) := by
  induction inputs generalizing states with
  | nil => rfl
  | cons input inputs induction =>
      rcases input with ⟨served, input⟩
      rcases List.forall_mem_cons.mp others with ⟨harmless, others⟩
      by_cases same : served = thread
      · subst same
        rw [List.filterMap_cons_some (pick_self _ _), transcript, transcript]
        cases done : step served (states served) input with
        | error reason =>
            rw [threads_eq_error done]
            rfl
        | ok result =>
            have rest := induction
              (holds_update holds ((stops served).preserved (holds served) done)) others
            rw [Function.update_self] at rest
            rw [threads_eq_ok done]
            dsimp only
            rw [List.filterMap_cons_some (pick_self _ _), ← rest]
      · rcases ((stops served).ends (holds served)).mpr (harmless same) with ⟨result, done⟩
        have rest := induction
          (holds_update holds ((stops served).preserved (holds served) done)) others
        rw [Function.update_of_ne (Ne.symm same)] at rest
        rw [List.filterMap_cons_none (pick_other same _), transcript, threads_eq_ok done]
        dsimp only
        rw [List.filterMap_cons_none (pick_other same _), rest]

end RustyDhcp
