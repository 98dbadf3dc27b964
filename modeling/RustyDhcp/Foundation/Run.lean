import RustyDhcp.Foundation.Checked

/-! # Runs of a state machine

A machine is a checked step function. A run keeps every input it handled,
newest first, together with the states around it and the output it gave. -/

namespace RustyDhcp

structure Handled (State Input Output : Type) where
  before : State
  input : Input
  output : Output
  after : State

/-- What can be seen of a step. -/
def Handled.seen (handled : Handled State Input Output) : Input × Output :=
  (handled.input, handled.output)

/-- The machine gets from `initial` to `state` by handling `past`. -/
inductive Run (step : State → Input → Checked (State × Output)) (initial : State) :
    List (Handled State Input Output) → State → Prop
  | start : Run step initial [] initial
  | next {past state input after output} :
      Run step initial past state →
      step state input = .ok (after, output) →
      Run step initial (⟨state, input, output, after⟩ :: past) after

/-- The history that handling the inputs in order adds to `past`. -/
def record (step : State → Input → Checked (State × Output)) :
    State → List (Handled State Input Output) → List Input →
      Checked (List (Handled State Input Output) × State)
  | state, past, [] => .ok (past, state)
  | state, past, input :: inputs => do
      let (next, output) ← step state input
      record step next (⟨state, input, output, next⟩ :: past) inputs

/-- A finished run: where it started, its history and where it got. -/
structure Session (State Input Output : Type) where
  initial : State
  past : List (Handled State Input Output)
  state : State

/-- Handle the inputs in order, from a start that can fail. -/
def simulate (step : State → Input → Checked (State × Output)) (start : Checked State)
    (inputs : List Input) : Checked (Session State Input Output) := do
  let initial ← start
  let (past, state) ← record step initial [] inputs
  return ⟨initial, past, state⟩

/-- Two inputs handled one after the other: the outputs, and the states between
and after them. -/
structure InTurn (State Output : Type) where
  first : Output
  between : State
  second : Output
  after : State

def inTurn (step : State → Input → Checked (State × Output)) (state : State)
    (first second : Input) : Checked (InTurn State Output) := do
  let (between, firstOutput) ← step state first
  let (after, secondOutput) ← step between second
  return ⟨firstOutput, between, secondOutput, after⟩

/-- Readings of a clock that never goes back, newest first. -/
def Chronological (time : η → Nat) (past : List η) : Prop :=
  past.Pairwise fun later earlier => time earlier ≤ time later

instance (time : η → Nat) (past : List η) : Decidable (Chronological time past) :=
  inferInstanceAs (Decidable (past.Pairwise fun later earlier => time earlier ≤ time later))

/-- The newest clock reading of a history. -/
def newest (time : η → Nat) : List η → Nat
  | [] => 0
  | latest :: _ => time latest

theorem Chronological.tail {time : η → Nat} {latest : η} {past : List η}
    (ordered : Chronological time (latest :: past)) : Chronological time past :=
  (List.pairwise_cons.mp ordered).2

theorem Chronological.newest_le {time : η → Nat} {latest : η} {past : List η}
    (ordered : Chronological time (latest :: past)) : newest time past ≤ time latest := by
  cases past with
  | nil => exact Nat.zero_le _
  | cons before past => exact (List.pairwise_cons.mp ordered).1 before (by simp)

theorem inTurn_eq_ok {step : State → Input → Checked (State × Output)}
    {state between after : State} {first second : Input} {firstOutput secondOutput : Output}
    (leads : step state first = .ok (between, firstOutput))
    (follows : step between second = .ok (after, secondOutput)) :
    inTurn step state first second = .ok ⟨firstOutput, between, secondOutput, after⟩ := by
  simp only [inTurn, leads, follows, Checked.bind_ok]
  rfl

namespace Run

variable {step : State → Input → Checked (State × Output)} {initial state : State}
variable {past : List (Handled State Input Output)}

/-- What holds at the start and survives every step holds wherever a run
gets. -/
theorem invariant {Holds : State → Prop} (start : Holds initial)
    (preserved : ∀ {state input next output}, Holds state →
      step state input = .ok (next, output) → Holds next)
    (run : Run step initial past state) : Holds state := by
  induction run with
  | start => exact start
  | next _ stepped induction => exact preserved induction stepped

/-- A run can be taken up where another one ended. -/
theorem append {earlier later : List (Handled State Input Output)} {middle final : State}
    (first : Run step initial earlier middle) (second : Run step middle later final) :
    Run step initial (later ++ earlier) final := by
  induction second with
  | start => exact first
  | next _ stepped induction => exact .next induction stepped

/-- The newest entry of a history is a step from where the rest of it led. -/
theorem latest {handled : Handled State Input Output}
    (run : Run step initial (handled :: past) state) :
    Run step initial past handled.before ∧
      step handled.before handled.input = .ok (handled.after, handled.output) ∧
      handled.after = state := by
  cases run with
  | next earlier stepped => exact ⟨earlier, stepped, rfl⟩

/-- A run can be cut in two. -/
theorem of_append {earlier later : List (Handled State Input Output)}
    (run : Run step initial (later ++ earlier) state) :
    ∃ middle, Run step initial earlier middle ∧ Run step middle later state := by
  induction later generalizing state with
  | nil => exact ⟨state, run, .start⟩
  | cons handled later induction =>
      cases run with
      | next before stepped =>
          rcases induction before with ⟨middle, first, second⟩
          exact ⟨middle, first, .next second stepped⟩

/-- Every entry of a history is a step from a state that the run got to. -/
theorem of_mem {handled : Handled State Input Output}
    (run : Run step initial past state) (member : handled ∈ past) :
    ∃ earlier, Run step initial earlier handled.before ∧
      step handled.before handled.input = .ok (handled.after, handled.output) := by
  induction run with
  | start => cases member
  | next earlier stepped induction =>
      rcases List.mem_cons.mp member with latest | older
      · subst latest
        exact ⟨_, earlier, stepped⟩
      · exact induction older

/-- An invariant that allowed steps preserve, doing something good each time:
where every step of a run is allowed, it holds at the end, and every step did
something good. -/
theorem invariant_of_allowed {Holds : State → Prop}
    {Allowed Good : Handled State Input Output → Prop} (start : Holds initial)
    (preserved : ∀ handled, Holds handled.before →
      step handled.before handled.input = .ok (handled.after, handled.output) →
        Allowed handled → Holds handled.after ∧ Good handled)
    (run : Run step initial past state) (allowed : ∀ handled ∈ past, Allowed handled) :
    Holds state ∧ ∀ handled ∈ past, Good handled := by
  induction run with
  | start =>
      refine ⟨start, ?_⟩
      intro handled listed
      cases listed
  | next earlier stepped induction =>
      rcases List.forall_mem_cons.mp allowed with ⟨latest, older⟩
      rcases induction older with ⟨before, good⟩
      rcases preserved _ before stepped latest with ⟨after, new⟩
      exact ⟨after, List.forall_mem_cons.mpr ⟨new, good⟩⟩

/-- A view of the state that can be brought up to date with every step is the view of
the start, brought up to date with the whole history. -/
theorem replay {view : State → View} {enter : Handled State Input Output → View → View}
    (each : ∀ handled ∈ past, enter handled (view handled.before) = view handled.after)
    (run : Run step initial past state) : view state = past.foldr enter (view initial) := by
  induction run with
  | start => rfl
  | next earlier stepped induction =>
      rcases List.forall_mem_cons.mp each with ⟨latest, older⟩
      rw [List.foldr_cons, ← induction older]
      exact latest.symm

/-- Steps that change nothing can be left out of a run. -/
theorem erase {Idle : Handled State Input Output → Bool}
    (idle : ∀ {earlier handled}, Run step initial earlier handled.before →
      step handled.before handled.input = .ok (handled.after, handled.output) →
        Idle handled = true → handled.after = handled.before)
    (run : Run step initial past state) :
    Run step initial (past.filter fun handled => !Idle handled) state := by
  induction run with
  | start => exact .start
  | @next past state input after output earlier stepped induction =>
      cases quiet : Idle ⟨state, input, output, after⟩ with
      | true =>
          have same : after = state :=
            @idle past ⟨state, input, output, after⟩ earlier stepped quiet
          rw [List.filter_cons_of_neg (by simp [quiet]), same]
          exact induction
      | false =>
          rw [List.filter_cons_of_pos (by simp [quiet])]
          exact .next induction stepped

/-- A machine that keeps up with every step of a run has a run of its own that looks
the same. -/
theorem follow {Other : Type} {otherStep : Other → Input → Checked (Other × Output)}
    {Related : State → Other → Prop} {other : Other} (start : Related initial other)
    (follows : ∀ handled ∈ past, ∀ other, Related handled.before other →
      step handled.before handled.input = .ok (handled.after, handled.output) →
        ∃ next, otherStep other handled.input = .ok (next, handled.output) ∧
          Related handled.after next)
    (run : Run step initial past state) :
    ∃ relived final, Run otherStep other relived final ∧ Related state final ∧
      relived.map Handled.seen = past.map Handled.seen := by
  induction run with
  | start => exact ⟨[], other, .start, start, rfl⟩
  | next earlier stepped induction =>
      rcases List.forall_mem_cons.mp follows with ⟨latest, older⟩
      rcases induction older with ⟨relived, final, again, related, same⟩
      rcases latest final related stepped with ⟨next, done, after⟩
      refine ⟨_, next, .next again done, after, ?_⟩
      rw [List.map_cons, List.map_cons, same]
      rfl

theorem of_record {inputs : List Input} {more : List (Handled State Input Output)}
    {final : State} (run : Run step initial past state)
    (recorded : record step state past inputs = .ok (more, final)) :
    Run step initial more final := by
  induction inputs generalizing past state with
  | nil =>
      cases recorded
      exact run
  | cons input inputs induction =>
      rcases Checked.bind_eq_ok_iff.mp recorded with ⟨⟨next, output⟩, stepped, rest⟩
      exact induction (.next run stepped) rest

theorem of_simulate {start : Checked State} {inputs : List Input}
    {session : Session State Input Output}
    (simulated : simulate step start inputs = .ok session) :
    start = .ok session.initial ∧ Run step session.initial session.past session.state := by
  rcases Checked.bind_eq_ok_iff.mp simulated with ⟨initial, started, rest⟩
  rcases Checked.bind_eq_ok_iff.mp rest with ⟨⟨past, state⟩, recorded, finish⟩
  cases finish
  exact ⟨started, of_record .start recorded⟩

end Run

end RustyDhcp
