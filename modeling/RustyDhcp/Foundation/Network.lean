import Mathlib.Logic.Function.Basic
import RustyDhcp.Foundation.Run

/-! # Machines on one network

Several machines, and inputs that reach one of them at a time. What the machines
send is kept, and an input that carries a kept message is an echo. A machine that
panics stops, and the others go on. -/

namespace RustyDhcp

/-- Machines of one kind, the messages in an output, and whether an input is the
delivery of a message. -/
structure Machines (ι State Input Output Message : Type) where
  step : ι → State → Input → Checked (State × Output)
  sends : Output → List Message
  carries : Input → Message → Bool

/-- The machines that have not stopped, and all that has been sent so far. -/
structure Network (ι State Message : Type) where
  states : ι → Option State
  sent : List Message

/-- An input for one of the machines. -/
structure Delivery (ι Input : Type) where
  machine : ι
  input : Input

/-- A step of a network. There is no output if the machine has stopped. -/
abbrev Delivered (ι State Input Output Message : Type) :=
  Handled (Network ι State Message) (Delivery ι Input) (Option Output)

namespace Machines

variable {ι State Input Output Message : Type} [DecidableEq ι]

def deliver (machines : Machines ι State Input Output Message)
    (network : Network ι State Message) (delivery : Delivery ι Input) :
    Checked (Network ι State Message × Option Output) :=
  match network.states delivery.machine with
  | none => .ok (network, none)
  | some state =>
      match machines.step delivery.machine state delivery.input with
      | .ok (next, output) =>
          .ok (⟨Function.update network.states delivery.machine (some next),
            network.sent ++ machines.sends output⟩, some output)
      | .error _ =>
          .ok (⟨Function.update network.states delivery.machine none, network.sent⟩, none)

/-- What is delivered has been sent by a machine before. -/
def isEcho (machines : Machines ι State Input Output Message)
    (delivered : Delivered ι State Input Output Message) : Bool :=
  delivered.before.sent.any (machines.carries delivered.input.input)

/-- The machines when they are started. -/
def started (states : ι → State) : Network ι State Message where
  states id := some (states id)
  sent := []

/-- What the machines preserve, and what can be said of all that they send. -/
structure Lawful (machines : Machines ι State Input Output Message)
    (Keeps : ι → State → Prop) (Sends : Message → Prop) : Prop where
  keeps : ∀ {id state input next output}, Keeps id state →
    machines.step id state input = .ok (next, output) → Keeps id next
  sends : ∀ {id state input next output}, Keeps id state →
    machines.step id state input = .ok (next, output) →
      ∀ message ∈ machines.sends output, Sends message

/-- Every machine that runs, and every message, is as it should be. -/
structure Sound (Keeps : ι → State → Prop) (Sends : Message → Prop)
    (network : Network ι State Message) : Prop where
  states : ∀ id state, network.states id = some state → Keeps id state
  sent : ∀ message ∈ network.sent, Sends message

variable {machines : Machines ι State Input Output Message}
variable {Keeps : ι → State → Prop} {Sends : Message → Prop}
variable {network next initial final : Network ι State Message}
variable {delivery : Delivery ι Input} {reaction : Option Output}
variable {past : List (Delivered ι State Input Output Message)}

/-! ## One delivery -/

/-- What a delivery can do to a network. -/
inductive Effect (machines : Machines ι State Input Output Message)
    (network : Network ι State Message) (delivery : Delivery ι Input) :
    Network ι State Message → Option Output → Prop
  | lost :
      network.states delivery.machine = none →
      Effect machines network delivery network none
  | ended {state next output} :
      network.states delivery.machine = some state →
      machines.step delivery.machine state delivery.input = .ok (next, output) →
      Effect machines network delivery
        ⟨Function.update network.states delivery.machine (some next),
          network.sent ++ machines.sends output⟩ (some output)
  | stopped {state panic} :
      network.states delivery.machine = some state →
      machines.step delivery.machine state delivery.input = .error panic →
      Effect machines network delivery
        ⟨Function.update network.states delivery.machine none, network.sent⟩ none

theorem effect_of_deliver (delivered : machines.deliver network delivery = .ok (next, reaction)) :
    Effect machines network delivery next reaction := by
  rw [deliver] at delivered
  cases running : network.states delivery.machine with
  | none =>
      rw [running] at delivered
      cases delivered
      exact .lost running
  | some state =>
      cases done : machines.step delivery.machine state delivery.input with
      | error panic =>
          simp only [running, done] at delivered
          cases delivered
          exact .stopped running done
      | ok result =>
          simp only [running, done] at delivered
          cases delivered
          exact .ended running done

theorem Sound.update (sound : Sound Keeps Sends network) {id : ι} {state : Option State}
    (keeps : ∀ running, state = some running → Keeps id running) :
    ∀ other running, Function.update network.states id state other = some running →
      Keeps other running := by
  intro other running found
  rw [Function.update_apply] at found
  split at found
  · rename_i same
    rw [same]
    exact keeps running found
  · exact sound.states other running found

theorem Sound.effect (sound : Sound Keeps Sends network) (lawful : Lawful machines Keeps Sends)
    (effect : Effect machines network delivery next reaction) : Sound Keeps Sends next := by
  cases effect with
  | lost => exact sound
  | stopped =>
      refine ⟨sound.update ?_, sound.sent⟩
      intro running found
      cases found
  | ended running done =>
      have before := sound.states _ _ running
      refine ⟨sound.update ?_, ?_⟩
      · intro state found
        cases found
        exact lawful.keeps before done
      · intro message member
        rcases List.mem_append.mp member with earlier | new
        · exact sound.sent message earlier
        · exact lawful.sends before done message new

omit [DecidableEq ι] in
theorem sound_started {states : ι → State} (keeps : ∀ id, Keeps id (states id)) :
    Sound Keeps Sends (started states) where
  states id state found := by
    cases found
    exact keeps id
  sent message member := nomatch member

theorem sound_of_run (lawful : Lawful machines Keeps Sends) (sound : Sound Keeps Sends initial)
    (run : Run machines.deliver initial past final) : Sound Keeps Sends final :=
  run.invariant sound fun before delivered => before.effect lawful (effect_of_deliver delivered)

omit [DecidableEq ι] in
theorem exists_of_isEcho {delivered : Delivered ι State Input Output Message}
    (echo : machines.isEcho delivered = true) : ∃ message ∈ delivered.before.sent,
      machines.carries delivered.input.input message = true :=
  List.any_eq_true.mp echo

/-! ## Machines that do not react to each other -/

/-- A machine sends nothing when it gets what another one has sent. -/
def Mute (machines : Machines ι State Input Output Message) (Keeps : ι → State → Prop)
    (Sends : Message → Prop) : Prop :=
  ∀ {id state input message next output}, Keeps id state → Sends message →
    machines.carries input message = true →
      machines.step id state input = .ok (next, output) → machines.sends output = []

/-- A machine does nothing at all when it gets what another one has sent. -/
def Inert (machines : Machines ι State Input Output Message) (Keeps : ι → State → Prop)
    (Sends : Message → Prop) : Prop :=
  ∀ {id state input message}, Keeps id state → Sends message →
    machines.carries input message = true →
      ∃ output, machines.step id state input = .ok (state, output) ∧ machines.sends output = []

/-- An echo adds nothing to what is sent. -/
theorem Sound.sent_of_echo (sound : Sound Keeps Sends network) (mute : Mute machines Keeps Sends)
    (echo : ∃ message ∈ network.sent, machines.carries delivery.input message = true)
    (effect : Effect machines network delivery next reaction) : next.sent = network.sent := by
  rcases echo with ⟨message, sent, carries⟩
  cases effect with
  | lost => rfl
  | stopped => rfl
  | ended running done =>
      rw [mute (sound.states _ _ running) (sound.sent message sent) carries done,
        List.append_nil]

theorem Sound.eq_of_echo (sound : Sound Keeps Sends network)
    (inert : Inert machines Keeps Sends)
    (echo : ∃ message ∈ network.sent, machines.carries delivery.input message = true)
    (effect : Effect machines network delivery next reaction) :
    next = network ∧ ∀ output ∈ reaction, machines.sends output = [] := by
  rcases echo with ⟨message, sent, carries⟩
  cases effect with
  | lost => exact ⟨rfl, fun output member => nomatch member⟩
  | stopped running done =>
      rcases inert (sound.states _ _ running) (sound.sent message sent) carries with
        ⟨output, unchanged, _⟩
      rw [unchanged] at done
      cases done
  | ended running done =>
      rcases inert (sound.states _ _ running) (sound.sent message sent) carries with
        ⟨output, unchanged, nothing⟩
      rw [unchanged] at done
      cases done
      refine ⟨?_, ?_⟩
      · rw [← running, Function.update_eq_self, nothing, List.append_nil]
      · intro output member
        cases member
        exact nothing

/-- Echoes can be left out of a run of inert machines. -/
theorem run_without_echoes (lawful : Lawful machines Keeps Sends)
    (inert : Inert machines Keeps Sends) (sound : Sound Keeps Sends initial)
    (run : Run machines.deliver initial past final) :
    Run machines.deliver initial (past.filter fun delivered => !machines.isEcho delivered) final ∧
      ∀ delivered ∈ past, machines.isEcho delivered = true →
        ∀ output ∈ delivered.output, machines.sends output = [] := by
  constructor
  · refine run.erase ?_
    intro earlier delivered before stepped echo
    exact ((sound_of_run lawful sound before).eq_of_echo inert (exists_of_isEcho echo)
      (effect_of_deliver stepped)).1
  · intro delivered member echo
    rcases run.of_mem member with ⟨earlier, before, stepped⟩
    exact ((sound_of_run lawful sound before).eq_of_echo inert (exists_of_isEcho echo)
      (effect_of_deliver stepped)).2

/-- What one delivery can add to what is sent. -/
theorem length_sent_le_add (sound : Sound Keeps Sends network) {most : Nat}
    (bound : ∀ {id state input next output}, Keeps id state →
      machines.step id state input = .ok (next, output) → (machines.sends output).length ≤ most)
    (effect : Effect machines network delivery next reaction) :
    next.sent.length ≤ network.sent.length + most := by
  cases effect with
  | lost => exact Nat.le_add_right _ _
  | stopped => exact Nat.le_add_right _ _
  | ended running done =>
      rw [List.length_append]
      exact Nat.add_le_add_left (bound (sound.states _ _ running) done) _

/-- Mute machines send no more than what comes from outside can give rise to,
however often and to whom their messages are delivered. -/
theorem length_sent_le_mul (lawful : Lawful machines Keeps Sends)
    (mute : Mute machines Keeps Sends) {states : ι → State} (keeps : ∀ id, Keeps id (states id))
    {most : Nat} (bound : ∀ {id state input next output}, Keeps id state →
      machines.step id state input = .ok (next, output) → (machines.sends output).length ≤ most)
    (run : Run machines.deliver (started states) past final) :
    final.sent.length ≤
      (past.filter fun delivered => !machines.isEcho delivered).length * most := by
  have begun : Sound Keeps Sends (started states) := sound_started keeps
  induction run with
  | start => exact Nat.zero_le _
  | @next past before input after output earlier stepped induction =>
      have effect := effect_of_deliver stepped
      have sound := sound_of_run lawful begun earlier
      cases echo : machines.isEcho ⟨before, input, output, after⟩ with
      | true =>
          rw [List.filter_cons_of_neg (by simp [echo]),
            sound.sent_of_echo mute (exists_of_isEcho echo) effect]
          exact induction
      | false =>
          have sent := length_sent_le_add sound bound effect
          rw [List.filter_cons_of_pos (by simp [echo]), List.length_cons, Nat.succ_mul]
          omega

end Machines

end RustyDhcp
