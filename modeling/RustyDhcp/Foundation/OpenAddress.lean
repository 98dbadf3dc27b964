import RustyDhcp.Foundation.LeaseTable

/-! # Addresses that stay open to an owner

An address is open to whoever has it or could take it over. What an event shows
to an owner is open to it, and stays open until somebody else is granted it. -/

namespace RustyDhcp.LeaseTable

variable {takeable later : Option Nat → Prop} {expiry : Nat} {Addr Owner : Type}
variable {table next : LeaseTable Addr Owner} {event : Event Addr Owner}
variable {address : Addr} {owner : Owner}

/-- No lease of somebody else stands in the way. -/
def Open (takeable : Option Nat → Prop) (table : LeaseTable Addr Owner) (address : Addr)
    (owner : Owner) : Prop :=
  ∀ lease, table address = some lease → lease.holder = owner ∨ takeable lease.expiry

theorem Open.mono (opened : table.Open takeable address owner)
    (weaker : ∀ {expiry}, takeable expiry → later expiry) : table.Open later address owner :=
  fun lease found => (opened lease found).imp_right weaker

theorem HeldBy.open (held : table.HeldBy address owner) : table.Open takeable address owner := by
  rcases held with ⟨mine, found, owns⟩
  intro lease read
  cases found.symm.trans read
  exact .inl owns

theorem Free.open (free : table.Free takeable address) : table.Open takeable address owner :=
  fun lease found => .inr (free lease found)

variable [DecidableEq Addr]

theorem heldBy_update {lease : Lease Owner} (owns : lease.holder = owner) :
    HeldBy (Function.update table address (some lease)) address owner :=
  ⟨lease, Function.update_self _ _ _, owns⟩

/-- Who is granted an address has it afterwards. -/
theorem Step.heldBy_of_granted (step : Step takeable expiry table event next)
    (granted : event.granted = some (owner, address)) : next.HeldBy address owner := by
  rcases step.of_granted granted with ⟨held, rfl⟩ | ⟨_, _, rfl⟩
  · exact held
  · exact heldBy_update rfl

omit [DecidableEq Addr] in
theorem Event.shown_of_granted (granted : event.granted = some (owner, address)) :
    event.shown = some (owner, address) := by
  cases event with
  | confirm => exact granted
  | commit => exact granted
  | _ => cases granted

/-- Whoever has an address after a step had it before, or is granted it. -/
theorem Step.heldBy_before (step : Step takeable expiry table event next)
    (held : next.HeldBy address owner) :
    table.HeldBy address owner ∨ event.granted = some (owner, address) := by
  cases step with
  | commit =>
      rcases held.of_update with ⟨rfl, lease, same, rfl⟩ | before
      · cases same
        exact .inr rfl
      · exact .inl before
  | release =>
      rcases held.of_update with ⟨_, lease, same, _⟩ | before
      · cases same
      · exact .inl before
  | _ => exact .inl held

/-- What an event only shows changes nothing. -/
theorem Step.eq_of_not_granted (step : Step takeable expiry table event next)
    (shown : event.shown = some (owner, address)) (ungranted : event.granted = none) :
    next = table := by
  cases step with
  | silent => rfl
  | offerHeld => rfl
  | offerFree => rfl
  | confirm => rfl
  | releaseNothing => rfl
  | commit => cases ungranted
  | release => cases shown

/-- An address that is shown to an owner is open to it. -/
theorem Step.open_of_shown (step : Step takeable expiry table event next)
    (shown : event.shown = some (owner, address)) : next.Open takeable address owner := by
  cases step with
  | silent => cases shown
  | release => cases shown
  | releaseNothing => cases shown
  | offerHeld held =>
      cases shown
      exact held.open
  | offerFree _ free =>
      cases shown
      exact free.open
  | confirm held =>
      cases shown
      exact held.open
  | commit nothing free =>
      cases shown
      exact (heldBy_update rfl).open

/-- An address stays open through every event that does not grant it to somebody
else. -/
theorem Open.step (opened : table.Open later address owner)
    (step : Step takeable expiry table event next)
    (others : ∀ other, event.granted = some (other, address) → other = owner) :
    next.Open later address owner := by
  cases step with
  | silent => exact opened
  | offerHeld => exact opened
  | offerFree => exact opened
  | confirm => exact opened
  | releaseNothing => exact opened
  | @commit other place _ _ =>
      intro lease found
      rw [Function.update_apply] at found
      split at found
      · rename_i here
        cases found
        exact .inl (others other (by rw [here]; rfl))
      · exact opened lease found
  | release =>
      intro lease found
      rw [Function.update_apply] at found
      split at found
      · cases found
      · exact opened lease found

/-- A lease lasts through every event that neither grants its address to somebody
else nor releases what its owner has. -/
theorem HeldBy.step (held : table.HeldBy address owner)
    (step : Step takeable expiry table event next)
    (others : ∀ other, event.granted = some (other, address) → other = owner)
    (kept : event.released ≠ some owner) : next.HeldBy address owner := by
  rcases held with ⟨lease, found, owns⟩
  cases step with
  | silent => exact ⟨lease, found, owns⟩
  | offerHeld => exact ⟨lease, found, owns⟩
  | offerFree => exact ⟨lease, found, owns⟩
  | confirm => exact ⟨lease, found, owns⟩
  | releaseNothing => exact ⟨lease, found, owns⟩
  | @commit other place _ _ =>
      by_cases here : address = place
      · subst here
        exact heldBy_update (others other rfl)
      · exact ⟨lease, by rw [Function.update_of_ne here, found], owns⟩
  | @release other place placeHeld =>
      by_cases here : address = place
      · subst here
        have same := HeldBy.unique placeHeld ⟨lease, found, owns⟩
        exact absurd (congrArg some same) kept
      · exact ⟨lease, by rw [Function.update_of_ne here, found], owns⟩

/-- An address is kept for an owner if it is open to it, and if the owner has it
where nobody could obtain it. -/
structure Kept (obtainable : Prop) (takeable : Option Nat → Prop)
    (table : LeaseTable Addr Owner) (address : Addr) (owner : Owner) : Prop where
  opened : table.Open takeable address owner
  lasting : obtainable ∨ table.HeldBy address owner

theorem Kept.step {obtainable : Prop} (kept : table.Kept obtainable later address owner)
    (step : Step takeable expiry table event next)
    (others : ∀ other, event.granted = some (other, address) → other = owner)
    (lasts : obtainable ∨ event.released ≠ some owner) :
    next.Kept obtainable later address owner := by
  refine ⟨kept.opened.step step others, ?_⟩
  rcases lasts with obtainable | unreleased
  · exact .inl obtainable
  · exact kept.lasting.imp_right fun held => held.step step others unreleased

end RustyDhcp.LeaseTable
