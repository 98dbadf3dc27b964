import Mathlib.Data.List.Nodup
import RustyDhcp.Foundation.LeaseTable

/-! # Reservations

A reservation is a lease for good of an owner who holds nothing else. It lasts
until its owner releases it or the address is taken over. -/

namespace RustyDhcp.LeaseTable

variable [DecidableEq Addr]
variable {takeable : Option Nat → Prop} {expiry : Nat}
variable {table next : LeaseTable Addr Owner} {event : Event Addr Owner}
variable {address : Addr} {owner : Owner}

/-- The owner holds the address for good, and no other address. -/
def Reserved (table : LeaseTable Addr Owner) (owner : Owner) (address : Addr) : Prop :=
  table address = some ⟨owner, none⟩ ∧ ∀ held, table.HeldBy held owner → held = address

/-- A reservation stays as long as its owner does not release it and nobody
else is shown its address. -/
theorem Reserved.step (reserved : table.Reserved owner address)
    (step : Step takeable expiry table event next)
    (kept : event.released ≠ some owner)
    (unshown : ∀ other, other ≠ owner → event.shown ≠ some (other, address)) :
    next.Reserved owner address := by
  have held : table.HeldBy address owner := ⟨_, reserved.1, rfl⟩
  cases step with
  | silent => exact reserved
  | offerHeld _ => exact reserved
  | offerFree _ _ => exact reserved
  | confirm _ => exact reserved
  | releaseNothing _ => exact reserved
  | @commit taker taken nothing free =>
      have elsewhere : address ≠ taken := by
        intro equal
        subst equal
        by_cases same : taker = owner
        · subst same
          exact nothing address held
        · exact unshown taker same rfl
      refine ⟨by rw [Function.update_of_ne elsewhere, reserved.1], ?_⟩
      intro other holds
      rcases holds with ⟨lease, found, rfl⟩
      by_cases same : other = taken
      · subst same
        rw [Function.update_self] at found
        cases found
        exact absurd held (nothing address)
      · rw [Function.update_of_ne same] at found
        exact reserved.2 other ⟨lease, found, rfl⟩
  | @release releaser freed releaserHeld =>
      have elsewhere : address ≠ freed := by
        intro equal
        subst equal
        exact kept (congrArg some (HeldBy.unique releaserHeld held))
      refine ⟨by rw [Function.update_of_ne elsewhere, reserved.1], ?_⟩
      intro other holds
      rcases holds with ⟨lease, found, rfl⟩
      by_cases same : other = freed
      · subst same
        rw [Function.update_self] at found
        cases found
      · rw [Function.update_of_ne same] at found
        exact reserved.2 other ⟨lease, found, rfl⟩

/-- Whoever is shown an address has it, or has none and it is free. -/
theorem Step.of_shown (step : Step takeable expiry table event next) {shown : Addr}
    (shows : event.shown = some (owner, shown)) :
    table.HeldBy shown owner ∨
      (∀ held, ¬table.HeldBy held owner) ∧ table.Free takeable shown ∧
        (event = .offer owner shown ∨ event = .commit owner shown) := by
  cases step with
  | silent => cases shows
  | release _ => cases shows
  | releaseNothing _ => cases shows
  | offerHeld held =>
      cases shows
      exact .inl held
  | confirm held =>
      cases shows
      exact .inl held
  | offerFree nothing free =>
      cases shows
      exact .inr ⟨nothing, free, .inl rfl⟩
  | commit nothing free =>
      cases shows
      exact .inr ⟨nothing, free, .inr rfl⟩

/-- Whoever has a reservation is shown its address and no other. -/
theorem Reserved.shown_owner (reserved : table.Reserved owner address)
    (step : Step takeable expiry table event next) {shown : Addr}
    (shows : event.shown = some (owner, shown)) : shown = address := by
  have held : table.HeldBy address owner := ⟨_, reserved.1, rfl⟩
  rcases step.of_shown shows with shownHeld | ⟨nothing, _, _⟩
  · exact reserved.2 _ shownHeld
  · exact absurd held (nothing address)

/-- Anybody else is shown a reserved address only by being offered it, or
committed to it, as a free one. -/
theorem Reserved.shown_other (reserved : table.Reserved owner address)
    (step : Step takeable expiry table event next) {other : Owner}
    (shows : event.shown = some (other, address)) (different : other ≠ owner) :
    (event = .offer other address ∨ event = .commit other address) ∧
      (∀ held, ¬table.HeldBy held other) ∧ takeable none := by
  have held : table.HeldBy address owner := ⟨_, reserved.1, rfl⟩
  rcases step.of_shown shows with otherHeld | ⟨nothing, free, kind⟩
  · exact absurd (HeldBy.unique otherHeld held) different
  · exact ⟨kind, nothing, free _ reserved.1⟩

/-- Where a lease for good cannot be taken over, nobody else is ever shown a
reserved address. -/
theorem Reserved.unshown (reserved : table.Reserved owner address)
    (step : Step takeable expiry table event next) (lasting : ¬takeable none) :
    ∀ other, other ≠ owner → event.shown ≠ some (other, address) := by
  intro other different shows
  rcases reserved.shown_other step shows different with ⟨_, _, taken⟩
  exact lasting taken

/-! ## Making reservations -/

/-- Reserve addresses for good, a later reservation displacing an earlier
one. -/
def reserve : LeaseTable Addr Owner → List (Owner × Addr) → LeaseTable Addr Owner
  | table, [] => table
  | table, (owner, address) :: rest =>
      reserve (Function.update table address (some ⟨owner, none⟩)) rest

theorem reserve_of_not_mem {reservations : List (Owner × Addr)}
    (fresh : address ∉ reservations.map Prod.snd) :
    table.reserve reservations address = table address := by
  induction reservations generalizing table with
  | nil => rfl
  | cons reservation rest induction =>
      rw [List.map_cons, List.mem_cons, not_or] at fresh
      rw [reserve, induction fresh.2, Function.update_of_ne fresh.1]

theorem reserve_of_mem {reservations : List (Owner × Addr)}
    (addresses : (reservations.map Prod.snd).Nodup)
    (member : (owner, address) ∈ reservations) :
    table.reserve reservations address = some ⟨owner, none⟩ := by
  induction reservations generalizing table with
  | nil => cases member
  | cons reservation rest induction =>
      rw [List.map_cons, List.nodup_cons] at addresses
      rcases List.mem_cons.mp member with same | later
      · subst same
        rw [reserve, reserve_of_not_mem addresses.1, Function.update_self]
      · exact induction addresses.2 later

/-- Lines that agree about an address may come in any order. -/
theorem reserve_of_agreed {reservations : List (Owner × Addr)}
    (member : (owner, address) ∈ reservations)
    (agreed : ∀ other, (other, address) ∈ reservations → other = owner) :
    table.reserve reservations address = some ⟨owner, none⟩ := by
  induction reservations generalizing table with
  | nil => cases member
  | cons reservation rest induction =>
      by_cases later : (owner, address) ∈ rest
      · exact induction later fun other inside => agreed other (List.mem_cons_of_mem _ inside)
      · rcases List.mem_cons.mp member with same | inside
        · have last : address ∉ rest.map Prod.snd := by
            intro again
            rcases List.mem_map.mp again with ⟨⟨other, _⟩, inside, rfl⟩
            rw [agreed other (List.mem_cons_of_mem _ inside)] at inside
            exact later inside
          subst same
          rw [reserve, reserve_of_not_mem last, Function.update_self]
        · exact absurd inside later

theorem reserve_cases {reservations : List (Owner × Addr)} {lease : Lease Owner}
    (found : table.reserve reservations address = some lease) :
    table address = some lease ∨ (lease.holder, address) ∈ reservations := by
  induction reservations generalizing table with
  | nil => exact .inl found
  | cons reservation rest induction =>
      rcases induction found with before | later
      · by_cases same : address = reservation.2
        · subst same
          rw [Function.update_self] at before
          cases before
          exact .inr (by simp)
        · rw [Function.update_of_ne same] at before
          exact .inl before
      · exact .inr (List.mem_cons_of_mem _ later)

/-- Where no owner is named twice, nobody is reserved two addresses. -/
theorem singleHolding_reserve {reservations : List (Owner × Addr)}
    (owners : (reservations.map Prod.fst).Nodup) :
    SingleHolding (reserve (fun _ => none) reservations) := by
  have listed : ∀ {held owner}, HeldBy (reserve (fun _ => none) reservations) held owner →
      (owner, held) ∈ reservations := by
    intro held owner holds
    rcases holds with ⟨lease, found, same⟩
    subst same
    rcases reserve_cases found with before | member
    · cases before
    · exact member
  intro left right owner leftHeld rightHeld
  exact congrArg Prod.snd
    (List.inj_on_of_nodup_map owners (listed leftHeld) (listed rightHeld) rfl)

/-- Where no owner and no address is named twice, every line is a
reservation. -/
theorem reserved_reserve {reservations : List (Owner × Addr)}
    (owners : (reservations.map Prod.fst).Nodup)
    (addresses : (reservations.map Prod.snd).Nodup)
    (member : (owner, address) ∈ reservations) :
    Reserved (reserve (fun _ => none) reservations) owner address := by
  have reserved : reserve (fun _ => none) reservations address = some ⟨owner, none⟩ :=
    reserve_of_mem addresses member
  refine ⟨reserved, ?_⟩
  intro held holds
  exact singleHolding_reserve owners holds ⟨_, reserved, rfl⟩

end RustyDhcp.LeaseTable
