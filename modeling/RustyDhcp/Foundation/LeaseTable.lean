import Mathlib.Logic.Function.Basic
import RustyDhcp.Foundation.Run

/-! # Leases, abstractly

Addresses are leased to owners, each lease for a time or for good. An event of
a lease protocol shows an address to an owner, commits or confirms a lease, or
releases it. What a service grants on the wire is written down in a ledger;
the ledger is kept when every grant in it is backed by the table for as long
as it runs. -/

namespace RustyDhcp

/-- A lease of `holder`, which runs out after `expiry` or never. -/
structure Lease (Owner : Type) where
  holder : Owner
  expiry : Option Nat
deriving DecidableEq

abbrev LeaseTable (Addr Owner : Type) := Addr → Option (Lease Owner)

namespace LeaseTable

def HeldBy (table : LeaseTable Addr Owner) (address : Addr) (owner : Owner) : Prop :=
  ∃ lease, table address = some lease ∧ lease.holder = owner

theorem HeldBy.unique {table : LeaseTable Addr Owner} {address : Addr}
    {left right : Owner} (leftHeld : table.HeldBy address left)
    (rightHeld : table.HeldBy address right) : left = right := by
  rcases leftHeld with ⟨lease, found, rfl⟩
  rcases rightHeld with ⟨_, same, rfl⟩
  rw [found] at same
  cases same
  rfl

/-- The leases in a table of entries that keep other things too. -/
def ofEntries (holder : Entry → Owner) (expiry : Entry → Option Nat)
    (entries : Addr → Option Entry) : LeaseTable Addr Owner := fun address =>
  (entries address).map fun entry => ⟨holder entry, expiry entry⟩

section

variable {holder : Entry → Owner} {expiry : Entry → Option Nat}
variable {entries : Addr → Option Entry} {address : Addr} {owner : Owner}

theorem ofEntries_eq_some_iff {lease : Lease Owner} :
    ofEntries holder expiry entries address = some lease ↔
      ∃ entry, entries address = some entry ∧ ⟨holder entry, expiry entry⟩ = lease :=
  Option.map_eq_some_iff

theorem ofEntries_heldBy_iff :
    (ofEntries holder expiry entries).HeldBy address owner ↔
      ∃ entry, entries address = some entry ∧ holder entry = owner := by
  constructor
  · intro held
    rcases held with ⟨lease, found, owns⟩
    rcases ofEntries_eq_some_iff.mp found with ⟨entry, read, same⟩
    subst same
    exact ⟨entry, read, owns⟩
  · intro held
    rcases held with ⟨entry, read, owns⟩
    exact ⟨_, ofEntries_eq_some_iff.mpr ⟨entry, read, rfl⟩, owns⟩

theorem ofEntries_update [DecidableEq Addr] (content : Option Entry) :
    ofEntries holder expiry (Function.update entries address content) =
      Function.update (ofEntries holder expiry entries) address
        (content.map fun entry => ⟨holder entry, expiry entry⟩) := by
  funext other
  by_cases same : other = address
  · rw [ofEntries, same, Function.update_self, Function.update_self]
  · rw [ofEntries, Function.update_of_ne same, Function.update_of_ne same]
    rfl

end

/-- No lease stands in the way of somebody else at this address. Which
expiries do not is a matter of policy. -/
def Free (takeable : Option Nat → Prop) (table : LeaseTable Addr Owner)
    (address : Addr) : Prop :=
  ∀ lease, table address = some lease → takeable lease.expiry

inductive Event (Addr Owner : Type) where
  | silent
  | offer (owner : Owner) (address : Addr)
  | confirm (owner : Owner) (address : Addr)
  | commit (owner : Owner) (address : Addr)
  | release (owner : Owner) (address : Addr)
  | releaseNothing (owner : Owner)

namespace Event

/-- The owner whose grants the event ends. -/
def released : Event Addr Owner → Option Owner
  | .release owner _ => some owner
  | .releaseNothing owner => some owner
  | _ => none

/-- The address that the event grants, and to whom. -/
def granted : Event Addr Owner → Option (Owner × Addr)
  | .confirm owner address => some (owner, address)
  | .commit owner address => some (owner, address)
  | _ => none

/-- The address that the event shows to a client, granted or offered. -/
def shown : Event Addr Owner → Option (Owner × Addr)
  | .offer owner address => some (owner, address)
  | event => event.granted

end Event

variable [DecidableEq Addr]

/-- What each event needs and what it does. A new lease gets `expiry`. -/
inductive Step (takeable : Option Nat → Prop) (expiry : Nat)
    (table : LeaseTable Addr Owner) : Event Addr Owner → LeaseTable Addr Owner → Prop
  | silent : Step takeable expiry table .silent table
  | offerHeld {owner address} : table.HeldBy address owner →
      Step takeable expiry table (.offer owner address) table
  | offerFree {owner address} : (∀ held, ¬table.HeldBy held owner) →
      table.Free takeable address →
      Step takeable expiry table (.offer owner address) table
  | confirm {owner address} : table.HeldBy address owner →
      Step takeable expiry table (.confirm owner address) table
  | commit {owner address} : (∀ held, ¬table.HeldBy held owner) →
      table.Free takeable address →
      Step takeable expiry table (.commit owner address)
        (Function.update table address (some ⟨owner, some expiry⟩))
  | release {owner address} : table.HeldBy address owner →
      Step takeable expiry table (.release owner address)
        (Function.update table address none)
  | releaseNothing {owner} : (∀ held, ¬table.HeldBy held owner) →
      Step takeable expiry table (.releaseNothing owner) table

variable {takeable : Option Nat → Prop} {expiry now : Nat}
variable {table next : LeaseTable Addr Owner} {event : Event Addr Owner}
variable {address : Addr} {owner : Owner}

/-! ## One address each -/

/-- Nobody holds two addresses. -/
def SingleHolding (table : LeaseTable Addr Owner) : Prop :=
  ∀ ⦃left right owner⦄, table.HeldBy left owner → table.HeldBy right owner → left = right

/-- Whoever holds an address of an updated table got it by the update, or held
it before. -/
theorem HeldBy.of_update {lease : Option (Lease Owner)} {held : Addr}
    (holds : HeldBy (Function.update table address lease) held owner) :
    held = address ∧ (∃ new, lease = some new ∧ new.holder = owner) ∨
      table.HeldBy held owner := by
  rcases holds with ⟨found, read, owns⟩
  by_cases same : held = address
  · subst same
    rw [Function.update_self] at read
    exact .inl ⟨rfl, found, read, owns⟩
  · rw [Function.update_of_ne same] at read
    exact .inr ⟨found, read, owns⟩

/-- An update that gives an address to somebody without one gives nobody a
second one, nor does one that empties an address. -/
theorem SingleHolding.update {lease : Option (Lease Owner)} (single : table.SingleHolding)
    (nothing : ∀ new, lease = some new → ∀ held, ¬table.HeldBy held new.holder) :
    SingleHolding (Function.update table address lease) := by
  intro left right owner leftHeld rightHeld
  rcases leftHeld.of_update with ⟨leftHere, new, given, owns⟩ | leftBefore
  · rcases rightHeld.of_update with ⟨rightHere, _⟩ | rightBefore
    · exact leftHere.trans rightHere.symm
    · exact absurd (owns ▸ rightBefore) (nothing new given right)
  · rcases rightHeld.of_update with ⟨_, new, given, owns⟩ | rightBefore
    · exact absurd (owns ▸ leftBefore) (nothing new given left)
    · exact single leftBefore rightBefore

theorem SingleHolding.step (single : table.SingleHolding)
    (step : Step takeable expiry table event next) : next.SingleHolding := by
  cases step with
  | silent => exact single
  | offerHeld _ => exact single
  | offerFree _ _ => exact single
  | confirm _ => exact single
  | releaseNothing _ => exact single
  | commit nothing _ =>
      apply single.update
      intro new given
      cases given
      exact nothing
  | release _ =>
      apply single.update
      intro new given
      cases given

/-! ## Grants -/

structure Grant (Addr Owner : Type) where
  holder : Owner
  address : Addr
  limit : Nat
deriving DecidableEq

/-- The table lets the holder of the grant keep the address to its end. -/
def Supports (table : LeaseTable Addr Owner) (grant : Grant Addr Owner) : Prop :=
  ∃ lease, table grant.address = some lease ∧ lease.holder = grant.holder ∧
    ∀ limit, lease.expiry = some limit → grant.limit ≤ limit

/-- The grant is over, or the table supports it. -/
def Backed (table : LeaseTable Addr Owner) (clock : Nat) (grant : Grant Addr Owner) : Prop :=
  grant.limit < clock ∨ table.Supports grant

/-- Only a lease that has run out can be taken over. -/
def OnlyExpired (takeable : Option Nat → Prop) (now : Nat)
    (table : LeaseTable Addr Owner) : Prop :=
  ∀ {address lease}, table address = some lease → takeable lease.expiry →
    ∃ limit, lease.expiry = some limit ∧ limit < now

/-- Every lease runs out some time. -/
def Timed (table : LeaseTable Addr Owner) : Prop :=
  ∀ address lease, table address = some lease → lease.expiry ≠ none

theorem Timed.step (timed : table.Timed) (step : Step takeable expiry table event next) :
    next.Timed := by
  cases step with
  | silent => exact timed
  | offerHeld _ => exact timed
  | offerFree _ _ => exact timed
  | confirm _ => exact timed
  | releaseNothing _ => exact timed
  | @commit _ address _ _ =>
      intro other lease found
      by_cases same : other = address
      · subst same
        rw [Function.update_self] at found
        cases found
        exact Option.some_ne_none _
      · rw [Function.update_of_ne same] at found
        exact timed other lease found
  | @release _ address _ =>
      intro other lease found
      by_cases same : other = address
      · subst same
        rw [Function.update_self] at found
        cases found
      · rw [Function.update_of_ne same] at found
        exact timed other lease found

omit [DecidableEq Addr] in
theorem Timed.onlyExpired (timed : table.Timed)
    (expired : ∀ limit, takeable (some limit) → limit < now) :
    table.OnlyExpired takeable now := by
  intro address lease found free
  rcases Option.ne_none_iff_exists'.mp (timed address lease found) with ⟨limit, runsOut⟩
  rw [runsOut] at free
  exact ⟨limit, runsOut, expired limit free⟩

/-- A grant stays backed through every event that does not end it. -/
theorem Backed.step {grant : Grant Addr Owner} {clock : Nat}
    (backed : table.Backed clock grant) (clockLe : clock ≤ now)
    (expired : table.OnlyExpired takeable now)
    (step : Step takeable expiry table event next)
    (kept : event.released ≠ some grant.holder) : next.Backed now grant := by
  rcases backed with ended | ⟨lease, found, held, covers⟩
  · exact .inl (by omega)
  cases step with
  | silent => exact .inr ⟨lease, found, held, covers⟩
  | offerHeld _ => exact .inr ⟨lease, found, held, covers⟩
  | offerFree _ _ => exact .inr ⟨lease, found, held, covers⟩
  | confirm _ => exact .inr ⟨lease, found, held, covers⟩
  | releaseNothing _ => exact .inr ⟨lease, found, held, covers⟩
  | @commit owner address nothing free =>
      by_cases same : grant.address = address
      · subst same
        rcases expired found (free lease found) with ⟨limit, timed, past⟩
        have covered := covers limit timed
        exact .inl (by omega)
      · exact .inr ⟨lease, by rw [Function.update_of_ne same, found], held, covers⟩
  | @release owner address ownerHeld =>
      by_cases same : grant.address = address
      · subst same
        have equal := HeldBy.unique ownerHeld ⟨lease, found, held⟩
        exact absurd (congrArg some equal) kept
      · exact .inr ⟨lease, by rw [Function.update_of_ne same, found], held, covers⟩

/-- Whoever is granted an address had it, or had none and is given a free one. -/
theorem Step.of_granted (step : Step takeable expiry table event next)
    (granted : event.granted = some (owner, address)) :
    table.HeldBy address owner ∧ next = table ∨
      (∀ held, ¬table.HeldBy held owner) ∧ table.Free takeable address ∧
        next = Function.update table address (some ⟨owner, some expiry⟩) := by
  cases step with
  | silent => cases granted
  | offerHeld _ => cases granted
  | offerFree _ _ => cases granted
  | release _ => cases granted
  | releaseNothing _ => cases granted
  | confirm ownerHeld =>
      cases granted
      exact .inl ⟨ownerHeld, rfl⟩
  | commit nothing free =>
      cases granted
      exact .inr ⟨nothing, free, rfl⟩

/-- The table supports what a step grants: a new lease until it expires, and
the confirmation of a lease for good. -/
theorem Step.supports {grant : Grant Addr Owner}
    (step : Step takeable expiry table event next)
    (granted : event.granted = some (grant.holder, grant.address))
    (covered : grant.limit ≤ expiry)
    (permanent : ∀ lease, table grant.address = some lease → lease.holder = grant.holder →
      lease.expiry = none) : next.Supports grant := by
  rcases step.of_granted granted with ⟨ownerHeld, rfl⟩ | ⟨_, _, rfl⟩
  · rcases ownerHeld with ⟨lease, found, held⟩
    refine ⟨lease, found, held, ?_⟩
    intro limit runsOut
    rw [permanent lease found held] at runsOut
    cases runsOut
  · refine ⟨_, Function.update_self _ _ _, rfl, ?_⟩
    intro limit runsOut
    cases runsOut
    exact covered

/-- Nobody is granted an address while somebody else's backed grant of it
runs. -/
theorem Backed.holder_eq {grant : Grant Addr Owner} {clock : Nat}
    (backed : table.Backed clock grant) (clockLe : clock ≤ now)
    (expired : table.OnlyExpired takeable now)
    (step : Step takeable expiry table event next)
    (granted : event.granted = some (owner, grant.address)) (running : now ≤ grant.limit) :
    grant.holder = owner := by
  rcases backed with ended | ⟨lease, found, held, covers⟩
  · omega
  rcases step.of_granted granted with ⟨ownerHeld, _⟩ | ⟨_, free, _⟩
  · exact HeldBy.unique ⟨lease, found, held⟩ ownerHeld
  · rcases expired found (free lease found) with ⟨limit, timed, past⟩
    have covered := covers limit timed
    omega

/-! ## The ledger of a history

The grants that a history recorded and that their holder has not released. -/

section

variable [DecidableEq Owner]

def ledger (released : η → Option Owner) (recorded : η → Option (Grant Addr Owner)) :
    List η → List (Grant Addr Owner)
  | [] => []
  | latest :: past =>
      (recorded latest).toList ++
        (ledger released recorded past).filter fun grant =>
          released latest ≠ some grant.holder

variable {step : State → Input → Checked (State × Output)} {initial state : State}
variable {past : List (Handled State Input Output)}

/-- If every step of a run is an event on the table, and only what the table
supports is recorded, then every grant of the ledger is backed. -/
theorem ledger_backed (leases : State → LeaseTable Addr Owner)
    (time : Handled State Input Output → Nat)
    (released : Handled State Input Output → Option Owner)
    (recorded : Handled State Input Output → Option (Grant Addr Owner))
    (events : ∀ {past state} {handled : Handled State Input Output},
      Run step initial (handled :: past) state →
      ∃ takeable expiry event,
        Step takeable expiry (leases handled.before) event (leases handled.after) ∧
        (leases handled.before).OnlyExpired takeable (time handled) ∧
        event.released = released handled ∧
        ∀ grant, recorded handled = some grant → (leases handled.after).Supports grant)
    (run : Run step initial past state) (ordered : Chronological time past) :
    ∀ grant ∈ ledger released recorded past,
      (leases state).Backed (newest time past) grant := by
  induction past generalizing state with
  | nil => simp [ledger]
  | cons handled past induction =>
      intro grant member
      rcases run.latest with ⟨earlier, _, rfl⟩
      rcases events run with ⟨takeable, expiry, event, stepped, expired, releases, supported⟩
      rw [ledger, List.mem_append] at member
      rcases member with fresh | kept
      · exact .inr (supported grant (by simpa using fresh))
      · rw [List.mem_filter, decide_eq_true_eq, ← releases] at kept
        exact (induction earlier ordered.tail grant kept.1).step ordered.newest_le
          expired stepped kept.2

end

end LeaseTable

end RustyDhcp
