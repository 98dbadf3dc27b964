import Mathlib.Logic.Function.Basic

/-! # Claims

Clients claim addresses of a table. Whoever has an entry keeps it; anybody else
is granted the wanted address if it is free, and refused otherwise. The claims
of two clients can change places as long as neither wants what the other one
wants or has. -/

namespace RustyDhcp

/-- A client with the address that it wants: which places are free for it, the
entry that it would be granted, and what becomes of an entry that it keeps. -/
structure Claimant (Addr : Type) {Entry Owner : Type} (holder : Entry → Owner) where
  client : Owner
  wanted : Addr
  free : Option Entry → Prop
  entry : Entry
  touch : Entry → Entry
  holder_entry : holder entry = client
  holder_touch : ∀ old, holder (touch old) = holder old

inductive ClaimOutcome (Addr Entry : Type) where
  | kept (address : Addr) (entry : Entry)
  | granted (address : Addr) (entry : Entry)
  | refused

namespace ClaimOutcome

/-- The address that the client has afterwards. -/
def address : ClaimOutcome Addr Entry → Option Addr
  | .kept address _ => some address
  | .granted address _ => some address
  | .refused => none

variable [DecidableEq Addr]

def write (entries : Addr → Option Entry) : ClaimOutcome Addr Entry → Addr → Option Entry
  | .kept address entry => Function.update entries address (some entry)
  | .granted address entry => Function.update entries address (some entry)
  | .refused => entries

/-- The hints afterwards: that of the client leads to a new entry, and nobody
else's does. -/
def point [DecidableEq Owner] (hints : Owner → Option Addr) (client : Owner) :
    ClaimOutcome Addr Entry → Owner → Option Addr
  | .granted address _ => fun owner =>
      if owner = client then some address
      else if hints owner = some address then none
      else hints owner
  | _ => hints

variable {entries : Addr → Option Entry} {left right : ClaimOutcome Addr Entry}

theorem write_of_ne {outcome : ClaimOutcome Addr Entry} {other : Addr}
    (different : outcome.address ≠ some other) : outcome.write entries other = entries other := by
  cases outcome with
  | kept address entry =>
      exact Function.update_of_ne (fun same => different (congrArg some same.symm)) _ _
  | granted address entry =>
      exact Function.update_of_ne (fun same => different (congrArg some same.symm)) _ _
  | refused => rfl

/-- Writes at different addresses commute. -/
theorem write_comm
    (apart : ∀ address, left.address = some address → right.address ≠ some address) :
    right.write (left.write entries) = left.write (right.write entries) := by
  funext other
  by_cases here : left.address = some other
  · rw [write_of_ne (apart other here)]
    cases left with
    | kept address entry =>
        cases here
        simp [write]
    | granted address entry =>
        cases here
        simp [write]
    | refused => cases here
  · rw [write_of_ne here]
    by_cases there : right.address = some other
    · cases right with
      | kept address entry =>
          cases there
          simp [write]
      | granted address entry =>
          cases there
          simp [write]
      | refused => cases there
    · rw [write_of_ne there, write_of_ne there, write_of_ne here]

theorem point_comm [DecidableEq Owner] {hints : Owner → Option Addr}
    {leftClient rightClient : Owner} (clients : leftClient ≠ rightClient)
    (apart : ∀ address, left.address = some address → right.address ≠ some address) :
    right.point (left.point hints leftClient) rightClient =
      left.point (right.point hints rightClient) leftClient := by
  cases left with
  | kept => cases right <;> rfl
  | refused => cases right <;> rfl
  | granted leftAddress leftEntry =>
      cases right with
      | kept => rfl
      | refused => rfl
      | granted rightAddress rightEntry =>
          have different : leftAddress ≠ rightAddress :=
            fun same => apart leftAddress rfl (congrArg some same.symm)
          funext owner
          simp only [point]
          grind

end ClaimOutcome

namespace Claimant

variable {holder : Entry → Owner} {entries : Addr → Option Entry}

def Holds (holder : Entry → Owner) (entries : Addr → Option Entry) (address : Addr)
    (owner : Owner) : Prop :=
  ∃ entry, entries address = some entry ∧ holder entry = owner

inductive Claims (claimant : Claimant Addr holder) (entries : Addr → Option Entry) :
    ClaimOutcome Addr Entry → Prop
  | kept {address old} : entries address = some old → holder old = claimant.client →
      Claims claimant entries (.kept address (claimant.touch old))
  | granted : (∀ address, ¬Holds holder entries address claimant.client) →
      claimant.free (entries claimant.wanted) →
      Claims claimant entries (.granted claimant.wanted claimant.entry)
  | refused : (∀ address, ¬Holds holder entries address claimant.client) →
      ¬claimant.free (entries claimant.wanted) → Claims claimant entries .refused

variable {left right : Claimant Addr holder} {outcome other : ClaimOutcome Addr Entry}
variable {address : Addr}

/-- Every client has a claim, whatever the table. -/
theorem exists_claims (claimant : Claimant Addr holder) (entries : Addr → Option Entry) :
    ∃ outcome, claimant.Claims entries outcome := by
  by_cases held : ∃ address, Holds holder entries address claimant.client
  · rcases held with ⟨address, old, found, owner⟩
    exact ⟨_, .kept found owner⟩
  · rw [not_exists] at held
    by_cases free : claimant.free (entries claimant.wanted)
    · exact ⟨_, .granted held free⟩
    · exact ⟨_, .refused held free⟩

/-- A claim ends at an address that the client had or wants. -/
theorem Claims.address_cases (claims : left.Claims entries outcome)
    (ends : outcome.address = some address) :
    Holds holder entries address left.client ∨ address = left.wanted := by
  cases claims with
  | kept found owner =>
      cases ends
      exact .inl ⟨_, found, owner⟩
  | granted =>
      cases ends
      exact .inr rfl
  | refused => cases ends

theorem Holds.unique {leftOwner rightOwner : Owner}
    (leftHolds : Holds holder entries address leftOwner)
    (rightHolds : Holds holder entries address rightOwner) : leftOwner = rightOwner := by
  rcases leftHolds with ⟨entry, found, rfl⟩
  rcases rightHolds with ⟨_, same, rfl⟩
  rw [found] at same
  cases same
  rfl

variable [DecidableEq Addr]

/-- What a claim writes belongs to the client. -/
theorem Claims.holds (claims : left.Claims entries outcome)
    (ends : outcome.address = some address) :
    Holds holder (outcome.write entries) address left.client := by
  cases claims with
  | kept _ owner =>
      cases ends
      exact ⟨_, Function.update_self _ _ _, (left.holder_touch _).trans owner⟩
  | granted =>
      cases ends
      exact ⟨_, Function.update_self _ _ _, left.holder_entry⟩
  | refused => cases ends

/-- Two clients of which neither wants what the other one wants or has. -/
structure Apart (entries : Addr → Option Entry) (left right : Claimant Addr holder) : Prop where
  clients : left.client ≠ right.client
  wanted : left.wanted ≠ right.wanted
  leftWanted : ¬Holds holder entries left.wanted right.client
  rightWanted : ¬Holds holder entries right.wanted left.client

omit [DecidableEq Addr] in
theorem Apart.symm (apart : Apart entries left right) : Apart entries right left :=
  ⟨apart.clients.symm, apart.wanted.symm, apart.rightWanted, apart.leftWanted⟩

/-- A claim does not touch what another client has. -/
theorem Apart.holds_iff (apart : Apart entries left right) (claims : left.Claims entries outcome) :
    Holds holder (outcome.write entries) address right.client ↔
      Holds holder entries address right.client := by
  by_cases here : outcome.address = some address
  · refine iff_of_false ?_ ?_
    · intro holds
      exact apart.clients ((claims.holds here).unique holds)
    · intro holds
      rcases claims.address_cases here with held | rfl
      · exact apart.clients (held.unique holds)
      · exact apart.leftWanted holds
  · rw [Holds, ClaimOutcome.write_of_ne here]
    rfl

/-- A claim has the same outcome behind the claim of another client. -/
theorem Apart.claims (apart : Apart entries left right) (first : left.Claims entries outcome)
    (second : right.Claims entries other) : right.Claims (outcome.write entries) other := by
  have nothing : (∀ address, ¬Holds holder entries address right.client) →
      ∀ address, ¬Holds holder (outcome.write entries) address right.client :=
    fun nothing address holds => nothing address ((apart.holds_iff first).mp holds)
  have wanted : outcome.write entries right.wanted = entries right.wanted := by
    apply ClaimOutcome.write_of_ne
    intro ends
    rcases first.address_cases ends with held | same
    · exact apart.rightWanted held
    · exact apart.wanted same.symm
  cases second with
  | @kept address old found owner =>
      have untouched : outcome.write entries address = entries address := by
        apply ClaimOutcome.write_of_ne
        intro ends
        have held : Holds holder entries address right.client := ⟨old, found, owner⟩
        rcases first.address_cases ends with both | rfl
        · exact apart.clients (both.unique held)
        · exact apart.leftWanted held
      exact .kept (untouched.trans found) owner
  | granted free available =>
      rw [← wanted] at available
      exact .granted (nothing free) available
  | refused free taken =>
      rw [← wanted] at taken
      exact .refused (nothing free) taken

omit [DecidableEq Addr] in
/-- The claims end at different addresses. -/
theorem Apart.address_ne (apart : Apart entries left right) (first : left.Claims entries outcome)
    (second : right.Claims entries other) :
    ∀ address, outcome.address = some address → other.address ≠ some address := by
  intro address firstEnds secondEnds
  rcases first.address_cases firstEnds with leftHeld | leftWants
  · rcases second.address_cases secondEnds with rightHeld | rightWants
    · exact apart.clients (leftHeld.unique rightHeld)
    · rw [rightWants] at leftHeld
      exact apart.rightWanted leftHeld
  · rcases second.address_cases secondEnds with rightHeld | rightWants
    · rw [leftWants] at rightHeld
      exact apart.leftWanted rightHeld
    · exact apart.wanted (leftWants.symm.trans rightWants)

/-- Of two clients without entries that want the same free address, the second
one is refused. -/
theorem Claims.race (clients : left.client ≠ right.client) (same : left.wanted = right.wanted)
    (nothing : ∀ address, ¬Holds holder entries address right.client)
    (taken : ¬right.free (some left.entry)) :
    right.Claims ((ClaimOutcome.granted left.wanted left.entry).write entries) .refused := by
  refine .refused ?_ ?_
  · intro address holds
    rcases holds with ⟨entry, found, owner⟩
    by_cases here : address = left.wanted
    · rw [ClaimOutcome.write, here, Function.update_self] at found
      cases found
      exact clients (left.holder_entry.symm.trans owner)
    · rw [ClaimOutcome.write, Function.update_of_ne here] at found
      exact nothing address ⟨entry, found, owner⟩
  · rw [← same, ClaimOutcome.write, Function.update_self]
    exact taken

end Claimant

end RustyDhcp
