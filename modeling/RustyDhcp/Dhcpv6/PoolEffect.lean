import RustyDhcp.Dhcpv6.PoolScan
import RustyDhcp.Foundation.Run

/-! # What a call of the DHCPv6 pool can do -/

namespace RustyDhcp.Dhcpv6.V6Pool

/-- The pool with a reservation. -/
def inserted (pool : V6Pool) (addr : Ipv6Addr) (duid : Duid) (expiry : Option Instant) :
    V6Pool :=
  pool.withTable (pool.table.insert pool.layout addr ⟨duid, expiry⟩)

inductive Effect (pool : V6Pool) : PoolCall → V6Pool → PoolAnswer → Prop
  | inserted {addr duid expiry} :
      Effect pool (.insert addr duid expiry) (pool.inserted addr duid expiry) .inserted
  | discoveredHeld {duid addr} {now : Reading} :
      pool.current duid = some addr →
      Effect pool (.discover duid now) pool (.discovered (some addr))
  | discoveredFree {duid offset} {now : Reading} :
      (∀ held, ¬pool.HeldBy held duid) → pool.FirstFree duid now offset →
      Effect pool (.discover duid now) (pool.atOffset offset)
        (.discovered (some (pool.address offset)))
  | exhausted {duid} {now : Reading} :
      (∀ held, ¬pool.HeldBy held duid) → (∀ addr, pool.available duid addr now = false) →
      Effect pool (.discover duid now) pool (.discovered none)
  | requestedHeld {duid addr held} {now : Reading} :
      pool.current duid = some held →
      Effect pool (.request duid addr now) pool (.requested (.ok held))
  | requestedFree {duid addr} {now : Reading} :
      (∀ held, ¬pool.HeldBy held duid) → pool.available duid addr now = true →
      Effect pool (.request duid addr now) (pool.leased duid addr now)
        (.requested (.ok addr))
  | requestRefused {duid addr} {now : Reading} :
      (∀ held, ¬pool.HeldBy held duid) → pool.available duid addr now = false →
      Effect pool (.request duid addr now) pool
        (.requested (.error "Requested address not available"))
  | released {duid addr} :
      pool.current duid = some addr →
      Effect pool (.release duid) (pool.released duid addr) (.released true)
  | nothingReleased {duid} :
      (∀ held, ¬pool.HeldBy held duid) →
      Effect pool (.release duid) pool (.released false)
  | currentLease {duid} :
      Effect pool (.currentLease duid) pool (.currentLease (pool.current duid))
  | available {duid addr} {now : Reading} :
      Effect pool (.available duid addr now) pool
        (.available (pool.available duid addr now))
  | get {addr} : Effect pool (.get addr) pool (.entry (pool.entry addr))
  | len : Effect pool .len pool (.len pool.len)
  | isEmpty : Effect pool .isEmpty pool (.isEmpty pool.isEmpty)

variable {pool next : V6Pool} {call : PoolCall} {answer : PoolAnswer}
variable {addr : Ipv6Addr} {duid : Duid} {now : Instant}

/-- A valid pool answers every call whose lease can run out, in one of the listed ways. -/
theorem call_effect (valid : pool.Valid) (call : PoolCall) (fits : call.Fits pool.leaseDuration) :
    ∃ next answer, pool.call call = .ok (next, answer) ∧ Effect pool call next answer := by
  cases call with
  | insert addr duid expiry =>
      simp only [V6Pool.call, insert_eq valid, Checked.bind_ok]
      exact ⟨_, _, rfl, .inserted⟩
  | discover duid now =>
      cases found : pool.current duid with
      | some addr =>
          simp only [V6Pool.call, discover_held valid found, Checked.bind_ok]
          exact ⟨_, _, rfl, .discoveredHeld found⟩
      | none =>
          have nothing := (current_eq_none_iff valid).mp found
          rcases discover_free valid found now with
            ⟨offset, first, discovered⟩ | ⟨full, discovered⟩
          · simp only [V6Pool.call, discovered, Checked.bind_ok]
            exact ⟨_, _, rfl, .discoveredFree nothing first⟩
          · simp only [V6Pool.call, discovered, Checked.bind_ok]
            exact ⟨_, _, rfl, .exhausted nothing full⟩
  | request duid addr now =>
      cases found : pool.current duid with
      | some held =>
          simp only [V6Pool.call, request_held valid found, Checked.bind_ok]
          exact ⟨_, _, rfl, .requestedHeld found⟩
      | none =>
          have nothing := (current_eq_none_iff valid).mp found
          cases accepted : pool.available duid addr now with
          | true =>
              simp only [V6Pool.call, request_free valid found accepted fits, Checked.bind_ok]
              exact ⟨_, _, rfl, .requestedFree nothing accepted⟩
          | false =>
              simp only [V6Pool.call, request_refused valid found accepted, Checked.bind_ok]
              exact ⟨_, _, rfl, .requestRefused nothing accepted⟩
  | release duid =>
      cases found : pool.current duid with
      | some addr =>
          simp only [V6Pool.call, release_held valid found, Checked.bind_ok]
          exact ⟨_, _, rfl, .released found⟩
      | none =>
          simp only [V6Pool.call, release_nothing valid found, Checked.bind_ok]
          exact ⟨_, _, rfl, .nothingReleased ((current_eq_none_iff valid).mp found)⟩
  | currentLease duid =>
      simp only [V6Pool.call, currentLease_eq valid, Checked.bind_ok]
      exact ⟨_, _, rfl, .currentLease⟩
  | available duid addr now =>
      simp only [V6Pool.call, availableAt_eq valid, Checked.bind_ok]
      exact ⟨_, _, rfl, .available⟩
  | get addr =>
      simp only [V6Pool.call, V6Pool.get, lookup_eq valid, Checked.bind_ok]
      exact ⟨_, _, rfl, .get⟩
  | len => exact ⟨_, _, rfl, .len⟩
  | isEmpty => exact ⟨_, _, rfl, .isEmpty⟩

theorem effect_of_called (valid : pool.Valid)
    (called : pool.call call = .ok (next, answer)) : Effect pool call next answer := by
  by_cases fits : call.Fits pool.leaseDuration
  · rcases call_effect valid call fits with ⟨_, _, equal, effect⟩
    rw [called] at equal
    cases equal
    exact effect
  · cases call with
    | request duid addr now =>
        rcases Checked.bind_eq_ok_iff.mp called with ⟨⟨after, result⟩, requested, rest⟩
        cases rest
        cases found : pool.current duid with
        | some held =>
            cases requested.symm.trans (request_held valid found)
            exact .requestedHeld found
        | none =>
            cases accepted : pool.available duid addr now with
            | true => cases requested.symm.trans (request_late valid found accepted fits)
            | false =>
                cases requested.symm.trans (request_refused valid found accepted)
                exact .requestRefused ((current_eq_none_iff valid).mp found) accepted
    | _ => exact absurd trivial fits

/-! ## What each result keeps -/

theorem valid_leased (valid : pool.Valid) : (pool.leased duid addr now).Valid :=
  valid.withTable (SlotTable.valid_settle valid.table)

theorem valid_released (valid : pool.Valid) : (pool.released duid addr).Valid :=
  valid.withTable (SlotTable.valid_release valid.table)

theorem valid_inserted (valid : pool.Valid) {expiry : Option Instant} :
    (pool.inserted addr duid expiry).Valid :=
  valid.withTable (SlotTable.valid_insert valid.table)

theorem Effect.valid (effect : Effect pool call next answer) (valid : pool.Valid) :
    next.Valid := by
  cases effect with
  | inserted => exact valid_inserted valid
  | discoveredFree _ first => exact valid.atOffset first.lt
  | requestedFree => exact valid_leased valid
  | released => exact valid_released valid
  | _ => exact valid

/-- `next` is valid and leases for the same time as `pool`. -/
structure Remains (pool next : V6Pool) : Prop where
  valid : next.Valid
  leaseDuration : next.leaseDuration = pool.leaseDuration

theorem Effect.remains (effect : Effect pool call next answer) (valid : pool.Valid) :
    pool.Remains next where
  valid := effect.valid valid
  leaseDuration := by cases effect <;> rfl

/-! ## The entries after each result -/

theorem entry_inserted (valid : pool.Valid) {expiry : Option Instant} :
    (pool.inserted addr duid expiry).entry =
      Function.update pool.entry addr (some ⟨duid, expiry⟩) := by
  funext other
  rw [Function.update_apply]
  exact SlotTable.lookup_insert valid.table

theorem entry_leased (valid : pool.Valid) :
    (pool.leased duid addr now).entry =
      Function.update pool.entry addr (some ⟨duid, some (now + pool.leaseDuration)⟩) := by
  funext other
  rw [Function.update_apply]
  exact SlotTable.lookup_settle valid.table

theorem entry_released (valid : pool.Valid) :
    (pool.released duid addr).entry = Function.update pool.entry addr none := by
  funext other
  rw [Function.update_apply]
  exact SlotTable.lookup_release valid.table

/-! ## What an available address means -/

theorem available_iff : pool.available duid addr now = true ↔
    pool.inRange addr = true ∧ ∀ old, pool.entry addr = some old →
      old.duid = duid ∨ ∃ limit, old.expiry = some limit ∧ limit < now := by
  rw [available, Bool.and_eq_true]
  cases pool.entry addr with
  | none => simp [Entry.takeable]
  | some old => cases limit : old.expiry <;> simp [Entry.takeable, limit]

/-- An available address of the range is free for a client who holds
nothing. -/
theorem foreign_of_available (nothing : ∀ held, ¬pool.HeldBy held duid)
    (available : pool.available duid addr now = true) :
    pool.inRange addr = true ∧ ∀ old, pool.entry addr = some old →
      old.duid ≠ duid ∧ ∃ limit, old.expiry = some limit ∧ limit < now := by
  rcases available_iff.mp available with ⟨inside, free⟩
  refine ⟨inside, ?_⟩
  intro old found
  have foreign : old.duid ≠ duid := fun owner => nothing addr ⟨old, found, owner⟩
  exact ⟨foreign, (free old found).resolve_left foreign⟩

end RustyDhcp.Dhcpv6.V6Pool
