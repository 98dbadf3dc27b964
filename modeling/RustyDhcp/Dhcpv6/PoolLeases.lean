import RustyDhcp.Foundation.Reservation
import RustyDhcp.Dhcpv6.PoolEffect

/-! # The DHCPv6 pool as a lease protocol

A call made for a client is one event of the abstract protocol on the leases
that the pool represents. Only a lease whose expiry has passed is free. -/

namespace RustyDhcp.Dhcpv6.V6Pool

variable {pool next : V6Pool} {addr : Ipv6Addr} {duid : Duid} {now : Instant}

def leases (pool : V6Pool) : LeaseTable Ipv6Addr Duid :=
  .ofEntries Entry.duid Entry.expiry pool.entry

/-- The expiries that keep nobody from taking an address over. -/
def Takeable (now : Instant) (expiry : Option Instant) : Prop :=
  ∃ limit, expiry = some limit ∧ limit < now

theorem leases_heldBy_iff : pool.leases.HeldBy addr duid ↔ pool.HeldBy addr duid :=
  LeaseTable.ofEntries_heldBy_iff

theorem not_heldBy_leases (nothing : ∀ held, ¬pool.HeldBy held duid) :
    ∀ held, ¬pool.leases.HeldBy held duid :=
  fun held holds => nothing held (leases_heldBy_iff.mp holds)

theorem leases_of_entry_update {entry : Option Entry}
    (updated : next.entry = Function.update pool.entry addr entry) :
    next.leases = Function.update pool.leases addr
      (entry.map fun entry => ⟨entry.duid, entry.expiry⟩) := by
  rw [leases, updated]
  exact LeaseTable.ofEntries_update entry

theorem leases_inserted (valid : pool.Valid) {expiry : Option Instant} :
    (pool.inserted addr duid expiry).leases =
      Function.update pool.leases addr (some ⟨duid, expiry⟩) :=
  leases_of_entry_update (entry_inserted valid)

theorem leases_leased (valid : pool.Valid) :
    (pool.leased duid addr now).leases = Function.update pool.leases addr
      (some ⟨duid, some (now + pool.leaseDuration)⟩) :=
  leases_of_entry_update (entry_leased valid)

theorem leases_released (valid : pool.Valid) :
    (pool.released duid addr).leases = Function.update pool.leases addr none :=
  leases_of_entry_update (entry_released valid)

/-- An address that is available to a client without a lease is free. -/
theorem free_of_available (nothing : ∀ held, ¬pool.HeldBy held duid)
    (available : pool.available duid addr now = true) :
    pool.leases.Free (Takeable now) addr := by
  intro lease found
  rcases LeaseTable.ofEntries_eq_some_iff.mp found with ⟨entry, read, same⟩
  subst same
  exact ((foreign_of_available nothing available).2 entry read).2

/-! ## The calls of a client -/

/-- `discover` moves nothing but the cursor, and offers the address that the
client holds or a free one. -/
theorem discover_offers (valid : pool.Valid) (duid : Duid) (now : Instant) :
    ∃ next found, pool.discover duid now = .ok (next, found) ∧ pool.Remains next ∧
      next.leases = pool.leases ∧ ∀ addr, found = some addr →
        pool.leases.HeldBy addr duid ∨
          (∀ held, ¬pool.leases.HeldBy held duid) ∧ pool.leases.Free (Takeable now) addr := by
  cases found : pool.current duid with
  | some held =>
      refine ⟨_, _, discover_held valid found, ⟨valid, rfl⟩, rfl, ?_⟩
      intro addr offered
      cases offered
      exact .inl (leases_heldBy_iff.mpr (heldBy_of_current valid found))
  | none =>
      have nothing := (current_eq_none_iff valid).mp found
      rcases discover_free valid found now with ⟨offset, first, discovered⟩ | ⟨_, discovered⟩
      · refine ⟨_, _, discovered, ⟨valid.atOffset first.lt, rfl⟩, rfl, ?_⟩
        intro addr offered
        cases offered
        exact .inr ⟨not_heldBy_leases nothing, free_of_available nothing first.available⟩
      · refine ⟨_, _, discovered, ⟨valid, rfl⟩, rfl, ?_⟩
        intro addr offered
        cases offered

/-- `request` confirms the lease of the client, commits a new one, or does
nothing. -/
theorem request_event (valid : pool.Valid) (duid : Duid) (addr : Ipv6Addr)
    (fits : Instant.Fits now pool.leaseDuration) :
    ∃ next result event, pool.request duid addr now = .ok (next, result) ∧
      pool.Remains next ∧
      LeaseTable.Step (Takeable now) (now + pool.leaseDuration) pool.leases event
        next.leases ∧
      event.released = none ∧ ∀ ip, result = .ok ip →
        event.granted = some (duid, ip) ∧ event.shown = some (duid, ip) := by
  cases found : pool.current duid with
  | some held =>
      refine ⟨_, _, .confirm duid held, request_held valid found, ⟨valid, rfl⟩,
        .confirm (leases_heldBy_iff.mpr (heldBy_of_current valid found)), rfl, ?_⟩
      intro ip granted
      cases granted
      exact ⟨rfl, rfl⟩
  | none =>
      have nothing := (current_eq_none_iff valid).mp found
      cases free : pool.available duid addr now with
      | true =>
          refine ⟨_, _, .commit duid addr, request_free valid found free fits,
            ⟨valid_leased valid, rfl⟩, ?_, rfl, ?_⟩
          · rw [leases_leased valid]
            exact .commit (not_heldBy_leases nothing) (free_of_available nothing free)
          · intro ip granted
            cases granted
            exact ⟨rfl, rfl⟩
      | false =>
          refine ⟨_, _, .silent, request_refused valid found free, ⟨valid, rfl⟩, .silent,
            rfl, ?_⟩
          intro ip granted
          cases granted

/-- `release` drops one lease of the client, if there is one. -/
theorem release_event (valid : pool.Valid) (duid : Duid) {takeable : Option Instant → Prop}
    {expiry : Instant} :
    ∃ next held event, pool.release duid = .ok (next, held) ∧ pool.Remains next ∧
      LeaseTable.Step takeable expiry pool.leases event next.leases ∧
      event.released = some duid := by
  cases found : pool.current duid with
  | some addr =>
      refine ⟨_, _, .release duid addr, release_held valid found, ⟨valid_released valid, rfl⟩,
        ?_, rfl⟩
      rw [leases_released valid]
      exact .release (leases_heldBy_iff.mpr (heldBy_of_current valid found))
  | none =>
      have nothing := (current_eq_none_iff valid).mp found
      exact ⟨_, _, .releaseNothing duid, release_nothing valid found, ⟨valid, rfl⟩,
        .releaseNothing (not_heldBy_leases nothing), rfl⟩

end RustyDhcp.Dhcpv6.V6Pool
