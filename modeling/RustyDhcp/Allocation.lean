import RustyDhcp.Dhcpv6.PoolInvariant
import RustyDhcp.Server.Invariant

/-! # Allocation

A client without a lease is offered the first available address behind the
cursor, in the cyclic order of the pool, and nothing only if there is none. -/

namespace RustyDhcp

namespace MyServer

variable {store : MyServer} {packet : Packet} {chaddr : Mac} {now : Instant} {server : Server}

/-- Whether the address at an offset of the pool is available. -/
def availableOffset (store : MyServer) (chaddr : Mac) (now : Instant) (offset : Nat) : Bool :=
  Checked.passes (store.availableAt chaddr (store.address offset) now) id

/-- The address that a client is given, and the cursor behind it. -/
structure Allocates (store : MyServer) (chaddr : Mac) (now : Instant) (next : MyServer)
    (given : Option Ipv4Addr) : Prop where
  held : ∀ addr, store.currentLease chaddr = .ok (some addr) →
    given = some addr ∧ next.lastLease = store.lastLease
  scanned : store.currentLease chaddr = .ok none →
    ∃ found, given = found.map store.address ∧
      RoundRobin.Turn store.leaseNum.toNat (store.availableOffset chaddr now)
        store.lastLease.toNat next.lastLease.toNat found

theorem availableOffset_eq (valid : store.Valid) (chaddr : Mac) (now : Instant) :
    store.availableOffset chaddr now =
      fun offset => store.available chaddr (store.address offset) now := by
  funext offset
  rw [availableOffset, availableAt_eq valid]
  rfl

theorem lastLease_renamed (addr : Ipv4Addr) (hostname : Option Text) :
    (store.renamed addr hostname).lastLease = store.lastLease := by
  cases hostname <;> rfl

theorem allocates_held {addr : Ipv4Addr} {next : MyServer}
    (found : store.currentLease chaddr = .ok (some addr))
    (still : next.lastLease = store.lastLease) :
    store.Allocates chaddr now next (some addr) where
  held other current := by
    rw [found] at current
    cases current
    exact ⟨rfl, still⟩
  scanned missing := by
    rw [found] at missing
    cases missing

theorem allocates_scanned {next : MyServer} (found : Option Nat)
    (missing : store.currentLease chaddr = .ok none)
    (turn : RoundRobin.Turn store.leaseNum.toNat (store.availableOffset chaddr now)
      store.lastLease.toNat next.lastLease.toNat found) :
    store.Allocates chaddr now next (found.map store.address) where
  held other current := by
    rw [missing] at current
    cases current
  scanned _ := ⟨found, rfl, turn⟩

/-- With and without rapid commit alike. -/
theorem allocates_of_discover (valid : store.Valid) (packet : Packet) (now : Instant) :
    ∃ next reply, store.discover packet now = .ok (next, reply) ∧
      store.Allocates packet.chaddr now next (reply.map Reply.yiaddr) := by
  have searched : store.currentLease packet.chaddr = .ok (store.current packet.chaddr) :=
    currentLease_eq valid
  cases found : store.current packet.chaddr with
  | some addr =>
      rw [found] at searched
      exact ⟨_, _, discover_held valid found,
        allocates_held searched (lastLease_renamed addr (hostnameOf packet))⟩
  | none =>
      rw [found] at searched
      rcases firstFree_or_full valid packet.chaddr now with ⟨offset, first⟩ | full
      · refine ⟨_, _, discover_free valid found first,
          allocates_scanned (some offset) searched ?_⟩
        have moved : (if store.rapid packet then (store.atOffset offset).leased
            (store.address offset) packet now else store.atOffset offset).lastLease.toNat =
              offset := by
          split
          · exact atOffset_toNat first.lt
          · exact atOffset_toNat first.lt
        rw [moved, availableOffset_eq valid]
        exact RoundRobin.turn_of_isFirst first
      · refine ⟨_, _, discover_exhausted valid found full,
          allocates_scanned none searched ?_⟩
        rw [availableOffset_eq valid]
        exact RoundRobin.turn_of_rejected fun offset _ => full _

end MyServer

namespace Dhcpv6.V6Pool

variable {pool : V6Pool} {duid : Duid} {now : Instant}

/-- Whether the address at an offset of the pool is available. -/
def availableOffset (pool : V6Pool) (duid : Duid) (now : Instant) (offset : Nat) : Bool :=
  Checked.passes (pool.availableAt duid (pool.address offset) now) id

/-- The address that a client is given, and the cursor behind it. -/
structure Allocates (pool : V6Pool) (duid : Duid) (now : Instant) (next : V6Pool)
    (given : Option Ipv6Addr) : Prop where
  held : ∀ addr, pool.currentLease duid = .ok (some addr) →
    given = some addr ∧ next.last = pool.last
  scanned : pool.currentLease duid = .ok none →
    ∃ found, given = found.map pool.address ∧
      RoundRobin.Turn pool.count.toNat (pool.availableOffset duid now)
        pool.last.toNat next.last.toNat found
  overflows : pool.currentLease duid = .ok none → pool.rangeEnd = none → given = none

theorem availableOffset_eq (valid : pool.Valid) (duid : Duid) (now : Instant) :
    pool.availableOffset duid now =
      fun offset => pool.available duid (pool.address offset) now := by
  funext offset
  rw [availableOffset, availableAt_eq valid]
  rfl

theorem allocates_held {addr : Ipv6Addr} (found : pool.currentLease duid = .ok (some addr)) :
    pool.Allocates duid now pool (some addr) where
  held other current := by
    rw [found] at current
    cases current
    exact ⟨rfl, rfl⟩
  scanned missing := by
    rw [found] at missing
    cases missing
  overflows missing := by
    rw [found] at missing
    cases missing

theorem allocates_scanned {next : V6Pool} (found : Option Nat)
    (missing : pool.currentLease duid = .ok none)
    (turn : RoundRobin.Turn pool.count.toNat (pool.availableOffset duid now)
      pool.last.toNat next.last.toNat found)
    (overflows : pool.rangeEnd = none → found = none) :
    pool.Allocates duid now next (found.map pool.address) where
  held other current := by
    rw [missing] at current
    cases current
  scanned _ := ⟨found, rfl, turn⟩
  overflows _ ends := by rw [overflows ends, Option.map_none]

theorem allocates_of_discover (valid : pool.Valid) (duid : Duid) (now : Instant) :
    ∃ next given, pool.discover duid now = .ok (next, given) ∧
      pool.Allocates duid now next given := by
  have searched : pool.currentLease duid = .ok (pool.current duid) := currentLease_eq valid
  cases found : pool.current duid with
  | some addr =>
      rw [found] at searched
      exact ⟨_, _, discover_held valid found, allocates_held searched⟩
  | none =>
      rw [found] at searched
      rcases firstFree_or_full valid duid now with ⟨offset, first⟩ | full
      · refine ⟨_, _, discover_first valid found first,
          allocates_scanned (some offset) searched ?_ ?_⟩
        · rw [atOffset_toNat first.lt, availableOffset_eq valid]
          exact RoundRobin.turn_of_isFirst first
        · intro overflows
          have inside := (available_iff.mp first.available).1
          rw [valid.inRange_iff, overflows] at inside
          cases inside.1
      · refine ⟨_, _, discover_exhausted valid found full,
          allocates_scanned none searched ?_ fun _ => rfl⟩
        rw [availableOffset_eq valid]
        exact RoundRobin.turn_of_rejected fun offset _ => full _

end Dhcpv6.V6Pool

/-- Both servers allocate in a full turn behind the cursor, whether the DHCPv4
server commits rapidly or not and whatever storage the DHCPv6 pool has. An empty
pool panics as little as any other. -/
theorem allocates_of_run :
    (∀ {config hasher file server initial past state},
      config.validate = .ok config → MyServer.main config hasher file = .ok initial →
      Run (MyServer.handleRequest server) initial past state →
      ∀ packet now, packet.messageType = .ok .discover →
        ∃ next reply, MyServer.handleRequest server state ⟨packet, now⟩ = .ok (next, reply) ∧
          state.Allocates packet.chaddr now next (reply.map Reply.yiaddr)) ∧
    ∀ {hasher start count leaseDuration past state},
      Run Dhcpv6.V6Pool.call (Dhcpv6.V6Pool.new hasher start count leaseDuration) past state →
      ∀ duid now, ∃ next given, state.discover duid now = .ok (next, given) ∧
        state.Allocates duid now next given := by
  refine ⟨?_, ?_⟩
  · intro config hasher file server initial past state accepted loaded run packet now kind
    have valid := MyServer.valid_reached accepted loaded run
    rw [MyServer.handleRequest_discover kind]
    exact MyServer.allocates_of_discover valid packet now
  · intro hasher start count leaseDuration past state run duid now
    have valid := Dhcpv6.V6Pool.valid_reached run
    exact Dhcpv6.V6Pool.allocates_of_discover valid duid now

/-- Pools whose first address is leased. -/
theorem allocates_of_run_leased :
    (∃ session next reply, simulate (MyServer.handleRequest ⟨.new 192 168 2 1⟩)
        (MyServer.main MyServer.twoLeases Hasher.newestFirst none)
        [⟨MyServer.requestFor #v[3, 2, 3, 4, 5, 6] (.new 192 168 2 2), 5⟩] = .ok session ∧
      MyServer.handleRequest ⟨.new 192 168 2 1⟩ session.state
          ⟨.ofClient #v[3, 2, 3, 4, 5, 7] [.dhcpMessageType .discover], 6⟩ = .ok (next, reply) ∧
      session.state.Allocates #v[3, 2, 3, 4, 5, 7] 6 next (reply.map Reply.yiaddr)) ∧
    ∃ session next given, simulate Dhcpv6.V6Pool.call (.ok Dhcpv6.V6Pool.twoAddresses)
        [.request [3] Dhcpv6.V6Pool.firstAddress 5] = .ok session ∧
      session.state.current [3] = some Dhcpv6.V6Pool.firstAddress ∧
      session.state.discover [1] 6 = .ok (next, given) ∧
      session.state.Allocates [1] 6 next given := by
  refine ⟨?_, ?_⟩
  · have computed : Checked.passes (simulate (MyServer.handleRequest ⟨.new 192 168 2 1⟩)
        (MyServer.main MyServer.twoLeases Hasher.newestFirst none)
        [⟨MyServer.requestFor #v[3, 2, 3, 4, 5, 6] (.new 192 168 2 2), 5⟩])
        (fun session => session.past.length = 1) = true := by decide
    rcases Checked.exists_of_passes computed with ⟨session, simulated, _⟩
    rcases Run.of_simulate simulated with ⟨loaded, run⟩
    rcases allocates_of_run.1 rfl loaded run
      (.ofClient #v[3, 2, 3, 4, 5, 7] [.dhcpMessageType .discover]) 6 rfl with
      ⟨next, reply, handled, allocates⟩
    exact ⟨session, next, reply, simulated, handled, allocates⟩
  · have computed : Checked.passes (simulate Dhcpv6.V6Pool.call (.ok Dhcpv6.V6Pool.twoAddresses)
        [.request [3] Dhcpv6.V6Pool.firstAddress 5])
        (fun session => session.state.current [3] = some Dhcpv6.V6Pool.firstAddress) = true := by
      decide
    rcases Checked.exists_of_passes computed with ⟨session, simulated, held⟩
    rcases Run.of_simulate simulated with ⟨started, run⟩
    rw [← Except.ok.inj started] at run
    rcases allocates_of_run.2 run [1] 6 with ⟨next, given, discovered, allocates⟩
    exact ⟨session, next, given, simulated, of_decide_eq_true held, discovered, allocates⟩

end RustyDhcp
