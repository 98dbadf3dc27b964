import RustyDhcp.Dhcpv6.Bounds
import RustyDhcp.Dhcpv6.PlainDaemon
import RustyDhcp.ReadBack
import RustyDhcp.Server.Restart

/-! # Starting the DHCPv6 server again from a leases file

A file with a line `duid,ip` for every lease gives the leases to the next pool,
but for those of a client with an empty ID, which no line can name. -/

namespace RustyDhcp.Dhcpv6

/-- A client ID in hexadecimal digits, byte by byte. -/
def duidText (duid : Duid) : Text := [':'].intercalate (duid.map hexPair)

/-- The line of a leases file for a lease. -/
def reservationLine (lease : Duid × Ipv6Addr) : Text := duidText lease.1 ++ ',' :: lease.2.toText

def reservationText (leases : List (Duid × Ipv6Addr)) : Text :=
  leases.flatMap fun lease => reservationLine lease ++ ['\n']

variable {char : Char} {duid : Duid} {lease : Duid × Ipv6Addr}
variable {leases : List (Duid × Ipv6Addr)}

/-! ## The lines -/

theorem isPlain_of_mem_duidText (member : char ∈ duidText duid) : isPlain char = true := by
  apply isPlain_of_mem_intercalate (by decide) _ member
  intro part inside char member
  rcases List.mem_map.mp inside with ⟨byte, _, rfl⟩
  exact isPlain_of_mem_hexPair member

theorem isPlain_of_mem_reservationLine (member : char ∈ reservationLine lease) :
    isPlain char = true ∨ char = ',' := by
  rcases List.mem_append.mp member with client | address
  · exact .inl (isPlain_of_mem_duidText client)
  · rcases List.mem_cons.mp address with comma | address
    · exact .inr comma
    · exact .inl (isPlain_of_mem_ipv6 address)

/-- A line is the reservation that it was written for, unless the client ID is
empty. -/
theorem leasesLine_reservationLine (lease : Duid × Ipv6Addr) :
    leasesLine (reservationLine lease) = if lease.1 = [] then none else some lease := by
  rcases lease with ⟨duid, ip⟩
  have client : trim (duidText duid) = duidText duid :=
    trim_of_kept fun char member => isWhitespace_of_isPlain (isPlain_of_mem_duidText member)
  have address : trim ip.toText = ip.toText :=
    trim_of_kept fun char member => isWhitespace_of_isPlain (isPlain_of_mem_ipv6 member)
  have fields : (reservationLine (duid, ip)).splitOn ',' = [duidText duid, ip.toText] := by
    have whole : reservationLine (duid, ip) = [','].intercalate [duidText duid, ip.toText] := by
      simp [reservationLine]
    rw [whole, List.splitOn_intercalate ',' _ (List.cons_ne_nil _ _)]
    intro part inside member
    rcases List.mem_cons.mp inside with rfl | inside
    · exact absurd (isPlain_of_mem_duidText member) (by decide)
    · rw [List.mem_singleton] at inside
      subst inside
      exact absurd (isPlain_of_mem_ipv6 member) (by decide)
  rw [leasesLine, fields]
  dsimp only
  rw [client, address, Ipv6Addr.parseIpv6Addr_toText]
  cases duid with
  | nil => rfl
  | cons byte bytes =>
      rw [duidText, RustyDhcp.Duid.parseDuidHex_of_writes (RustyDhcp.Duid.writes_intercalate _)
        (List.cons_ne_nil byte bytes)]
      rfl

theorem reservations_reservationText (leases : List (Duid × Ipv6Addr)) :
    reservations (some (bufLines (asBytes (reservationText leases)))) =
      leases.filter fun lease => lease.1 ≠ [] := by
  have whole : reservationText leases =
      (leases.map reservationLine).flatMap fun line => line ++ ['\n'] := by
    rw [List.flatMap_map]
    rfl
  rw [whole, bufLines_flatMap]
  · rw [reservations, Option.getD_some, List.map_map, List.filterMap_map,
      ← List.filterMap_eq_filter]
    congr 1
    funext lease
    refine Eq.trans (leasesLine_reservationLine lease) ?_
    by_cases empty : lease.1 = []
    · rw [if_pos empty, Option.guard, if_neg (by simpa using empty)]
    · rw [if_neg empty, Option.guard, if_pos (by simpa using empty)]
  · rw [List.forall_mem_map]
    exact fun lease _ char member => isPlain_of_mem_reservationLine member

/-! ## The leases of a pool -/

namespace V6Pool

variable {config : Config} {pool next other state : V6Pool} {addr : Ipv6Addr}
variable {hasher : Hasher Ipv6Addr Entry} {received : Received} {sent : Option Sent}

/-- The leases, each as its holder and its address. -/
def held (pool : V6Pool) : List (Duid × Ipv6Addr) :=
  (pool.table.entries pool.layout).map fun found => (found.2.duid, found.1)

theorem mem_held_iff {duid : Duid} (valid : pool.Valid) :
    (duid, addr) ∈ pool.held ↔ pool.HeldBy addr duid := by
  rw [held, List.mem_map]
  constructor
  · intro found
    rcases found with ⟨⟨ip, entry⟩, listed, same⟩
    cases same
    exact ⟨entry, (SlotTable.mem_entries_iff valid.table).mp listed, rfl⟩
  · intro holds
    rcases holds with ⟨entry, found, owner⟩
    refine ⟨(addr, entry), (SlotTable.mem_entries_iff valid.table).mpr found, ?_⟩
    rw [← owner]
    rfl

/-- A pool that was started with the leases of another one has just these, without
an end, but for those of a client with an empty ID. -/
theorem leases_restarted {restarted : V6Pool} (valid : state.Valid)
    (same : ∀ lease, lease ∈ leases ↔ lease ∈ state.held)
    (started : startPool config hasher (some (bufLines (asBytes (reservationText leases)))) =
      .ok restarted) (addr : Ipv6Addr) :
    restarted.leases addr = ((state.leases addr).filter fun lease => lease.holder ≠ []).map
      fun lease => ⟨lease.holder, none⟩ := by
  have listed : ∀ duid, (duid, addr) ∈ leases.filter (fun lease => lease.1 ≠ []) ↔
      duid ≠ [] ∧ state.leases.HeldBy addr duid := by
    intro duid
    rw [List.mem_filter, same, mem_held_iff valid, ← leases_heldBy_iff, and_comm]
    simp
  rcases startPool_reserves config hasher
    (some (bufLines (asBytes (reservationText leases)))) with ⟨_, again, _, reserved⟩
  rw [started] at again
  cases again
  rw [reserved, reservations_reservationText]
  have absent : (∀ duid, ¬(duid ≠ [] ∧ state.leases.HeldBy addr duid)) →
      LeaseTable.reserve (fun _ => none) (leases.filter fun lease => lease.1 ≠ []) addr = none := by
    intro nobody
    apply LeaseTable.reserve_of_not_mem
    intro member
    rcases List.mem_map.mp member with ⟨⟨duid, _⟩, inside, rfl⟩
    exact nobody duid ((listed duid).mp inside)
  cases found : state.leases addr with
  | none =>
      apply absent
      rintro duid ⟨_, lease, held, _⟩
      rw [found] at held
      cases held
  | some lease =>
      have owner : ∀ {duid}, state.leases.HeldBy addr duid → duid = lease.holder := fun holds =>
        LeaseTable.HeldBy.unique holds ⟨lease, found, rfl⟩
      by_cases empty : lease.holder = []
      · rw [Option.filter_some, if_neg (by simpa using empty), absent]
        · rfl
        · rintro duid ⟨named, holds⟩
          exact named ((owner holds).trans empty)
      · rw [Option.filter_some, if_pos (by simpa using empty)]
        apply LeaseTable.reserve_of_agreed ((listed lease.holder).mpr ⟨empty, lease, found, rfl⟩)
        intro duid inside
        exact owner ((listed duid).mp inside).2

/-! ## Who holds a lease does not notice -/

/-- Who holds an address under a name. -/
def named (pool : V6Pool) (addr : Ipv6Addr) : Option Duid :=
  ((pool.leases addr).map Lease.holder).filter fun duid => duid ≠ []

variable {duid : Duid}

theorem heldBy_iff_named (named : duid ≠ []) : pool.HeldBy addr duid ↔
    pool.named addr = some duid := by
  rw [← leases_heldBy_iff, V6Pool.named, LeaseTable.HeldBy, Option.filter_eq_some_iff,
    Option.map_eq_some_iff]
  simp [named]

theorem named_released (valid : pool.Valid) :
    (pool.released duid addr).named = Function.update pool.named addr none := by
  funext ip
  rw [named, leases_released valid]
  by_cases same : ip = addr
  · rw [same, Function.update_self, Function.update_self]
    rfl
  · rw [Function.update_of_ne same, Function.update_of_ne same]
    rfl

/-- A pool in which nobody holds two addresses. -/
structure Steady (config : Config) (pool : V6Pool) : Prop where
  serves : Serves config pool
  single : pool.leases.SingleHolding

theorem Steady.current_eq_some_iff (steady : Steady config pool) :
    pool.current duid = some addr ↔ pool.HeldBy addr duid := by
  constructor
  · exact heldBy_of_current steady.serves.valid
  · intro holds
    cases found : pool.current duid with
    | none => exact absurd holds ((current_eq_none_iff steady.serves.valid).mp found addr)
    | some other =>
        have held := heldBy_of_current steady.serves.valid found
        rw [steady.single (leases_heldBy_iff.mpr held) (leases_heldBy_iff.mpr holds)]

theorem Steady.step (steady : Steady config pool)
    (served : serveV6 config pool received = .ok (next, sent)) : Steady config next := by
  rcases outcome_of_served steady.serves served with ⟨event, outcome⟩
  exact ⟨steady.serves.step served, steady.single.step outcome.step⟩

theorem steady_startPool {file : LeasesFile}
    (duids : ((reservations file).map Prod.fst).Nodup)
    (started : startPool config hasher file = .ok pool) : Steady config pool := by
  rcases startPool_reserves config hasher file with ⟨_, again, serves, reserved⟩
  rw [started] at again
  cases again
  refine ⟨serves, ?_⟩
  rw [reserved]
  exact LeaseTable.singleHolding_reserve duids

/-- Two pools of one configuration with the same holders, but for those without a
name. -/
structure SameHolders (config : Config) (pool other : V6Pool) : Prop where
  steady : Steady config pool ∧ Steady config other
  same : pool.named = other.named

/-- What somebody who holds `addr` is answered. -/
def confirmation (config : Config) (duid : Duid) (received : Received) (addr : Ipv6Addr) :
    Option Sent :=
  match received.packet.msgType with
  | .solicit =>
      some (success config duid received (solicitType config received.packet) addr)
  | .request | .renew | .rebind =>
      received.packet.wanted.map fun _ => success config duid received .reply addr
  | _ => none

/-- The holder of an address keeps it and is told so, or gives it up. -/
theorem serveV6_holder (config : Config) (valid : pool.Valid)
    (client : received.packet.clientDuid = some duid)
    (current : pool.current duid = some addr) :
    serveV6 config pool received =
      .ok (if releases config received.packet = some duid then pool.released duid addr else pool,
        confirmation config duid received addr) := by
  have unreleased : received.packet.msgType ≠ .release → received.packet.msgType ≠ .decline →
      releases config received.packet ≠ some duid := by
    intro notRelease notDecline
    rw [releases_of_not notRelease notDecline]
    simp
  have freed : received.packet.msgType = .release ∨ received.packet.msgType = .decline →
      Dhcpv6.release config pool duid received =
        .ok (if releases config received.packet = some duid then pool.released duid addr
          else pool, none) := by
    intro kind
    rw [Dhcpv6.release, releases, client]
    cases isForServer config.serverDuid received.packet with
    | true =>
        simp only [kind, true_and, if_true, release_held valid current, Checked.bind_ok]
        rfl
    | false => simp
  rw [serveV6, client]
  dsimp only
  cases kind : received.packet.msgType with
  | solicit =>
      rw [kind] at unreleased
      rw [if_neg (unreleased (by decide) (by decide)), solicit_held valid current, confirmation,
        kind]
  | request | renew | rebind =>
      rw [kind] at unreleased
      rw [if_neg (unreleased (by decide) (by decide)), Dhcpv6.request, confirmation, kind]
      cases wanted : received.packet.wanted with
      | none => rfl
      | some addr =>
          simp only [request_held valid current, Checked.bind_ok]
          rfl
  | release =>
      rw [confirmation, kind]
      exact freed (.inl kind)
  | decline =>
      rw [confirmation, kind]
      exact freed (.inr kind)
  | _ =>
      rw [kind] at unreleased
      rw [if_neg (unreleased (by decide) (by decide)), confirmation, kind]

/-- Pools with the same holders treat whoever holds a lease in the same way. -/
theorem SameHolders.step (alike : SameHolders config pool other) (named : duid ≠ [])
    (client : received.packet.clientDuid = some duid) (held : pool.HeldBy addr duid)
    (served : serveV6 config pool received = .ok (next, sent)) :
    ∃ after, serveV6 config other received = .ok (after, sent) ∧
      SameHolders config next after := by
  rcases alike with ⟨⟨first, second⟩, same⟩
  have otherHeld : other.HeldBy addr duid := by
    rw [heldBy_iff_named named, ← same]
    exact (heldBy_iff_named named).mp held
  have left := serveV6_holder config first.serves.valid client (first.current_eq_some_iff.mpr held)
  have right := serveV6_holder config second.serves.valid client
    (second.current_eq_some_iff.mpr otherHeld)
  rw [served] at left
  cases left
  refine ⟨_, right, ⟨first.step served, second.step right⟩, ?_⟩
  split
  · rw [named_released first.serves.valid, named_released second.serves.valid, same]
  · exact same

/-- What arrived is from somebody who holds a lease under a name, or cannot be decoded,
or names nobody. -/
def Knows (pool : V6Pool) (arrival : Arrival IoError) : Prop :=
  ∀ packet, Packet.fromBytes arrival.received = .ok packet → ∀ duid,
    packet.clientDuid = some duid → duid ≠ [] ∧ ∃ addr, pool.HeldBy addr duid

theorem sameHolders_restarted {restarted : V6Pool} (steady : Steady config state)
    (saved : ∀ lease, lease ∈ leases ↔ lease ∈ state.held)
    (started : startPool config hasher (some (bufLines (asBytes (reservationText leases)))) =
      .ok restarted) : SameHolders config state restarted := by
  have restored := leases_restarted steady.serves.valid saved started
  have same : state.named = restarted.named := by
    funext addr
    rw [named, named, restored]
    cases state.leases addr with
    | none => rfl
    | some lease =>
        by_cases empty : lease.holder = []
        · simp [Option.filter_some, empty]
        · simp [Option.filter_some, empty]
  have before : ∀ {addr duid}, restarted.leases.HeldBy addr duid →
      state.leases.HeldBy addr duid := by
    rintro addr duid ⟨lease, found, owner⟩
    rw [restored, Option.map_eq_some_iff] at found
    rcases found with ⟨old, kept, rfl⟩
    exact ⟨old, (Option.filter_eq_some_iff.mp kept).1, owner⟩
  have single : restarted.leases.SingleHolding := fun _ _ _ leftHeld rightHeld =>
    steady.single (before leftHeld) (before rightHeld)
  rcases startPool_reserves config hasher
    (some (bufLines (asBytes (reservationText leases)))) with ⟨_, again, serves, _⟩
  rw [started] at again
  cases again
  exact ⟨⟨steady, serves, single⟩, same⟩

end V6Pool

variable {config : Config} {initial state pool next : V6Pool} {file : LeasesFile}
variable {hasher : Hasher Ipv6Addr V6Pool.Entry} {IoError : Type} {arrival : Arrival IoError}
variable {reaction : Reaction} {past : List (Handled V6Pool (Arrival IoError) Reaction)}

theorem V6Pool.Steady.round (steady : V6Pool.Steady config pool)
    (done : Dhcpv6.round config pool arrival = .ok (next, reaction)) :
    V6Pool.Steady config next := by
  cases round_of_round done with
  | malformed => exact steady
  | unanswered _ served => exact steady.step served
  | answered _ served => exact steady.step served

theorem round_sameHolders {other : V6Pool} (alike : V6Pool.SameHolders config pool other)
    (known : pool.Knows arrival) (done : round config pool arrival = .ok (next, reaction)) :
    ∃ after, round config other arrival = .ok (after, reaction) ∧
      V6Pool.SameHolders config next after := by
  have again : ∀ {packet sent}, Packet.fromBytes arrival.received = .ok packet →
      serveV6 config pool (arrival.carrying packet) = .ok (next, sent) →
        ∃ after, serveV6 config other (arrival.carrying packet) = .ok (after, sent) ∧
          V6Pool.SameHolders config next after := by
    intro packet sent decoded served
    cases client : packet.clientDuid with
    | none =>
        have unnamed : ∀ pool,
            serveV6 config pool (arrival.carrying packet) = .ok (pool, none) := by
          intro pool
          have anonymous : (arrival.carrying packet).packet.clientDuid = none := client
          rw [serveV6, anonymous]
        rw [unnamed pool] at served
        cases served
        exact ⟨other, unnamed other, alike⟩
    | some duid =>
        rcases known packet decoded duid client with ⟨named, addr, held⟩
        exact alike.step named client held served
  cases round_of_round done with
  | malformed refused =>
      refine ⟨other, ?_, alike⟩
      rw [round, refused]
      rfl
  | unanswered decoded served =>
      rcases again decoded served with ⟨after, reserved, alike⟩
      refine ⟨after, ?_, alike⟩
      rw [round, decoded]
      simp only [reserved, Checked.bind_ok]
      rfl
  | answered decoded served =>
      rcases again decoded served with ⟨after, reserved, alike⟩
      refine ⟨after, ?_, alike⟩
      rw [round, decoded]
      simp only [reserved, transmit_eq, Checked.bind_ok]
      rfl

/-- The leases of the pool, written to a leases file in any order, are the leases of the
pool that starts with this file, but for those without a name. As long as only clients
with a name and a lease send anything, the server answers as the old one would. -/
theorem resumed_of_run (duids : ((reservations file).map Prod.fst).Nodup)
    (started : startPool config hasher file = .ok initial)
    (run : Run (round config) initial past state)
    (saved : ∀ lease, lease ∈ leases ↔ lease ∈ state.held)
    (otherHasher : Hasher Ipv6Addr V6Pool.Entry) :
    ∃ restarted, startPool config otherHasher
        (some (bufLines (asBytes (reservationText leases)))) = .ok restarted ∧
      (∀ addr, restarted.leases addr =
        ((state.leases addr).filter fun lease => lease.holder ≠ []).map
          fun lease => ⟨lease.holder, none⟩) ∧
      ∀ (later : List (Handled V6Pool (Arrival IoError) Reaction)) (final : V6Pool),
        Run (round config) state later final →
        (∀ handled ∈ later, handled.before.Knows handled.input) →
          ∃ relived last, Run (round config) restarted relived last ∧
            relived.map Handled.seen = later.map Handled.seen := by
  have steady : V6Pool.Steady config state :=
    run.invariant (V6Pool.steady_startPool duids started) fun steady done => steady.round done
  rcases startPool_reserves config otherHasher
    (some (bufLines (asBytes (reservationText leases)))) with ⟨restarted, restart, _⟩
  refine ⟨restarted, restart, V6Pool.leases_restarted steady.serves.valid saved restart, ?_⟩
  intro later final more known
  have alike := V6Pool.sameHolders_restarted steady saved restart
  rcases more.follow alike fun handled listed other related done =>
    round_sameHolders related (known handled listed) done with ⟨relived, last, again, _, same⟩
  exact ⟨relived, last, again, same⟩

/-- A Request with an empty client ID. -/
def nameless : List (Arrival String) :=
  [.ofPacket (requestFor [] (.new 0xfd00 0 0 0 0 0 0 0x101)) 0]

set_option maxRecDepth 10000 in
/-- A client with an empty ID loses the lease that it got beside a reservation. -/
theorem resumed_of_run_nameless : ∃ session,
    simulate (round twoAddressConfig)
        (startPool twoAddressConfig Hasher.newestFirst oneReservation) nameless = .ok session ∧
      session.state.held.length = 2 ∧ ∃ restarted,
        startPool twoAddressConfig Hasher.newestFirst
            (some (bufLines (asBytes (reservationText session.state.held)))) = .ok restarted ∧
          ∀ addr, restarted.leases addr =
            ((session.state.leases addr).filter fun lease => lease.holder ≠ []).map
              fun lease => ⟨lease.holder, none⟩ := by
  have computed : Checked.passes (simulate (round twoAddressConfig)
      (startPool twoAddressConfig Hasher.newestFirst oneReservation) nameless)
      (fun session => session.state.held.length = 2) = true := by
    decide
  rcases Checked.exists_of_passes computed with ⟨session, simulated, two⟩
  rcases Run.of_simulate simulated with ⟨started, run⟩
  rcases resumed_of_run (by decide) started run (fun _ => Iff.rfl) Hasher.newestFirst with
    ⟨restarted, restart, same, _⟩
  exact ⟨session, simulated, of_decide_eq_true two, restarted, restart, same⟩

end RustyDhcp.Dhcpv6
