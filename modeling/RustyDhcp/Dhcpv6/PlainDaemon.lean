import RustyDhcp.Dhcpv6.PoolRefinement
import RustyDhcp.Dhcpv6.Reservations
import RustyDhcp.Dhcpv6.Upheld
import RustyDhcp.Foundation.Transcript

/-! # The DHCPv6 daemon over a plain map

What the daemon is for: it serves one finite map, and neither the map nor the
sending of an answer can fail. A rapid commit always commits what was found. -/

namespace RustyDhcp.Dhcpv6

namespace LeaseMap

/-- The map with reservations for good, in order. -/
def reserve (spec : LeaseMap) (reserved : List (Duid × Ipv6Addr)) : LeaseMap :=
  reserved.foldl (fun spec pair => spec.insert pair.2 pair.1 none) spec

def ofConfig (config : Config) (order : Hasher Ipv6Addr V6Pool.Entry)
    (reserved : List (Duid × Ipv6Addr)) : LeaseMap :=
  (new order config.ipv6Start config.ipv6LeaseNum
    (Duration.ofSecs config.ipv6LeaseDurationSecs)).reserve reserved

section

variable (config : Config) (spec : LeaseMap) (duid : Duid) (received : Received)

def solicit : LeaseMap × Sent :=
  let answer := success config duid received (solicitType config received.packet)
  match spec.discover duid received.discovered with
  | (spec, some addr) =>
      if asksRapid config received.packet then
        ((spec.request duid addr received.requested).1, answer addr)
      else (spec, answer addr)
  | (spec, none) => (spec, failure config duid received (solicitType config received.packet))

def requestAddr (addr : Ipv6Addr) : LeaseMap × Sent :=
  match spec.request duid addr received.requested with
  | (spec, .ok ip) => (spec, success config duid received .reply ip)
  | (spec, .error _) => (spec, failure config duid received .reply)

end

def serve (config : Config) (spec : LeaseMap) (received : Received) : LeaseMap × Option Sent :=
  match received.packet.clientDuid, received.packet.msgType with
  | some duid, .solicit => (spec.solicit config duid received).map id some
  | some duid, .request | some duid, .renew | some duid, .rebind =>
      match received.packet.wanted with
      | some addr => (spec.requestAddr config duid received addr).map id some
      | none => (spec, none)
  | some duid, .release | some duid, .decline =>
      if isForServer config.serverDuid received.packet then ((spec.release duid).1, none)
      else (spec, none)
  | _, _ => (spec, none)

/-- A round of the daemon over the map. -/
def round (config : Config) (spec : LeaseMap) (arrival : Arrival IoError) :
    LeaseMap × Reaction :=
  match Packet.fromBytes arrival.received with
  | .ok packet =>
      (spec.serve config (arrival.carrying packet)).map id fun answer =>
        .handled (answer.bind (Sent.datagram arrival.outcome))
  | .error _ => (spec, .noted (malformedNote arrival.received.length))

/-- What the daemon over the map puts out. -/
def reactions (config : Config) : LeaseMap → List (Arrival IoError) → List Reaction
  | _, [] => []
  | spec, arrival :: arrivals =>
      let (next, reaction) := spec.round config arrival
      reaction :: reactions config next arrivals

end LeaseMap

namespace Represents

variable {config : Config} {pool : V6Pool} {spec : LeaseMap} {received : Received} {duid : Duid}

/-! ## Serving -/

/-- No lease of the server runs out later than there are `Instant`s. -/
theorem request_serving (represents : Represents pool spec) (serves : Serves config pool)
    (addr : Ipv6Addr) : ∃ next,
    pool.request duid addr received.requested =
        .ok (next, (spec.request duid addr received.requested).2) ∧
      Represents next (spec.request duid addr received.requested).1 := by
  rcases represents.request duid addr received.requested with returned | ⟨late, _⟩
  · exact returned
  · rw [← represents.leaseDuration] at late
    exact absurd (serves.fits received.requested) late

theorem solicit (represents : Represents pool spec) (serves : Serves config pool) : ∃ next,
    Dhcpv6.solicit config pool duid received =
      .ok (next, some (spec.solicit config duid received).2) ∧
        Represents next (spec.solicit config duid received).1 := by
  rcases represents.discover duid received.discovered with ⟨middle, discovered, found⟩
  rw [Dhcpv6.solicit, LeaseMap.solicit, solicitType, ← asksRapid]
  generalize spec.discover duid received.discovered = result at discovered found ⊢
  rcases result with ⟨spec, _ | addr⟩
  · cases asksRapid config received.packet with
    | false =>
        simp only [Bool.false_eq_true, if_false, discovered, Checked.bind_ok]
        exact ⟨middle, rfl, found⟩
    | true =>
        simp only [if_true, discovered, Checked.bind_ok]
        exact ⟨middle, rfl, found⟩
  · cases asksRapid config received.packet with
    | false =>
        simp only [Bool.false_eq_true, if_false, discovered, Checked.bind_ok]
        exact ⟨middle, rfl, found⟩
    | true =>
        rcases V6Pool.discover_offers represents.valid duid received.discovered with
          ⟨offering, offered, same, remains, _⟩
        cases discovered.symm.trans same
        rcases found.request_serving (serves.remains remains) addr with ⟨next, requested, after⟩
        rcases V6Pool.request_of_discover represents.valid received.ordered
          (serves.fits received.requested) discovered with ⟨committed, granted, _⟩
        have same : committed = next :=
          (Prod.mk.inj (Except.ok.inj (granted.symm.trans requested))).1
        rw [← same] at after
        simp only [if_true, discovered, granted, Checked.bind_ok]
        exact ⟨committed, rfl, after⟩

theorem requestAddr (represents : Represents pool spec) (serves : Serves config pool)
    {addr : Ipv6Addr} (wanted : received.packet.wanted = some addr) : ∃ next,
    Dhcpv6.request config pool duid received =
      .ok (next, some (spec.requestAddr config duid received addr).2) ∧
        Represents next (spec.requestAddr config duid received addr).1 := by
  rcases represents.request_serving serves addr with ⟨next, requested, after⟩
  rw [Dhcpv6.request, LeaseMap.requestAddr, wanted]
  generalize spec.request duid addr received.requested = result at requested after ⊢
  rcases result with ⟨spec, message | ip⟩
  · simp only [requested, Checked.bind_ok]
    exact ⟨next, rfl, after⟩
  · simp only [requested, Checked.bind_ok]
    exact ⟨next, rfl, after⟩

theorem request_nothing (wanted : received.packet.wanted = none) :
    Dhcpv6.request config pool duid received = .ok (pool, none) := by
  rw [Dhcpv6.request, wanted]

/-- The server answers a packet as the map does, and goes on representing it. -/
theorem serveV6 (represents : Represents pool spec) (serves : Serves config pool)
    (received : Received) : ∃ next,
    Dhcpv6.serveV6 config pool received = .ok (next, (spec.serve config received).2) ∧
      Represents next (spec.serve config received).1 := by
  rw [Dhcpv6.serveV6, LeaseMap.serve]
  cases received.packet.clientDuid with
  | none => exact ⟨pool, rfl, represents⟩
  | some duid =>
      cases received.packet.msgType with
      | solicit => exact represents.solicit serves
      | request | renew | rebind =>
          cases wanted : received.packet.wanted with
          | none => exact ⟨pool, request_nothing wanted, represents⟩
          | some addr => exact represents.requestAddr serves wanted
      | release | decline =>
          dsimp only
          rw [Dhcpv6.release]
          cases isForServer config.serverDuid received.packet with
          | false => exact ⟨pool, rfl, represents⟩
          | true =>
              rcases represents.release duid with ⟨next, released, after⟩
              simp only [if_true, released, Checked.bind_ok]
              exact ⟨next, rfl, after⟩
      | _ => exact ⟨pool, rfl, represents⟩

theorem round (represents : Represents pool spec) (serves : Serves config pool)
    (arrival : Arrival IoError) : ∃ next,
    Dhcpv6.round config pool arrival = .ok (next, (spec.round config arrival).2) ∧
      Represents next (spec.round config arrival).1 := by
  rw [Dhcpv6.round, LeaseMap.round]
  rcases fromBytes_returns arrival.received with ⟨packet, decoded⟩ | ⟨error, refused⟩
  · rcases represents.serveV6 serves (arrival.carrying packet) with ⟨next, served, after⟩
    rw [decoded]
    dsimp only
    generalize spec.serve config (arrival.carrying packet) = result at served after ⊢
    rcases result with ⟨spec, _ | answer⟩
    · simp only [served, Checked.bind_ok]
      exact ⟨next, rfl, after⟩
    · simp only [served, Checked.bind_ok, transmit_eq]
      exact ⟨next, rfl, after⟩
  · rw [refused]
    exact ⟨pool, rfl, represents⟩

/-! ## Starting -/

theorem loadLeases (represents : Represents pool spec) {lines : List (Option Text)}
    {next : V6Pool} (nodup : ((lines.filterMap reservation).map Prod.fst).Nodup)
    (fresh : ∀ pair ∈ lines.filterMap reservation, ∀ addr entry,
      spec.leases.get? addr = some entry → entry.duid ≠ pair.1)
    (loaded : Dhcpv6.loadLeases pool lines = .ok next) :
    Represents next (spec.reserve (lines.filterMap reservation)) := by
  induction lines generalizing pool spec with
  | nil =>
      cases loaded
      exact represents
  | cons line lines induction =>
      rw [Dhcpv6.loadLeases, loadLine] at loaded
      cases read : line.bind leasesLine with
      | none =>
          have skipped : (line :: lines).filterMap reservation = lines.filterMap reservation :=
            List.filterMap_cons_none read
          rw [read, Checked.bind_ok] at loaded
          rw [skipped] at nodup fresh ⊢
          exact induction represents nodup fresh loaded
      | some pair =>
          have split : (line :: lines).filterMap reservation =
              pair :: lines.filterMap reservation := List.filterMap_cons_some read
          rw [split] at nodup fresh ⊢
          rw [List.map_cons, List.nodup_cons] at nodup
          rcases List.forall_mem_cons.mp fresh with ⟨unused, others⟩
          simp only [read, V6Pool.insert_eq represents.valid, Checked.bind_ok] at loaded
          have oneAddress : spec.OneAddress (.insert pair.2 pair.1 none) :=
            fun other entry found owner => absurd owner (unused other entry found)
          refine induction (represents.inserted oneAddress) nodup.2 ?_ loaded
          intro later member addr entry found
          simp only [LeaseMap.insert, HashMap.get?_insert] at found
          split at found
          · cases found
            intro same
            have listed : pair.1 ∈ (lines.filterMap reservation).map Prod.fst :=
              List.mem_map.mpr ⟨later, member, same.symm⟩
            exact nodup.1 listed
          · exact others later member addr entry found

end Represents

variable {config : Config} {pool : V6Pool} {hasher order : Hasher Ipv6Addr V6Pool.Entry}
variable {file : LeasesFile}

/-- The pool that the daemon starts with represents the map of the reservations,
if nobody is reserved two addresses. -/
theorem represents_startPool (duids : ((reservations file).map Prod.fst).Nodup)
    (started : startPool config hasher file = .ok pool) :
    Represents pool (.ofConfig config order (reservations file)) := by
  have empty : Represents (emptyPool config hasher) (.ofConfig config order []) :=
    represents_new _ _ _ _ _ _
  cases file with
  | none =>
      cases started
      exact empty
  | some lines =>
      refine empty.loadLeases duids ?_ started
      intro pair _ addr entry found
      cases found.symm.trans (HashMap.get?_new order addr)

/-! ## Whole runs -/

/-- What the map puts out is what a machine that never stops does. -/
theorem transcript_reactions (config : Config) (spec : LeaseMap)
    (arrivals : List (Arrival IoError)) :
    transcript (fun spec arrival =>
        (.ok (LeaseMap.round config spec arrival) : Checked (LeaseMap × Reaction))) spec arrivals =
      (spec.reactions config arrivals, none) := by
  induction arrivals generalizing spec with
  | nil => rfl
  | cons arrival arrivals induction => simp only [transcript, LeaseMap.reactions, induction]

/-- Byte for byte, the daemon is the server over the plain map, for every storage
and every order of its maps, and it never stops. -/
theorem transcript_eq_reactions (order : Hasher Ipv6Addr V6Pool.Entry)
    (duids : ((reservations file).map Prod.fst).Nodup)
    (started : startPool config hasher file = .ok pool) (arrivals : List (Arrival IoError)) :
    transcript (round config) pool arrivals =
      ((LeaseMap.ofConfig config order (reservations file)).reactions config arrivals, none) := by
  rw [← transcript_reactions]
  have agree : ∀ {pool spec} (arrival : Arrival IoError),
      Serves config pool ∧ Represents pool spec →
      Agree (fun pool spec => Serves config pool ∧ Represents pool spec)
        (round config pool arrival) (.ok (LeaseMap.round config spec arrival)) := by
    rintro pool spec arrival ⟨serves, represents⟩
    rcases represents.round serves arrival with ⟨next, done, after⟩
    have kept := (round_of_round done).serves serves
    rw [done]
    exact .output ⟨kept, after⟩
  exact transcript_eq agree ⟨serves_of_started started, represents_startPool duids started⟩
    arrivals

/-- A reserved client, a datagram that is cut off, and an answer that is not sent. -/
theorem transcript_eq_reactions_reserved : ∃ pool,
    startPool twoAddressConfig Hasher.newestFirst oneReservation = .ok pool ∧
      transcript (round twoAddressConfig) pool threeArrivals =
        ((LeaseMap.ofConfig twoAddressConfig Hasher.newestFirst
          (reservations oneReservation)).reactions twoAddressConfig threeArrivals, none) := by
  rcases startPool_reserves twoAddressConfig Hasher.newestFirst oneReservation with
    ⟨pool, started, _⟩
  exact ⟨pool, started, transcript_eq_reactions _ (by decide) started _⟩

end RustyDhcp.Dhcpv6
