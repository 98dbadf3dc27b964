import RustyDhcp.Dhcpv6.PoolInvariant
import RustyDhcp.Dhcpv6.PoolLeases
import RustyDhcp.Dhcpv6.ServeV6

/-! # The DHCPv6 server as a lease protocol

Handling a packet is one event of the abstract protocol on the leases of the
pool, and every address in the answer is the one that the event shows. -/

namespace RustyDhcp.Dhcpv6

/-- A packet that was handled, between the pools around it. -/
abbrev Serving := Handled V6Pool Received (Option Sent)

def Dhcpv6Option.iaAddrs : Dhcpv6Option → List IaAddr
  | .iaNa ia => ia.addrs
  | _ => []

/-- Every address that a packet carries. -/
def Packet.iaAddrs (packet : Packet) : List IaAddr :=
  packet.options.flatMap Dhcpv6Option.iaAddrs

/-- Whose lease a packet gives up. -/
def releases (config : Config) (packet : Packet) : Option Duid :=
  if (packet.msgType = .release ∨ packet.msgType = .decline) ∧
      isForServer config.serverDuid packet = true then
    packet.clientDuid
  else none

/-- An address in the answer is the one that the event shows to the client
that is answered, with the lease time as its valid lifetime. A Reply grants
it. -/
def Answers (config : Config) (event : LeaseTable.Event Ipv6Addr Duid)
    (sent : Option Sent) : Prop :=
  ∀ answer ∈ sent, ∀ leased ∈ answer.packet.iaAddrs, ∃ duid,
    answer.packet.clientDuid = some duid ∧ event.shown = some (duid, leased.addr) ∧
      leased.valid = config.ipv6LeaseDurationSecs ∧
      (answer.packet.msgType = .reply → event.granted = some (duid, leased.addr))

structure Outcome (config : Config) (pool : V6Pool) (received : Received) (next : V6Pool)
    (sent : Option Sent) (event : LeaseTable.Event Ipv6Addr Duid) : Prop where
  remains : pool.Remains next
  step : LeaseTable.Step (V6Pool.Takeable received.requested)
    (received.requested + pool.leaseDuration) pool.leases event next.leases
  released : event.released = releases config received.packet
  answers : Answers config event sent

variable {config : Config} {pool initial state : V6Pool} {received : Received}
variable {duid : Duid} {ip : Ipv6Addr} {msgType : MsgType} {past : List Serving}
variable {event : LeaseTable.Event Ipv6Addr Duid}

/-- What stays true of the pool that the server works with. -/
structure Serves (config : Config) (pool : V6Pool) : Prop where
  valid : pool.Valid
  leaseDuration : pool.leaseDuration = Duration.ofSecs config.ipv6LeaseDurationSecs

/-- Whenever it commits a lease, the lease runs out at an `Instant`. -/
theorem Serves.fits (serves : Serves config pool) (now : Reading) :
    Instant.Fits now pool.leaseDuration := by
  rw [serves.leaseDuration]
  exact now.fits (Duration.ofSecs_le_longest _)

theorem Serves.request_free {addr : Ipv6Addr} {now : Reading} (serves : Serves config pool)
    (nothing : pool.current duid = none) (free : pool.available duid addr now = true) :
    pool.request duid addr now = .ok (pool.leased duid addr now, .ok addr) :=
  V6Pool.request_free serves.valid nothing free (serves.fits now)

theorem Serves.remains {next : V6Pool} (serves : Serves config pool)
    (remains : pool.Remains next) : Serves config next :=
  ⟨remains.valid, remains.leaseDuration.trans serves.leaseDuration⟩

/-! ## Answers -/

theorem iaAddrs_success : (success config duid received msgType ip).packet.iaAddrs =
    [⟨ip, config.ipv6LeaseDurationSecs, config.ipv6LeaseDurationSecs⟩] := by
  rw [success, sendV6, Packet.iaAddrs]
  cases config.ipv6Dns <;> rfl

theorem answers_success (shown : event.shown = some (duid, ip))
    (granted : msgType = .reply → event.granted = some (duid, ip)) :
    Answers config event (some (success config duid received msgType ip)) := by
  intro answer sent leased carried
  cases sent
  rw [iaAddrs_success, List.mem_singleton] at carried
  subst carried
  exact ⟨duid, rfl, shown, rfl, granted⟩

theorem answers_failure : Answers config event (some (failure config duid received msgType)) := by
  intro answer sent leased carried
  cases sent
  cases carried

theorem answers_none : Answers config event none := by
  intro answer sent
  cases sent

/-! ## Packets -/

theorem releases_of_not (kind : received.packet.msgType ≠ .release)
    (other : received.packet.msgType ≠ .decline) : releases config received.packet = none := by
  rw [releases, if_neg]
  exact fun accepted => accepted.1.elim kind other

theorem solicit_outcome (serves : Serves config pool) (kind : received.packet.msgType = .solicit)
    (duid : Duid) : ∃ next sent event, solicit config pool duid received = .ok (next, sent) ∧
      Outcome config pool received next sent event := by
  have unreleased : releases config received.packet = none := by
    apply releases_of_not <;> rw [kind] <;> exact fun same => nomatch same
  rcases V6Pool.discover_offers serves.valid duid received.discovered with
    ⟨middle, found, discovered, remains, unchanged, offers⟩
  have exhausted {msgType} : Outcome config pool received middle
      (some (failure config duid received msgType)) .silent := by
    refine ⟨remains, ?_, unreleased.symm, answers_failure⟩
    rw [unchanged]
    exact .silent
  cases rapid : config.enableRapidCommit && (received.packet.option optRapidCommit).isSome with
  | false =>
      simp only [solicit, rapid, Bool.false_eq_true, if_false, discovered, Checked.bind_ok]
      cases found with
      | none => exact ⟨_, _, .silent, rfl, exhausted⟩
      | some offered =>
          refine ⟨_, _, .offer duid offered, rfl, remains, ?_, unreleased.symm,
            answers_success rfl fun same => nomatch same⟩
          rw [unchanged]
          rcases offers offered rfl with held | ⟨nothing, free⟩
          · exact .offerHeld held
          · refine .offerFree nothing fun lease read => ?_
            rcases free lease read with ⟨limit, runsOut, past⟩
            exact ⟨limit, runsOut, Nat.lt_of_lt_of_le past received.ordered⟩
  | true =>
      simp only [solicit, rapid, if_true, discovered, Checked.bind_ok]
      cases found with
      | none => exact ⟨_, _, .silent, rfl, exhausted⟩
      | some offered =>
          have fits := (serves.remains remains).fits received.requested
          rcases V6Pool.request_event remains.valid duid offered fits with
            ⟨next, result, event, requested, later, step, released, grants⟩
          have both : pool.Remains next :=
            ⟨later.valid, later.leaseDuration.trans remains.leaseDuration⟩
          rw [unchanged, remains.leaseDuration] at step
          simp only [requested, Checked.bind_ok]
          cases result with
          | ok ip =>
              rcases grants ip rfl with ⟨granted, shown⟩
              exact ⟨_, _, event, rfl, both, step, released.trans unreleased.symm,
                answers_success shown fun _ => granted⟩
          | error message =>
              exact ⟨_, _, event, rfl, both, step, released.trans unreleased.symm,
                answers_failure⟩

theorem request_outcome (serves : Serves config pool)
    (unreleased : releases config received.packet = none) (duid : Duid) :
    ∃ next sent event, request config pool duid received = .ok (next, sent) ∧
      Outcome config pool received next sent event := by
  rw [request]
  cases received.packet.wanted with
  | none => exact ⟨_, _, .silent, rfl, ⟨serves.valid, rfl⟩, .silent, unreleased.symm,
      answers_none⟩
  | some addr =>
      rcases V6Pool.request_event serves.valid duid addr (serves.fits received.requested) with
        ⟨next, result, event, requested, remains, step, released, grants⟩
      simp only [requested, Checked.bind_ok]
      cases result with
      | ok ip =>
          rcases grants ip rfl with ⟨granted, shown⟩
          exact ⟨_, _, event, rfl, remains, step, released.trans unreleased.symm,
            answers_success shown fun _ => granted⟩
      | error message =>
          exact ⟨_, _, event, rfl, remains, step, released.trans unreleased.symm,
            answers_failure⟩

theorem release_outcome (valid : pool.Valid)
    (kind : received.packet.msgType = .release ∨ received.packet.msgType = .decline)
    (sender : received.packet.clientDuid = some duid) :
    ∃ next sent event, release config pool duid received = .ok (next, sent) ∧
      Outcome config pool received next sent event := by
  rw [release]
  cases ours : isForServer config.serverDuid received.packet with
  | false =>
      have unreleased : releases config received.packet = none := by
        rw [releases, ours, if_neg fun accepted => nomatch accepted.2]
      exact ⟨_, _, .silent, rfl, ⟨valid, rfl⟩, .silent, unreleased.symm, answers_none⟩
  | true =>
      rcases V6Pool.release_event valid duid with
        ⟨next, held, event, freed, remains, step, released⟩
      simp only [if_true, freed, Checked.bind_ok]
      have accepted : releases config received.packet = some duid := by
        rw [releases, if_pos ⟨kind, ours⟩, sender]
      exact ⟨_, _, event, rfl, remains, step, released.trans accepted.symm, answers_none⟩

/-- Every packet is handled, as one event of the lease protocol. -/
theorem serveV6_outcome (serves : Serves config pool) (received : Received) :
    ∃ next sent event, serveV6 config pool received = .ok (next, sent) ∧
      Outcome config pool received next sent event := by
  rw [serveV6]
  cases sender : received.packet.clientDuid with
  | none =>
      have unreleased : releases config received.packet = none := by
        rw [releases, sender, ite_self]
      exact ⟨_, _, .silent, rfl, ⟨serves.valid, rfl⟩, .silent, unreleased.symm, answers_none⟩
  | some duid =>
      have other : received.packet.msgType ≠ .release → received.packet.msgType ≠ .decline →
          releases config received.packet = none := releases_of_not
      cases kind : received.packet.msgType with
      | solicit => exact solicit_outcome serves kind duid
      | release => exact release_outcome serves.valid (.inl kind) sender
      | decline => exact release_outcome serves.valid (.inr kind) sender
      | request | renew | rebind =>
          rw [kind] at other
          exact request_outcome serves (other nofun nofun) duid
      | _ =>
          rw [kind] at other
          exact ⟨_, _, .silent, rfl, ⟨serves.valid, rfl⟩, .silent, (other nofun nofun).symm,
            answers_none⟩

/-! ## Starting -/

def reservation (line : Option Text) : Option (Duid × Ipv6Addr) := line.bind leasesLine

/-- The reservations of a leases file, in order. -/
def reservations (file : LeasesFile) : List (Duid × Ipv6Addr) :=
  (file.getD []).filterMap reservation

/-- Loading reserves the address of every line, in order. -/
theorem loadLeases_reserves (valid : pool.Valid) (lines : List (Option Text)) :
    ∃ next, loadLeases pool lines = .ok next ∧ pool.Remains next ∧
      next.leases = pool.leases.reserve (lines.filterMap reservation) := by
  induction lines generalizing pool with
  | nil => exact ⟨pool, rfl, ⟨valid, rfl⟩, rfl⟩
  | cons line lines induction =>
      rw [loadLeases, loadLine]
      cases read : line.bind leasesLine with
      | none =>
          have skipped : (line :: lines).filterMap reservation = lines.filterMap reservation :=
            List.filterMap_cons_none read
          rw [skipped]
          exact induction valid
      | some pair =>
          have split : (line :: lines).filterMap reservation =
              pair :: lines.filterMap reservation := List.filterMap_cons_some read
          simp only [V6Pool.insert_eq valid, Checked.bind_ok]
          rw [split, LeaseTable.reserve, ← V6Pool.leases_inserted valid]
          rcases induction (V6Pool.valid_inserted valid) with ⟨next, loaded, remains, reserved⟩
          exact ⟨next, loaded, ⟨remains.valid, remains.leaseDuration⟩, reserved⟩

theorem leases_emptyPool {hasher : Hasher Ipv6Addr V6Pool.Entry} :
    (emptyPool config hasher).leases = fun _ => none := by
  funext addr
  rw [V6Pool.leases, LeaseTable.ofEntries, emptyPool, V6Pool.new, V6Pool.entry_withStorage]
  rfl

/-- The server starts with every file, and with its reservations. -/
theorem startPool_reserves (config : Config) (hasher : Hasher Ipv6Addr V6Pool.Entry)
    (file : LeasesFile) :
    ∃ pool, startPool config hasher file = .ok pool ∧ Serves config pool ∧
      pool.leases = LeaseTable.reserve (fun _ => none) (reservations file) := by
  have valid : (emptyPool config hasher).Valid := V6Pool.valid_withStorage ..
  rw [← leases_emptyPool]
  cases file with
  | none => exact ⟨_, rfl, ⟨valid, rfl⟩, rfl⟩
  | some lines =>
      rcases loadLeases_reserves valid lines with ⟨next, loaded, remains, reserved⟩
      exact ⟨next, loaded, ⟨remains.valid, remains.leaseDuration⟩, reserved⟩

theorem serves_of_started {hasher : Hasher Ipv6Addr V6Pool.Entry} {file : LeasesFile}
    (started : startPool config hasher file = .ok initial) :
    Serves config initial := by
  rcases startPool_reserves config hasher file with ⟨_, loaded, serves, _⟩
  rw [started] at loaded
  cases loaded
  exact serves

/-! ## Runs -/

theorem outcome_of_served {next : V6Pool} {sent : Option Sent} (serves : Serves config pool)
    (served : serveV6 config pool received = .ok (next, sent)) :
    ∃ event, Outcome config pool received next sent event := by
  rcases serveV6_outcome serves received with ⟨_, _, event, equal, outcome⟩
  rw [served] at equal
  cases equal
  exact ⟨event, outcome⟩

theorem Serves.step {next : V6Pool} {sent : Option Sent} (serves : Serves config pool)
    (served : serveV6 config pool received = .ok (next, sent)) : Serves config next := by
  rcases outcome_of_served serves served with ⟨event, outcome⟩
  exact serves.remains outcome.remains

theorem serves_of_run (start : Serves config initial)
    (run : Run (serveV6 config) initial past state) : Serves config state :=
  run.invariant start Serves.step

/-! ## Small runs -/

/-- A pool of two addresses, leased for ten seconds. -/
def twoAddressConfig : Config :=
  { Config.defaults with
    ipv6Start := V6Pool.firstAddress
    ipv6LeaseNum := 2
    ipv6LeaseDurationSecs := 10 }

/-- A packet that names an address and this server. -/
def Received.fromClient (msgType : MsgType) (duid : Duid) (addr : Ipv6Addr)
    (now : Reading) : Received where
  src := .v6 .unspecified 546
  packet :=
    { msgType := msgType
      transactionId := 1
      options :=
        [.clientId duid, .serverId twoAddressConfig.serverDuid,
          .iaNa ⟨1, 0, 0, [⟨addr, 0, 0⟩]⟩] }
  discovered := now
  requested := now
  ordered := Nat.le_refl now

end RustyDhcp.Dhcpv6
