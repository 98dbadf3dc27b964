import RustyDhcp.Dhcpv6.Serving

/-! # Reservations of the DHCPv6 leases file

Nobody can take a reservation over. It ends only when the client that it was
made for releases it. -/

namespace RustyDhcp.Dhcpv6

variable {config : Config} {pool next initial state : V6Pool} {received : Received}
variable {sent : Option Sent} {duid : Duid} {ip : Ipv6Addr} {past : List Serving}
variable {hasher : Hasher Ipv6Addr V6Pool.Entry} {file : LeasesFile}

/-- Every address sent to `duid` is `ip`, and nobody else is sent `ip`. -/
def Keeps (duid : Duid) (ip : Ipv6Addr) (past : List Serving) : Prop :=
  ∀ served ∈ past, ∀ sent ∈ served.output, ∀ leased ∈ sent.packet.iaAddrs,
    (sent.packet.clientDuid = some duid → leased.addr = ip) ∧
      (sent.packet.clientDuid ≠ some duid → leased.addr ≠ ip)

instance (duid : Duid) (ip : Ipv6Addr) (past : List Serving) : Decidable (Keeps duid ip past) :=
  inferInstanceAs (Decidable (∀ served ∈ past, ∀ sent ∈ served.output,
    ∀ leased ∈ sent.packet.iaAddrs,
      (sent.packet.clientDuid = some duid → leased.addr = ip) ∧
        (sent.packet.clientDuid ≠ some duid → leased.addr ≠ ip)))

/-- A packet that does not release a reservation keeps it and is answered
accordingly. -/
theorem reserved_step (serves : Serves config pool) (reserved : pool.leases.Reserved duid ip)
    (served : serveV6 config pool received = .ok (next, sent))
    (kept : releases config received.packet ≠ some duid) :
    next.leases.Reserved duid ip ∧ ∀ answer ∈ sent, ∀ leased ∈ answer.packet.iaAddrs,
      (answer.packet.clientDuid = some duid → leased.addr = ip) ∧
        (answer.packet.clientDuid ≠ some duid → leased.addr ≠ ip) := by
  rcases outcome_of_served serves served with ⟨event, outcome⟩
  have lasting : ¬V6Pool.Takeable received.requested none := by
    intro taken
    rcases taken with ⟨limit, runsOut, _⟩
    cases runsOut
  have unshown := reserved.unshown outcome.step lasting
  rw [← outcome.released] at kept
  refine ⟨reserved.step outcome.step kept unshown, ?_⟩
  intro answer answered leased carried
  rcases outcome.answers answer answered leased carried with ⟨client, identified, shown, _⟩
  rw [identified]
  refine ⟨?_, ?_⟩
  · intro same
    rw [Option.some.inj same] at shown
    exact reserved.shown_owner outcome.step shown
  · intro different same
    rw [same] at shown
    exact unshown client (fun equal => different (congrArg some equal)) shown

theorem reserved_of_serving (start : Serves config initial)
    (reserved : initial.leases.Reserved duid ip)
    (run : Run (serveV6 config) initial past state)
    (kept : ∀ served ∈ past, releases config served.input.packet ≠ some duid) :
    (Serves config state ∧ state.leases.Reserved duid ip) ∧ Keeps duid ip past := by
  apply run.invariant_of_allowed ⟨start, reserved⟩ ?_ kept
  intro served before stepped unreleased
  rcases reserved_step before.1 before.2 stepped unreleased with ⟨after, answered⟩
  exact ⟨⟨before.1.step stepped, after⟩, answered⟩

/-- A reservation of the leases file lasts as long as its client does not
release it. -/
theorem keeps_of_serving (started : startPool config hasher file = .ok initial)
    (duids : ((reservations file).map Prod.fst).Nodup)
    (ips : ((reservations file).map Prod.snd).Nodup)
    (run : Run (serveV6 config) initial past state) :
    ∀ duid ip, (duid, ip) ∈ reservations file →
      (∀ served ∈ past, releases config served.input.packet ≠ some duid) →
        Keeps duid ip past := by
  intro duid ip member kept
  rcases startPool_reserves config hasher file with ⟨_, loaded, start, leases⟩
  rw [started] at loaded
  cases loaded
  have reserved : initial.leases.Reserved duid ip := by
    rw [leases]
    exact LeaseTable.reserved_reserve duids ips member
  exact (reserved_of_serving start reserved run kept).2

/-- One reservation, inside the pool. -/
def oneReservation : LeasesFile := some [some "01:02,fd00::100".toList]

/-- A stranger asks for the reserved address before its client comes. -/
theorem keeps_of_serving_stranger :
    ∃ session, simulate (serveV6 twoAddressConfig)
        (startPool twoAddressConfig Hasher.newestFirst oneReservation)
        [.fromClient .request [2] V6Pool.firstAddress 0,
          .fromClient .solicit [1, 2] V6Pool.firstAddress 5] = .ok session ∧
      Keeps [1, 2] V6Pool.firstAddress session.past := by
  have computed : Checked.passes (simulate (serveV6 twoAddressConfig)
      (startPool twoAddressConfig Hasher.newestFirst oneReservation)
      [.fromClient .request [2] V6Pool.firstAddress 0,
        .fromClient .solicit [1, 2] V6Pool.firstAddress 5])
      (fun session => ∀ served ∈ session.past,
        releases twoAddressConfig served.input.packet ≠ some [1, 2]) = true := by decide
  rcases Checked.exists_of_passes computed with ⟨session, simulated, kept⟩
  rcases Run.of_simulate simulated with ⟨started, run⟩
  exact ⟨session, simulated, keeps_of_serving started (by decide) (by decide) run _ _
    (by decide) (of_decide_eq_true kept)⟩

/-- The client of a reservation releases it, and a stranger is given its
address. -/
theorem reservation_released :
    reservations oneReservation = [([1, 2], V6Pool.firstAddress)] ∧
    ∃ session, simulate (serveV6 twoAddressConfig)
        (startPool twoAddressConfig Hasher.newestFirst oneReservation)
        [.fromClient .release [1, 2] V6Pool.firstAddress 0,
          .fromClient .request [2] V6Pool.firstAddress 5] = .ok session ∧
      Chronological (fun served => served.input.requested) session.past ∧
      ¬Keeps [1, 2] V6Pool.firstAddress session.past := by
  have computed : Checked.passes (simulate (serveV6 twoAddressConfig)
      (startPool twoAddressConfig Hasher.newestFirst oneReservation)
      [.fromClient .release [1, 2] V6Pool.firstAddress 0,
        .fromClient .request [2] V6Pool.firstAddress 5])
      (fun session => Chronological (fun served => served.input.requested) session.past ∧
        ¬Keeps [1, 2] V6Pool.firstAddress session.past) = true := by decide
  rcases Checked.exists_of_passes computed with ⟨session, simulated, violated⟩
  exact ⟨by decide, session, simulated, of_decide_eq_true violated⟩

end RustyDhcp.Dhcpv6
