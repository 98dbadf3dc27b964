import RustyDhcp.Dhcpv6.PoolInvariant
import RustyDhcp.Dhcpv6.Reservations
import RustyDhcp.Server.Reservations

/-! # One address for each client

A leases file that names every client at most once gives nobody two addresses,
and nothing that a client does changes that: whoever holds an address is shown
that one, and an address that is taken over leaves its former holder without. -/

namespace RustyDhcp

/-- No MAC has the entries of two addresses. -/
def MyServer.OneAddressEach (store : MyServer) : Prop :=
  ∀ left right leftEntry rightEntry,
    store.lookup left = .ok (some leftEntry) → store.lookup right = .ok (some rightEntry) →
      leftEntry.mac = rightEntry.mac → left = right

theorem MyServer.Valid.oneAddressEach {store : MyServer} (valid : store.Valid)
    (single : store.leases.SingleHolding) : store.OneAddressEach := by
  intro left right leftEntry rightEntry leftFound rightFound same
  rw [lookup_eq valid, Except.ok.injEq] at leftFound rightFound
  have leftHeld : store.HeldBy left rightEntry.mac := ⟨leftEntry, leftFound, same⟩
  have rightHeld : store.HeldBy right rightEntry.mac := ⟨rightEntry, rightFound, rfl⟩
  exact single (leases_heldBy_iff.mpr leftHeld) (leases_heldBy_iff.mpr rightHeld)

namespace Dhcpv6

namespace V6Pool

/-- No DUID has the entries of two addresses. -/
def OneAddressEach (pool : V6Pool) : Prop :=
  ∀ left right leftEntry rightEntry,
    pool.get left = .ok (some leftEntry) → pool.get right = .ok (some rightEntry) →
      leftEntry.duid = rightEntry.duid → left = right

variable {pool next initial state : V6Pool} {call : PoolCall} {answer : PoolAnswer}
variable {past : List Called}

theorem Valid.oneAddressEach (valid : pool.Valid) (single : pool.leases.SingleHolding) :
    pool.OneAddressEach := by
  intro left right leftEntry rightEntry leftFound rightFound same
  rw [get_eq_iff valid] at leftFound rightFound
  have leftHeld : pool.HeldBy left rightEntry.duid := ⟨leftEntry, leftFound, same⟩
  have rightHeld : pool.HeldBy right rightEntry.duid := ⟨rightEntry, rightFound, rfl⟩
  exact single (leases_heldBy_iff.mpr leftHeld) (leases_heldBy_iff.mpr rightHeld)

/-- A call that a client can cause: any but the insertion of a reservation. -/
def ByClient (call : PoolCall) : Prop :=
  ∀ addr duid expiry, call ≠ .insert addr duid expiry

theorem Effect.singleHolding (effect : Effect pool call next answer) (valid : pool.Valid)
    (single : pool.leases.SingleHolding) (byClient : ByClient call) :
    next.leases.SingleHolding := by
  cases effect with
  | inserted => exact absurd rfl (byClient _ _ _)
  | requestedFree nothing _ =>
      rw [leases_leased valid]
      apply single.update
      intro new given
      cases given
      exact not_heldBy_leases nothing
  | released _ =>
      rw [leases_released valid]
      apply single.update
      intro new given
      cases given
  | _ => exact single

/-- A pool in which nobody holds two addresses. -/
structure SinglyHeld (pool : V6Pool) : Prop where
  valid : pool.Valid
  single : pool.leases.SingleHolding
  short : pool.leaseDuration ≤ Duration.longest

/-- No call of a client gives anybody a second address. -/
theorem SinglyHeld.step (before : pool.SinglyHeld)
    (called : pool.call call = .ok (next, answer)) (byClient : ByClient call) :
    next.SinglyHeld := by
  have effect := effect_of_called before.valid called
  have remains := effect.remains before.valid
  exact ⟨remains.valid, effect.singleHolding before.valid before.single byClient,
    remains.leaseDuration.trans_le before.short⟩

theorem singlyHeld_of_calls (start : initial.SinglyHeld)
    (run : Run V6Pool.call initial past state)
    (byClients : ∀ called ∈ past, ByClient called.input) : state.SinglyHeld := by
  have kept : state.SinglyHeld ∧ ∀ called ∈ past, True := by
    apply run.invariant_of_allowed start ?_ byClients
    intro called before answered byClient
    exact ⟨before.step answered byClient, trivial⟩
  exact kept.1

theorem singlyHeld_startPool {config : Config} {hasher : Hasher Ipv6Addr Entry}
    {file : LeasesFile} (started : startPool config hasher file = .ok initial)
    (duids : ((reservations file).map Prod.fst).Nodup) : initial.SinglyHeld := by
  rcases startPool_reserves config hasher file with ⟨pool, equal, serves, leases⟩
  rw [started] at equal
  cases equal
  refine ⟨serves.valid, ?_, ?_⟩
  · rw [leases]
    exact LeaseTable.singleHolding_reserve duids
  · rw [serves.leaseDuration]
    exact Duration.ofSecs_le_longest _

end V6Pool

end Dhcpv6

/-- One address for each client: no MAC of the DHCPv4 server and no DUID of the
DHCPv6 pool ever holds two. -/
theorem oneAddressEach_of_run :
    (∀ {config hasher file server initial past state}, config.validate = .ok config →
      MyServer.main config hasher file = .ok initial →
      ((MyServer.reservations file).map Prod.fst).Nodup →
      Run (MyServer.handleRequest server) initial past state → state.OneAddressEach) ∧
    ∀ {config hasher file initial past state},
      Dhcpv6.startPool config hasher file = .ok initial →
      ((Dhcpv6.reservations file).map Prod.fst).Nodup →
      Run Dhcpv6.V6Pool.call initial past state →
      (∀ called ∈ past, Dhcpv6.V6Pool.ByClient called.input) → state.OneAddressEach := by
  refine ⟨?_, ?_⟩
  · intro config hasher file server initial past state accepted loaded macs run
    have valid := MyServer.valid_main accepted loaded
    have single := MyServer.singleHolding_main accepted loaded macs
    exact (MyServer.valid_of_run valid run).oneAddressEach
      (MyServer.singleHolding_of_run valid single run)
  · intro config hasher file initial past state started duids run byClients
    have start := Dhcpv6.V6Pool.singlyHeld_startPool started duids
    have held := Dhcpv6.V6Pool.singlyHeld_of_calls start run byClients
    exact held.valid.oneAddressEach held.single

/-- Strangers ask for the reserved address: the DHCPv4 server gives it to them
and lets its owner have another, and the DHCPv6 pool refuses. -/
theorem oneAddressEach_of_run_stranger :
    (∃ session, simulate (MyServer.handleRequest ⟨.new 192 168 2 1⟩)
        (MyServer.main MyServer.twoLeases Hasher.newestFirst MyServer.oneReservation)
        [⟨MyServer.requestFor #v[1, 2, 3, 4, 5, 7] (.new 192 168 2 3), 5⟩,
          ⟨MyServer.requestFor #v[1, 2, 3, 4, 5, 6] (.new 192 168 2 2), 6⟩] = .ok session ∧
      session.past.length = 2 ∧ session.state.OneAddressEach) ∧
    ∃ session, simulate Dhcpv6.V6Pool.call
        (Dhcpv6.startPool Dhcpv6.twoAddressConfig Hasher.newestFirst Dhcpv6.oneReservation)
        [.request [2] Dhcpv6.V6Pool.firstAddress 5, .discover [2] 6] = .ok session ∧
      session.past.length = 2 ∧ session.state.OneAddressEach := by
  refine ⟨?_, ?_⟩
  · have computed : Checked.passes (simulate (MyServer.handleRequest ⟨.new 192 168 2 1⟩)
        (MyServer.main MyServer.twoLeases Hasher.newestFirst MyServer.oneReservation)
        [⟨MyServer.requestFor #v[1, 2, 3, 4, 5, 7] (.new 192 168 2 3), 5⟩,
          ⟨MyServer.requestFor #v[1, 2, 3, 4, 5, 6] (.new 192 168 2 2), 6⟩])
        (fun session => session.past.length = 2) = true := by decide
    rcases Checked.exists_of_passes computed with ⟨session, simulated, handled⟩
    rcases Run.of_simulate simulated with ⟨loaded, run⟩
    exact ⟨session, simulated, of_decide_eq_true handled,
      oneAddressEach_of_run.1 rfl loaded (by decide) run⟩
  · have computed : Checked.passes (simulate Dhcpv6.V6Pool.call
        (Dhcpv6.startPool Dhcpv6.twoAddressConfig Hasher.newestFirst Dhcpv6.oneReservation)
        [.request [2] Dhcpv6.V6Pool.firstAddress 5, .discover [2] 6])
        (fun session => session.past.map Handled.input =
          [.discover [2] 6, .request [2] Dhcpv6.V6Pool.firstAddress 5]) = true := by decide
    rcases Checked.exists_of_passes computed with ⟨session, simulated, handled⟩
    rcases Run.of_simulate simulated with ⟨started, run⟩
    have inputs := of_decide_eq_true handled
    have count : session.past.length = 2 := by
      rw [← List.length_map (f := Handled.input), inputs]
      rfl
    refine ⟨session, simulated, count, oneAddressEach_of_run.2 started (by decide) run ?_⟩
    intro called member addr duid expiry inserted
    have listed := List.mem_map_of_mem (f := Handled.input) member
    rw [inputs, inserted] at listed
    simp at listed

end RustyDhcp
