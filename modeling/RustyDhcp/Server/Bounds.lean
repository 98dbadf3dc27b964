import RustyDhcp.Answers
import RustyDhcp.Packet.Decoding
import RustyDhcp.Server.Echoes
import RustyDhcp.Server.Hostnames

/-! # What the DHCPv4 daemon remembers

Whatever arrives, the daemon never has more entries than addresses to give away and
reservations, nor a host name that does not fit into an option. -/

namespace RustyDhcp

variable {bytes : List UInt8} {packet : Packet}

theorem Denotes.data_of_hostName {code : UInt8} {data : List UInt8} {name : Text}
    (denotes : Denotes code data (.hostName name)) : data = asBytes name := by
  cases denotes with
  | hostName => rfl

theorem exists_readsAs {fields : List Field} {options : List DhcpOption} {option : DhcpOption}
    (reads : List.Forall₂ ReadsAs fields options) (listed : option ∈ options) :
    ∃ field, ReadsAs field option := by
  induction reads with
  | nil => cases listed
  | @cons field _ _ _ first _ induction =>
      rcases List.mem_cons.mp listed with same | later
      · subst same
        exact ⟨field, first⟩
      · exact induction later

/-- The name in a packet that was decoded is short. -/
theorem hostname_short {name : Text} (decoded : Packet.fromBytes bytes = .ok packet)
    (announced : hostnameOf packet = some name) : (asBytes name).length ≤ 255 := by
  rcases (decoded_of_accepted decoded).options with ⟨fields, rest, area, _⟩
  have listed : .hostName name ∈ packet.options := by
    rw [hostnameOf] at announced
    split at announced
    · rename_i found
      cases announced
      exact List.mem_of_find?_eq_some found
    · cases announced
  rcases exists_readsAs area.reads listed with ⟨field, reads⟩
  have small := reads.fits.length
  rw [reads.denotes.data_of_hostName] at small
  omega

namespace MyServer

variable {store next initial : MyServer} {server : Server} {reply : Option Reply} {now : Instant}
variable {config : Config} {hasher : Hasher Ipv4Addr Entry} {file : LeasesFile}

/-- The addresses of the pool. -/
def pool (store : MyServer) : List Ipv4Addr :=
  (List.range store.leaseNum.toNat).map store.address

theorem mem_pool_of_inPool {addr : Ipv4Addr} (inside : store.inPool addr = true) :
    addr ∈ store.pool := by
  rw [inPool_iff] at inside
  refine List.mem_map.mpr ⟨addr.bits.toNat - store.ipStartNum.toNat, ?_, ?_⟩
  · exact List.mem_range.mpr (by omega)
  · exact address_eq_of_toNat (by omega)

/-- Every name that is remembered fits into an option. -/
def ShortNames (store : MyServer) : Prop :=
  ∀ addr entry name, store.entry addr = some entry → entry.hostname = some name →
    (asBytes name).length ≤ 255

theorem ShortNames.step (before : store.ShortNames)
    (announced : ∀ name, hostnameOf packet = some name → (asBytes name).length ≤ 255)
    (change : Change server store packet now next.entry) : next.ShortNames := by
  intro addr entry name found named
  generalize next.entry = entries at change found
  cases change with
  | unchanged => exact before addr entry name found named
  | write =>
      rw [Function.update_apply] at found
      split at found
      · cases found
        exact announced name named
      · exact before addr entry name found named
  | rename _ said =>
      rw [Function.update_apply] at found
      split at found
      · cases found
        cases named
        exact announced name said
      · exact before addr entry name found named
  | remove =>
      rw [Function.update_apply] at found
      split at found
      · cases found
      · exact before addr entry name found named

theorem shortNames_main (accepted : config.validate = .ok config)
    (loaded : main config hasher file = .ok initial) : initial.ShortNames := by
  intro addr entry name found named
  rw [hostname_of_main accepted loaded addr entry found] at named
  cases named

/-- The parts of a store that say how large it can get. -/
def sizes (store : MyServer) : Bool × U32 := (store.useSlots, store.leaseNum)

theorem Effect.sizes_eq (effect : Effect server store packet now next reply) :
    next.sizes = store.sizes := by
  cases effect with
  | heldOffered => cases hostnameOf packet <;> rfl
  | heldAcked => cases hostnameOf packet <;> rfl
  | _ => rfl

theorem sizes_main (accepted : config.validate = .ok config)
    (loaded : main config hasher file = .ok initial) :
    initial.sizes = (decide (config.leaseNum.toNat ≤ 100000), config.leaseNum) := by
  have kept : initial.sizes = (ofConfig config hasher).sizes :=
    kept_of_main (fun _ _ _ => rfl) accepted loaded
  rw [kept]
  rfl

/-- What stays true of the size of a store. -/
structure Bounded (config : Config) (file : LeasesFile) (store : MyServer) : Prop where
  accounted : Accounted file store
  names : store.ShortNames
  sizes : store.sizes = (decide (config.leaseNum.toNat ≤ 100000), config.leaseNum)

theorem bounded_main (accepted : config.validate = .ok config)
    (loaded : main config hasher file = .ok initial) : Bounded config file initial :=
  ⟨accounted_main accepted loaded, shortNames_main accepted loaded, sizes_main accepted loaded⟩

theorem Bounded.step (before : Bounded config file store)
    (decoded : Packet.fromBytes bytes = .ok packet)
    (handled : handleRequest server store ⟨packet, now⟩ = .ok (next, reply)) :
    Bounded config file next := by
  have effect := effect_of_handled before.accounted.valid handled
  refine ⟨before.accounted.step handled, ?_, effect.sizes_eq.trans before.sizes⟩
  exact before.names.step (fun _ => hostname_short decoded)
    (effect.change before.accounted.valid)

/-- Every entry is at an address of the pool or at one that the file reserves. -/
theorem Bounded.covered (bounded : Bounded config file store) {addr : Ipv4Addr}
    (found : (store.entry addr).isSome) :
    addr ∈ store.pool ++ (reservations file).map Prod.snd := by
  rcases Option.isSome_iff_exists.mp found with ⟨entry, found⟩
  rcases bounded.accounted.entries addr entry.mac ⟨entry, found, rfl⟩ with inside | reserved
  · exact List.mem_append_left _ (mem_pool_of_inPool inside)
  · exact List.mem_append_right _ (List.mem_map_of_mem reserved)

theorem Bounded.entries_le (bounded : Bounded config file store) :
    store.filled + store.overflow.size ≤
      config.leaseNum.toNat + (reservations file).length := by
  have valid := bounded.accounted.valid
  have size : store.leaseNum = config.leaseNum := congrArg Prod.snd bounded.sizes
  have bound := SlotTable.filled_add_size_le valid.table bounded.covered
  rwa [List.length_append, pool, List.length_map, List.length_range, List.length_map,
    size] at bound

theorem Bounded.slots_le (bounded : Bounded config file store) :
    store.slots.length ≤ config.leaseNum.toNat ∧ store.slots.length ≤ 100000 := by
  have length := bounded.accounted.valid.consistent.slots_length
  have slots : store.useSlots = decide (config.leaseNum.toNat ≤ 100000) :=
    congrArg Prod.fst bounded.sizes
  have size : store.leaseNum = config.leaseNum := congrArg Prod.snd bounded.sizes
  rw [slots, size] at length
  by_cases small : config.leaseNum.toNat ≤ 100000
  · rw [decide_eq_true small, if_pos rfl] at length
    omega
  · rw [decide_eq_false small, if_neg (by decide)] at length
    omega

end MyServer

namespace Daemon

variable {daemon : Daemon} {initial state : MyServer} {config : Config}
variable {hasher : Hasher Ipv4Addr MyServer.Entry} {file : LeasesFile}
variable {past : List (Handled MyServer (Arrival IoError) Reaction)}

/-- However many clients ask for however much, there are no more entries than
addresses in the pool and reservations, no more hints than entries and no more slots
than addresses, and every host name is short. -/
theorem bounded_of_run (accepted : config.validate = .ok config)
    (loaded : MyServer.main config hasher file = .ok initial)
    (run : Run daemon.round initial past state) :
    state.filled + state.overflow.size ≤
        config.leaseNum.toNat + (MyServer.reservations file).length ∧
      state.byMac.size ≤ state.filled + state.overflow.size ∧
      (state.slots.length ≤ config.leaseNum.toNat ∧ state.slots.length ≤ 100000) ∧
      ∀ addr entry name, state.lookup addr = .ok (some entry) → entry.hostname = some name →
        (asBytes name).length ≤ 255 := by
  have bounded : MyServer.Bounded config file state := by
    refine run.invariant (MyServer.bounded_main accepted loaded) ?_
    intro before arrival after reaction bounded done
    cases round_eq_ok_iff.mp done with
    | refused => exact bounded
    | silent decoded handled => exact bounded.step decoded handled
    | answered decoded handled => exact bounded.step decoded handled
  have valid := bounded.accounted.valid
  refine ⟨bounded.entries_le, valid.consistent.hints_size, bounded.slots_le, ?_⟩
  intro addr entry name found named
  rw [MyServer.lookup_eq valid, Except.ok.injEq] at found
  exact bounded.names addr entry name found named

set_option maxRecDepth 10000 in
/-- A client gets an address beside a reservation. -/
theorem bounded_of_run_second : ∃ session,
    simulate (serveWithBroadcasts (.new 192 168 2 1) []).round
        (MyServer.main MyServer.twoLeases Hasher.newestFirst MyServer.oneReservation)
        [fromClient (MyServer.requestFor #v[2, 0, 0, 0, 7, 5] (.new 192 168 2 2)).wire] =
      .ok session ∧
      session.state.filled = 2 ∧ session.state.filled + session.state.overflow.size ≤
        MyServer.twoLeases.leaseNum.toNat +
          (MyServer.reservations MyServer.oneReservation).length := by
  have computed : Checked.passes (simulate (serveWithBroadcasts (.new 192 168 2 1) []).round
      (MyServer.main MyServer.twoLeases Hasher.newestFirst MyServer.oneReservation)
      [fromClient (MyServer.requestFor #v[2, 0, 0, 0, 7, 5] (.new 192 168 2 2)).wire])
      (fun session => session.state.filled = 2) = true := by
    decide
  rcases Checked.exists_of_passes computed with ⟨session, simulated, filled⟩
  rcases Run.of_simulate simulated with ⟨loaded, run⟩
  exact ⟨session, simulated, of_decide_eq_true filled, (bounded_of_run rfl loaded run).1⟩

end Daemon

end RustyDhcp
