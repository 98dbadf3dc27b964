import RustyDhcp.Dhcpv6.Upheld
import RustyDhcp.Foundation.OpenAddress

/-! # What the DHCPv6 daemon remembers

The leases are no more than the addresses of the pool and the reservations. The
reverse index has no such bound: it keeps an entry for every client that ever lost
its address to another one. -/

namespace RustyDhcp.Dhcpv6

variable {config : Config} {pool next initial state : V6Pool} {received : Received}
variable {hasher : Hasher Ipv6Addr V6Pool.Entry} {file : LeasesFile} {sent : Option Sent}
variable {IoError : Type} {past : List (Handled V6Pool (Arrival IoError) Reaction)}

namespace V6Pool

/-- The addresses of the pool. -/
def addresses (pool : V6Pool) : List Ipv6Addr :=
  (List.range pool.count.toNat).map pool.address

theorem mem_addresses_of_inRange {addr : Ipv6Addr} (valid : pool.Valid)
    (inside : pool.inRange addr = true) : addr ∈ pool.addresses := by
  rcases valid.inRange_iff.mp inside with ⟨_, above, below⟩
  refine List.mem_map.mpr ⟨addr.bits.toNat - pool.start.toNat, ?_, ?_⟩
  · exact List.mem_range.mpr (by omega)
  · exact address_eq_of_toNat (by omega)

end V6Pool

theorem Happens.heldBy {event : LeaseTable.Event Ipv6Addr Duid} {addr : Ipv6Addr} {duid : Duid}
    (happens : Happens config pool received event next) (held : next.HeldBy addr duid) :
    pool.HeldBy addr duid ∨ event.granted = some (duid, addr) := by
  rcases happens.step.heldBy_before (V6Pool.leases_heldBy_iff.mpr held) with before | granted
  · exact .inl (V6Pool.leases_heldBy_iff.mp before)
  · exact .inr granted

/-- Nobody comes to hold an address outside of the pool. -/
theorem Handling.heldBy {addr : Ipv6Addr} {duid : Duid}
    (handling : Handling config pool received next sent) (held : next.HeldBy addr duid) :
    pool.HeldBy addr duid ∨ pool.inRange addr = true := by
  cases handling with
  | unanswered _ happens shown =>
      rcases happens.heldBy held with before | granted
      · exact .inl before
      · cases shown.symm.trans (LeaseTable.Event.shown_of_granted granted)
  | @granted _ owner msgType ip event asks something happens shown granted place =>
      rcases happens.heldBy held with before | given
      · exact .inl before
      · rw [granted] at given
        split at given
        · cases given
          exact place
        · cases given
  | refused => exact .inl held

theorem Handling.inRange (handling : Handling config pool received next sent) :
    next.inRange = pool.inRange := by
  cases handling with
  | unanswered _ happens => exact happens.inRange
  | granted _ _ happens => exact happens.inRange
  | refused => rfl

/-- Every lease is of an address of the pool, or of one that the file reserves. -/
structure Covered (config : Config) (hasher : Hasher Ipv6Addr V6Pool.Entry) (file : LeasesFile)
    (pool : V6Pool) : Prop where
  serves : Serves config pool
  inRange : pool.inRange = (emptyPool config hasher).inRange
  held : ∀ addr duid, pool.HeldBy addr duid →
    (emptyPool config hasher).inRange addr = true ∨ addr ∈ (reservations file).map Prod.snd

/-- What no reservation touches is as the configuration has it. -/
theorem kept_of_startPool {View : Type} {view : V6Pool → View}
    (each : ∀ (pool : V6Pool) addr duid, view (pool.inserted addr duid none) = view pool)
    (started : startPool config hasher file = .ok initial) :
    view initial = view (emptyPool config hasher) := by
  cases file with
  | none =>
      cases started
      rfl
  | some lines =>
      have start : (emptyPool config hasher).Valid := V6Pool.valid_withStorage ..
      change loadLeases (emptyPool config hasher) lines = .ok initial at started
      generalize emptyPool config hasher = pool at start started ⊢
      induction lines generalizing pool with
      | nil =>
          cases started
          rfl
      | cons line lines induction =>
          rcases Checked.bind_eq_ok_iff.mp started with ⟨middle, first, rest⟩
          rw [loadLine] at first
          split at first
          · rw [V6Pool.insert_eq start] at first
            cases first
            exact (induction _ (V6Pool.valid_inserted start) rest).trans (each pool _ _)
          · cases first
            exact induction _ start rest

theorem covered_of_started (started : startPool config hasher file = .ok initial) :
    Covered config hasher file initial := by
  rcases startPool_reserves config hasher file with ⟨_, loaded, serves, leases⟩
  rw [started] at loaded
  cases loaded
  refine ⟨serves, ?_, ?_⟩
  · exact kept_of_startPool (fun _ _ _ => rfl) started
  · intro addr duid held
    rcases V6Pool.leases_heldBy_iff.mpr held with ⟨lease, found, owner⟩
    rw [leases] at found
    rcases LeaseTable.reserve_cases found with nothing | listed
    · cases nothing
    · exact .inr (List.mem_map_of_mem listed)

theorem Covered.step (before : Covered config hasher file pool)
    (served : serveV6 config pool received = .ok (next, sent)) :
    Covered config hasher file next := by
  have handling := handling_of_served before.serves served
  refine ⟨before.serves.step served, handling.inRange.trans before.inRange, ?_⟩
  intro addr duid held
  rcases handling.heldBy held with earlier | inside
  · exact before.held addr duid earlier
  · rw [before.inRange] at inside
    exact .inl inside

theorem covered_of_run (started : startPool config hasher file = .ok initial)
    (run : Run (round config) initial past state) : Covered config hasher file state := by
  refine run.invariant (covered_of_started started) ?_
  intro pool arrival next reaction before done
  cases round_of_round done with
  | malformed => exact before
  | unanswered _ served => exact before.step served
  | answered _ served => exact before.step served

theorem Covered.len_le (covered : Covered config hasher file pool) :
    pool.len ≤ config.ipv6LeaseNum.toNat + (reservations file).length := by
  have cover : ∀ {addr}, (pool.table.lookup pool.layout addr).isSome →
      addr ∈ (emptyPool config hasher).addresses ++ (reservations file).map Prod.snd := by
    intro addr found
    rcases Option.isSome_iff_exists.mp found with ⟨entry, found⟩
    rcases covered.held addr entry.duid ⟨entry, found, rfl⟩ with inside | reserved
    · exact List.mem_append_left _
        (V6Pool.mem_addresses_of_inRange (V6Pool.valid_withStorage ..) inside)
    · exact List.mem_append_right _ reserved
  have bound := SlotTable.filled_add_size_le covered.serves.valid.table cover
  rwa [List.length_append, V6Pool.addresses, List.length_map, List.length_range,
    List.length_map] at bound

/-! ## The reverse index -/

/-- A client asks for an address. -/
def requestFor (duid : Duid) (addr : Ipv6Addr) : Packet :=
  ⟨.request, 0, [.clientId duid, .iaNa ⟨0, 0, 0, [⟨addr, 0, 0⟩]⟩]⟩

variable {addr : Ipv6Addr} {duid : Duid} {duids : List Duid} {now : Reading}

theorem length_wireOf_requestFor :
    (wireOf (requestFor duid addr)).length = 52 + duid.length := by
  have client := wireLen_eq (.clientId duid)
  have association := wireLen_eq (.iaNa ⟨0, 0, 0, [⟨addr, 0, 0⟩]⟩)
  simp only [Dhcpv6Option.wireLen, List.length_cons, List.length_nil] at client association
  simp only [wireOf, requestFor, List.map_cons, List.map_nil, Field.join_cons, Field.join_nil,
    List.length_append, Field.length_bytes, Dhcpv6Option.field_data, List.length_nil,
    Packet.header, List.length_cons]
  omega

theorem fromBytes_requestFor (short : duid.length ≤ 1400) :
    Packet.fromBytes (wireOf (requestFor duid addr)) = .ok (requestFor duid addr) := by
  have small : (requestFor duid addr).transactionId.toNat < 2 ^ 24 := Nat.two_pow_pos 24
  refine fromBytes_encode small ?_ (encode_eq_ok_iff.mpr ⟨?_, rfl⟩)
  · intro option member
    simp only [requestFor, List.mem_cons, List.not_mem_nil, or_false] at member
    rcases member with rfl | rfl <;> trivial
  · intro option member
    have size := wireLen_eq option
    simp only [requestFor, List.mem_cons, List.not_mem_nil, or_false] at member
    rcases member with rfl | rfl
    · simp only [Dhcpv6Option.wireLen] at size
      omega
    · simp only [Dhcpv6Option.wireLen, List.length_cons, List.length_nil] at size
      omega

theorem serveV6_request_free (serves : Serves config pool)
    (client : received.packet.clientDuid = some duid) (kind : received.packet.msgType = .request)
    (wanted : received.packet.wanted = some addr) (nothing : ∀ held, ¬pool.HeldBy held duid)
    (free : pool.available duid addr received.requested = true) :
    serveV6 config pool received = .ok (pool.leased duid addr received.requested,
      some (success config duid received .reply addr)) := by
  have missing := (V6Pool.current_eq_none_iff serves.valid).mpr nothing
  have requested := serves.request_free missing free
  rw [serveV6, client]
  simp only [kind, request, wanted, requested, Checked.bind_ok]
  rfl

/-- The Request of a client without a lease takes an available address over. -/
theorem round_requestFor (serves : Serves config pool) (short : duid.length ≤ 1400)
    (nothing : ∀ held, ¬pool.HeldBy held duid) (free : pool.available duid addr now = true) :
    ∃ reaction, round config pool (.ofPacket (requestFor duid addr) now : Arrival IoError) =
      .ok (pool.leased duid addr now, reaction) := by
  let arrival : Arrival IoError := .ofPacket (requestFor duid addr) now
  have received : arrival.received = wireOf (requestFor duid addr) := by
    apply List.take_of_length_le
    have length := @length_wireOf_requestFor addr duid
    exact Nat.le_trans (Nat.le_of_eq length) (by omega)
  have served := @serveV6_request_free config pool
    (arrival.carrying (requestFor duid addr)) addr duid
    serves rfl rfl rfl nothing free
  change ∃ reaction, round config pool arrival = .ok (pool.leased duid addr now, reaction)
  rw [round, received, fromBytes_requestFor short]
  simp only [served, Checked.bind_ok, transmit_eq]
  exact ⟨_, rfl⟩

/-- Nothing is known of the client. -/
structure Unknown (pool : V6Pool) (duid : Duid) : Prop where
  short : duid.length ≤ 1400
  nothing : ∀ held, ¬pool.HeldBy held duid
  unhinted : pool.byDuid.get? duid = none

theorem Unknown.after_lease {other : Duid} (valid : pool.Valid) (unknown : Unknown pool other)
    (different : other ≠ duid) : Unknown (pool.leased duid addr now) other where
  short := unknown.short
  nothing := by
    intro held holds
    rcases holds with ⟨entry, found, owner⟩
    have read : (pool.leased duid addr now).entry held = some entry := found
    rw [V6Pool.entry_leased valid, Function.update_apply] at read
    split at read
    · cases read
      exact different owner.symm
    · exact unknown.nothing held ⟨entry, read, owner⟩
  unhinted := by
    have hints : (pool.leased duid addr now).byDuid = pool.byDuid.insert duid addr := rfl
    rw [hints, HashMap.get?_insert, if_neg different]
    exact unknown.unhinted

/-- From when on the address can be leased again, if its lease runs out at all. -/
def V6Pool.freeFrom (pool : V6Pool) (addr : Ipv6Addr) (clock : Instant) : Instant :=
  match (pool.entry addr).bind Entry.expiry with
  | some limit => max clock (limit + 1)
  | none => clock

theorem V6Pool.le_freeFrom (pool : V6Pool) (addr : Ipv6Addr) (clock : Instant) :
    clock ≤ pool.freeFrom addr clock := by
  rw [freeFrom]
  split
  · exact Nat.le_max_left _ _
  · exact Nat.le_refl _

theorem V6Pool.available_freeFrom (inside : pool.inRange addr = true)
    (timed : ∀ entry, pool.entry addr = some entry → entry.expiry ≠ none) (clock : Instant) :
    pool.available duid addr (pool.freeFrom addr clock) = true := by
  refine available_iff.mpr ⟨inside, ?_⟩
  intro entry found
  rcases Option.ne_none_iff_exists'.mp (timed entry found) with ⟨limit, ends⟩
  rw [freeFrom, found, Option.bind_some, ends]
  exact .inr ⟨limit, rfl, Nat.lt_of_succ_le (Nat.le_max_right _ _)⟩

/-- The next client waits for one lease time. -/
theorem V6Pool.freeFrom_leased (valid : pool.Valid) (now : Reading) :
    (pool.leased duid addr now).freeFrom addr now = now + (pool.leaseDuration + 1) := by
  rw [freeFrom, entry_leased valid, Function.update_self, Option.bind_some]
  exact Nat.max_eq_right (by omega)

/-- Clients that nothing is known of can take one address over from each other, while
the clock lasts, and each of them stays in the index. -/
theorem exists_takeovers (serves : Serves config pool) (inside : pool.inRange addr = true)
    (timed : ∀ entry, pool.entry addr = some entry → entry.expiry ≠ none)
    (once : duids.Nodup) (unknown : ∀ duid ∈ duids, Unknown pool duid) (clock : Instant)
    (lasts : pool.freeFrom addr clock + duids.length * (pool.leaseDuration + 1) ≤ 2 ^ 63) :
    ∃ (past : List (Handled V6Pool (Arrival IoError) Reaction)) (state : V6Pool),
      Run (round config) pool past state ∧ past.length = duids.length ∧
      (∀ handled ∈ past, clock ≤ handled.input.discovered) ∧
      Chronological (fun handled => handled.input.requested) past ∧
      state.byDuid.size = pool.byDuid.size + duids.length ∧
      ∀ other, other ≠ addr → state.entry other = pool.entry other := by
  induction duids generalizing pool clock with
  | nil =>
      exact ⟨[], pool, .start, rfl, by simp, List.Pairwise.nil, rfl, fun _ _ => rfl⟩
  | cons duid duids induction =>
      rcases List.nodup_cons.mp once with ⟨new, once⟩
      rcases List.forall_mem_cons.mp unknown with ⟨first, others⟩
      have later := pool.le_freeFrom addr clock
      have free : pool.available duid addr (pool.freeFrom addr clock) = true :=
        V6Pool.available_freeFrom inside timed clock
      have waits : pool.freeFrom addr clock + (pool.leaseDuration + 1) +
          duids.length * (pool.leaseDuration + 1) ≤ 2 ^ 63 := by
        rw [List.length_cons, Nat.succ_mul] at lasts
        rwa [Nat.add_assoc, Nat.add_comm (pool.leaseDuration + 1)]
      have read : pool.freeFrom addr clock < 2 ^ 63 :=
        calc pool.freeFrom addr clock
            < pool.freeFrom addr clock + (pool.leaseDuration + 1) :=
              Nat.lt_add_of_pos_right (Nat.succ_pos _)
          _ ≤ _ := Nat.le_add_right _ _
          _ ≤ 2 ^ 63 := waits
      let now : Reading := ⟨pool.freeFrom addr clock, read⟩
      rcases @round_requestFor config pool IoError addr duid now serves first.short first.nothing
        free with ⟨reaction, done⟩
      have after := @V6Pool.entry_leased pool addr duid now serves.valid
      have timedAfter : ∀ entry, (pool.leased duid addr now).entry addr = some entry →
          entry.expiry ≠ none := by
        intro entry found
        rw [after, Function.update_self] at found
        cases found
        simp
      have unknownAfter : ∀ other ∈ duids, Unknown (pool.leased duid addr now) other := by
        intro other member
        apply (others other member).after_lease serves.valid
        intro same
        exact new (same ▸ member)
      have lastsAfter : (pool.leased duid addr now).freeFrom addr now +
          duids.length * (pool.leaseDuration + 1) ≤ 2 ^ 63 := by
        rw [V6Pool.freeFrom_leased serves.valid]
        exact waits
      rcases induction ((round_of_round done).serves serves) inside timedAfter once unknownAfter
        now lastsAfter with ⟨past, state, run, length, clocks, ordered, hints, frame⟩
      have takeover : Run (round config) pool
          [⟨pool, .ofPacket (requestFor duid addr) now, reaction, pool.leased duid addr now⟩]
          (pool.leased duid addr now) := .next .start done
      refine ⟨_, state, takeover.append run, ?_, ?_, ?_, ?_, ?_⟩
      · rw [List.length_append, length]
        rfl
      · intro handled member
        rcases List.mem_append.mp member with rest | here
        · exact Nat.le_trans later (clocks handled rest)
        · rw [List.mem_singleton.mp here]
          exact later
      · refine List.pairwise_append.mpr ⟨ordered, List.pairwise_singleton _ _, ?_⟩
        intro handled rest before here
        rw [List.mem_singleton.mp here]
        exact Nat.le_trans (clocks handled rest) handled.input.ordered
      · have grown : (pool.leased duid addr now).byDuid.size = pool.byDuid.size + 1 :=
          HashMap.size_insert_of_new first.unhinted addr
        rw [hints, grown, List.length_cons]
        omega
      · intro other different
        rw [frame other different, after, Function.update_of_ne different]

/-- The leases of the table are always as few as the addresses that can be leased.
But from every state that a run gets to, as many clients as there are unknown ones can
make the index grow by one entry each, with no more than one lease among them. Each of
them waits for the lease of the one before, so there are as many as the clock lasts. -/
theorem outgrows_of_run (started : startPool config hasher file = .ok initial)
    (run : Run (round config) initial past state) :
    state.len ≤ config.ipv6LeaseNum.toNat + (reservations file).length ∧
      ∀ (addr : Ipv6Addr) (duids : List Duid) (clock : Instant), state.inRange addr = true →
        (∀ entry, state.entry addr = some entry → entry.expiry ≠ none) →
        duids.Nodup → (∀ duid ∈ duids, Unknown state duid) →
        state.freeFrom addr clock +
          duids.length * (Duration.ofSecs config.ipv6LeaseDurationSecs + 1) ≤ 2 ^ 63 →
        ∃ (later : List (Handled V6Pool (Arrival IoError) Reaction)) (final : V6Pool),
          Run (round config) initial (later ++ past) final ∧
          later.length = duids.length ∧ (∀ handled ∈ later, clock ≤ handled.input.discovered) ∧
          Chronological (fun handled => handled.input.requested) later ∧
          final.byDuid.size = state.byDuid.size + duids.length ∧ final.len ≤ state.len + 1 := by
  have covered := covered_of_run started run
  refine ⟨covered.len_le, ?_⟩
  intro addr duids clock inside timed once unknown lasts
  rw [← covered.serves.leaseDuration] at lasts
  rcases exists_takeovers covered.serves inside timed once unknown clock lasts with
    ⟨later, final, more, length, clocks, ordered, hints, frame⟩
  refine ⟨later, final, run.append more, length, clocks, ordered, hints, ?_⟩
  have serves : Serves config final := serves_of_rounds started (run.append more)
  have cover : ∀ {other}, (final.table.lookup final.layout other).isSome →
      other ∈ addr :: state.table.addresses state.layout := by
    intro other found
    by_cases same : other = addr
    · rw [same]
      exact List.mem_cons_self
    · have read : (final.entry other).isSome := found
      rw [frame other same] at read
      exact List.mem_cons_of_mem _ ((SlotTable.mem_addresses_iff covered.serves.valid.table).mpr
        read)
  have bound := SlotTable.filled_add_size_le serves.valid.table cover
  rwa [List.length_cons, SlotTable.length_addresses covered.serves.valid.table] at bound

/-- Two clients after each other at one address. -/
theorem outgrows_of_run_two :
    ∃ (later : List (Handled V6Pool (Arrival String) Reaction)) (final : V6Pool),
    Run (round twoAddressConfig) (emptyPool twoAddressConfig Hasher.newestFirst)
      (later ++ []) final ∧
      final.byDuid.size = 2 ∧ final.len ≤ 1 := by
  have empty : ∀ addr, (emptyPool twoAddressConfig Hasher.newestFirst).entry addr = none :=
    fun _ => V6Pool.entry_withStorage ..
  have unknown : ∀ duid ∈ [[7, 1], [7, 2]],
      Unknown (emptyPool twoAddressConfig Hasher.newestFirst) duid := by
    intro duid member
    refine ⟨?_, ?_, rfl⟩
    · revert duid
      decide
    · intro held holds
      rcases holds with ⟨entry, found, _⟩
      cases (empty held).symm.trans found
  rcases (outgrows_of_run (rfl : startPool twoAddressConfig Hasher.newestFirst none = _)
      .start).2 ⟨twoAddressConfig.ipv6Start.bits⟩ [[7, 1], [7, 2]] 0 (by decide)
      (fun entry found => by cases (empty _).symm.trans found) (by decide) unknown (by decide) with
    ⟨later, final, run, _, _, _, hints, bound⟩
  exact ⟨later, final, run, hints, bound⟩

end RustyDhcp.Dhcpv6
