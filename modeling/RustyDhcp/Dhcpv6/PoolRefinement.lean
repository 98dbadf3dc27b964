import RustyDhcp.Dhcpv6.LeaseMap
import RustyDhcp.Dhcpv6.PoolInvariant

/-! # The DHCPv6 pool refines a plain map

As long as nobody is reserved two addresses, nothing that a pool answers tells
how it stores its leases, or that it keeps hints. -/

namespace RustyDhcp.Dhcpv6

/-- The pool represents the map. -/
structure Represents (pool : V6Pool) (spec : LeaseMap) : Prop where
  valid : pool.Valid
  single : pool.table.SingleHolding pool.layout
  entry : ∀ addr, pool.entry addr = spec.leases.get? addr
  start : pool.start.toNat = spec.start
  count : pool.count.toNat = spec.count
  leaseDuration : pool.leaseDuration = spec.leaseDuration
  cursor : pool.last.toNat = spec.cursor

namespace Represents

variable {pool : V6Pool} {spec : LeaseMap} {duid : Duid} {addr : Ipv6Addr} {now : Instant}

/-! ## Reads -/

theorem address (represents : Represents pool spec) (offset : Nat) :
    pool.address offset = spec.address offset := by
  have bits : (pool.address offset).bits = (spec.address offset).bits := by
    apply BitVec.eq_of_toNat_eq
    rw [V6Pool.address, LeaseMap.address, BitVec.toNat_add, BitVec.toNat_ofNat,
      BitVec.toNat_ofNat, Nat.add_mod_mod, represents.start]
  exact congrArg Ipv6Addr.mk bits

theorem inRange (represents : Represents pool spec) (addr : Ipv6Addr) :
    pool.inRange addr = spec.inRange addr := by
  have ends : pool.rangeEnd.isSome = true ↔ spec.start + spec.count < 2 ^ 128 := by
    rw [represents.valid.range, ← Bool.not_eq_false, Option.isSome_eq_false_iff,
      Option.isNone_iff_eq_none, checkedAdd_eq_none_iff,
      BitVec.toNat_setWidth_of_le (by omega), represents.start, represents.count]
    omega
  rw [Bool.eq_iff_iff, represents.valid.inRange_iff, ends, LeaseMap.inRange,
    represents.start, represents.count]
  simp [and_assoc]

theorem available (represents : Represents pool spec) :
    pool.available duid addr now = spec.available duid addr now := by
  rw [V6Pool.available, LeaseMap.available, represents.inRange, represents.entry]
  cases spec.leases.get? addr <;> rfl

theorem heldBy_iff (represents : Represents pool spec) :
    pool.HeldBy addr duid ↔ ∃ entry, spec.leases.get? addr = some entry ∧ entry.duid = duid := by
  rw [← represents.entry]
  exact Iff.rfl

theorem current (represents : Represents pool spec) :
    pool.current duid = spec.currentLease duid := by
  apply Option.ext
  intro addr
  have held : pool.current duid = some addr ↔ pool.HeldBy addr duid :=
    SlotTable.current_eq_some_iff represents.valid.table represents.single
  rw [held, represents.heldBy_iff]
  constructor
  · intro holds
    cases found : spec.currentLease duid with
    | none =>
        rcases holds with ⟨entry, read, owner⟩
        have fails := HashMap.findKey?_eq_none_iff.mp found addr entry read
        simp [owner] at fails
    | some other =>
        rcases HashMap.findKey?_some found with ⟨entry, read, owner⟩
        have otherHeld : pool.HeldBy other duid :=
          represents.heldBy_iff.mpr ⟨entry, read, by simpa using owner⟩
        rw [represents.single otherHeld (represents.heldBy_iff.mpr holds)]
  · intro found
    rcases HashMap.findKey?_some found with ⟨entry, read, owner⟩
    exact ⟨entry, read, by simpa using owner⟩

theorem len (represents : Represents pool spec) : pool.len = spec.leases.size := by
  have counted := SlotTable.length_addresses represents.valid.table
  have same : (pool.table.addresses pool.layout).Perm spec.leases.keys := by
    apply (List.perm_ext_iff_of_nodup (SlotTable.addresses_nodup represents.valid.table)
      spec.leases.keys_nodup).mpr
    intro addr
    rw [SlotTable.mem_addresses_iff represents.valid.table, HashMap.mem_keys_iff,
      ← represents.entry]
    rfl
  rw [← HashMap.length_keys, ← same.length_eq, counted]
  rfl

theorem isEmpty (represents : Represents pool spec) :
    pool.isEmpty = spec.leases.isEmpty := by
  have empty : pool.isEmpty = pool.table.isEmpty := rfl
  rw [Bool.eq_iff_iff, empty, SlotTable.isEmpty_iff represents.valid.table,
    HashMap.isEmpty_iff]
  exact forall_congr' fun addr => by rw [← represents.entry]; rfl

theorem accepts (represents : Represents pool spec) :
    (fun offset => pool.available duid (pool.address offset) now) =
      fun offset => spec.available duid (spec.address offset) now := by
  funext offset
  rw [represents.address, represents.available]

/-! ## Writes -/

/-- A write of one address that gives nobody a second one. -/
theorem write {table : SlotTable Ipv6Addr Duid V6Pool.Entry} {content : Option V6Pool.Entry}
    {leases : HashMap Ipv6Addr V6Pool.Entry} (represents : Represents pool spec)
    (valid : (pool.withTable table).Valid)
    (written : (pool.withTable table).entry = Function.update pool.entry addr content)
    (read : ∀ other, leases.get? other = if other = addr then content else spec.leases.get? other)
    (single : ∀ entry, content = some entry → ∀ other, pool.HeldBy other entry.duid →
      other = addr) :
    Represents (pool.withTable table) { spec with leases := leases } where
  valid := valid
  single := by
    have holder : ∀ {place owner}, (pool.withTable table).HeldBy place owner →
        (∃ entry, content = some entry ∧ entry.duid = owner ∧ place = addr) ∨
          pool.HeldBy place owner := by
      intro place owner held
      rcases held with ⟨entry, found, owns⟩
      have placed : (pool.withTable table).entry place = some entry := found
      rw [written, Function.update_apply] at placed
      split at placed
      · rename_i here
        exact .inl ⟨entry, placed, owns, here⟩
      · exact .inr ⟨entry, placed, owns⟩
    intro left right owner leftHeld rightHeld
    rcases holder leftHeld with ⟨entry, new, owns, leftHere⟩ | leftOld
    · rcases holder rightHeld with ⟨_, _, _, rightHere⟩ | rightOld
      · exact leftHere.trans rightHere.symm
      · rw [leftHere, single entry new right (owns ▸ rightOld)]
    · rcases holder rightHeld with ⟨entry, new, owns, rightHere⟩ | rightOld
      · rw [rightHere, single entry new left (owns ▸ leftOld)]
      · exact represents.single leftOld rightOld
  entry other := by
    rw [written, Function.update_apply, read, represents.entry]
  start := represents.start
  count := represents.count
  leaseDuration := represents.leaseDuration
  cursor := represents.cursor

theorem inserted {expiry : Option Instant} (represents : Represents pool spec)
    (oneAddress : spec.OneAddress (.insert addr duid expiry)) :
    Represents (pool.inserted addr duid expiry) (spec.insert addr duid expiry) := by
  apply represents.write (V6Pool.valid_inserted represents.valid)
    (V6Pool.entry_inserted represents.valid)
  · exact fun other => HashMap.get?_insert ..
  · intro entry same other held
    cases same
    rcases represents.heldBy_iff.mp held with ⟨old, found, owner⟩
    exact oneAddress other old found owner

theorem leased (represents : Represents pool spec)
    (nothing : ∀ held, ¬pool.HeldBy held duid) :
    Represents (pool.leased duid addr now)
      (spec.insert addr duid (some (now + spec.leaseDuration))) := by
  rw [← represents.leaseDuration]
  apply represents.write (V6Pool.valid_leased represents.valid)
    (V6Pool.entry_leased represents.valid)
  · exact fun other => HashMap.get?_insert ..
  · intro entry same other held
    cases same
    exact absurd held (nothing other)

theorem released (represents : Represents pool spec) :
    Represents (pool.released duid addr) { spec with leases := spec.leases.remove addr } := by
  apply represents.write (V6Pool.valid_released represents.valid)
    (V6Pool.entry_released represents.valid)
  · exact fun other => HashMap.get?_remove ..
  · intro entry same
    cases same

theorem atOffset {offset : Nat} (represents : Represents pool spec)
    (bound : offset < pool.count.toNat) :
    Represents (pool.atOffset offset) { spec with cursor := offset } where
  valid := represents.valid.atOffset bound
  single := represents.single
  entry := represents.entry
  start := represents.start
  count := represents.count
  leaseDuration := represents.leaseDuration
  cursor := V6Pool.atOffset_toNat bound

/-! ## Calls -/

theorem discover (represents : Represents pool spec) (duid : Duid) (now : Instant) :
    ∃ next, pool.discover duid now = .ok (next, (spec.discover duid now).2) ∧
      Represents next (spec.discover duid now).1 := by
  have same : pool.current duid = spec.currentLease duid := represents.current
  cases found : spec.currentLease duid with
  | some addr =>
      rw [found] at same
      rw [V6Pool.discover_held represents.valid same]
      simp only [LeaseMap.discover, found]
      exact ⟨pool, rfl, represents⟩
  | none =>
      rw [found] at same
      rw [V6Pool.discover_scan represents.valid same, represents.accepts, represents.cursor,
        represents.count]
      simp only [LeaseMap.discover, found]
      have cursor : spec.cursor < spec.count ∨ spec.count = 0 := by
        rw [← represents.count, ← represents.cursor]
        rcases represents.valid.cursor with below | empty
        · exact .inl below
        · exact .inr (by rw [empty.2]; rfl)
      rcases RoundRobin.scan_turn cursor with ⟨offset, first, scanned⟩ | ⟨_, scanned⟩
      · have below := RoundRobin.IsFirst.lt first
        rw [scanned, V6Pool.afterScan, funext represents.address]
        exact ⟨_, rfl, represents.atOffset (by rwa [represents.count])⟩
      · have unmoved : pool.atOffset spec.cursor = pool := by
          rw [← represents.cursor, V6Pool.atOffset_last]
        rw [scanned, V6Pool.afterScan, unmoved]
        exact ⟨pool, rfl, represents⟩

/-- A request is answered as by the map, unless its lease would run out behind the last
`Instant`. -/
theorem request (represents : Represents pool spec) (duid : Duid) (addr : Ipv6Addr)
    (now : Instant) :
    (∃ next, pool.request duid addr now = .ok (next, (spec.request duid addr now).2) ∧
        Represents next (spec.request duid addr now).1) ∨
      ¬Instant.Fits now spec.leaseDuration ∧
        pool.request duid addr now = .error .unwrapFailed := by
  have same : pool.current duid = spec.currentLease duid := represents.current
  cases found : spec.currentLease duid with
  | some held =>
      left
      rw [found] at same
      rw [V6Pool.request_held represents.valid same]
      simp only [LeaseMap.request, found]
      exact ⟨pool, rfl, represents⟩
  | none =>
      rw [found] at same
      have nothing := (V6Pool.current_eq_none_iff represents.valid).mp same
      have agreed : pool.available duid addr now = spec.available duid addr now :=
        represents.available
      cases free : spec.available duid addr now with
      | true =>
          rw [free] at agreed
          by_cases fits : Instant.Fits now pool.leaseDuration
          · left
            rw [V6Pool.request_free represents.valid same agreed fits]
            simp only [LeaseMap.request, found, free, if_true]
            exact ⟨_, rfl, represents.leased nothing⟩
          · right
            rw [← represents.leaseDuration]
            exact ⟨fits, V6Pool.request_late represents.valid same agreed fits⟩
      | false =>
          left
          rw [free] at agreed
          rw [V6Pool.request_refused represents.valid same agreed]
          simp only [LeaseMap.request, found, free, Bool.false_eq_true, if_false]
          exact ⟨_, rfl, represents⟩

theorem release (represents : Represents pool spec) (duid : Duid) :
    ∃ next, pool.release duid = .ok (next, (spec.release duid).2) ∧
      Represents next (spec.release duid).1 := by
  have same : pool.current duid = spec.currentLease duid := represents.current
  cases found : spec.currentLease duid with
  | some addr =>
      rw [found] at same
      rw [V6Pool.release_held represents.valid same]
      simp only [LeaseMap.release, found]
      exact ⟨_, rfl, represents.released⟩
  | none =>
      rw [found] at same
      rw [V6Pool.release_nothing represents.valid same]
      simp only [LeaseMap.release, found]
      exact ⟨_, rfl, represents⟩

/-- The pool answers a call as the map does, and goes on representing it, or it panics at
a call that is too late. -/
theorem call (represents : Represents pool spec) (call : PoolCall)
    (oneAddress : spec.OneAddress call) :
    (∃ next, pool.call call = .ok (next, (spec.call call).2) ∧
        Represents next (spec.call call).1) ∨
      ¬call.Fits spec.leaseDuration ∧ pool.call call = .error .unwrapFailed := by
  cases call with
  | insert addr duid expiry =>
      simp only [V6Pool.call, V6Pool.insert_eq represents.valid, Checked.bind_ok]
      exact .inl ⟨_, rfl, represents.inserted oneAddress⟩
  | discover duid now =>
      rcases represents.discover duid now with ⟨next, discovered, after⟩
      simp only [V6Pool.call, discovered, Checked.bind_ok]
      exact .inl ⟨next, rfl, after⟩
  | request duid addr now =>
      rcases represents.request duid addr now with ⟨next, requested, after⟩ | ⟨late, requested⟩
      · simp only [V6Pool.call, requested, Checked.bind_ok]
        exact .inl ⟨next, rfl, after⟩
      · refine .inr ⟨late, ?_⟩
        rw [V6Pool.call, requested]
        rfl
  | release duid =>
      rcases represents.release duid with ⟨next, released, after⟩
      simp only [V6Pool.call, released, Checked.bind_ok]
      exact .inl ⟨next, rfl, after⟩
  | currentLease duid =>
      simp only [V6Pool.call, V6Pool.currentLease_eq represents.valid, Checked.bind_ok,
        represents.current]
      exact .inl ⟨pool, rfl, represents⟩
  | available duid addr now =>
      simp only [V6Pool.call, V6Pool.availableAt_eq represents.valid, Checked.bind_ok,
        represents.available]
      exact .inl ⟨pool, rfl, represents⟩
  | get addr =>
      simp only [V6Pool.call, V6Pool.get, V6Pool.lookup_eq represents.valid, Checked.bind_ok,
        represents.entry]
      exact .inl ⟨pool, rfl, represents⟩
  | len =>
      simp only [V6Pool.call, represents.len]
      exact .inl ⟨pool, rfl, represents⟩
  | isEmpty =>
      simp only [V6Pool.call, represents.isEmpty]
      exact .inl ⟨pool, rfl, represents⟩

/-- The pool answers all calls as the map does, or those before one that is too late, at
which it panics. -/
theorem observe {calls : List PoolCall} (represents : Represents pool spec)
    (oneAddress : spec.OneAddressEach calls) :
    pool.observe calls = .ok (spec.observe calls) ∨
      ∃ done late rest, calls = done ++ late :: rest ∧ ¬late.Fits spec.leaseDuration ∧
        pool.observe done = .ok (spec.observe done) ∧
          pool.observe calls = .error .unwrapFailed := by
  induction calls generalizing pool spec with
  | nil => exact .inl rfl
  | cons call calls induction =>
      rcases represents.call call oneAddress.1 with ⟨next, called, after⟩ | ⟨late, panicked⟩
      · have onward : ∀ {more seen}, next.observe more = seen → pool.observe (call :: more) =
            seen.map fun answers => ((spec.call call).2, (spec.call call).1.cursor) :: answers := by
          intro more seen observed
          simp only [V6Pool.observe, called, Checked.bind_ok, observed, after.cursor]
          cases seen <;> rfl
        rcases induction after oneAddress.2 with
          same | ⟨done, late, rest, split, misfits, before, panicked⟩
        · left
          rw [onward same]
          rfl
        · right
          refine ⟨call :: done, late, rest, by rw [split, List.cons_append], ?_, ?_, ?_⟩
          · rwa [LeaseMap.leaseDuration_call] at misfits
          · rw [onward before]
            rfl
          · rw [onward panicked]
            rfl
      · right
        refine ⟨[], call, calls, rfl, late, rfl, ?_⟩
        rw [V6Pool.observe, panicked]
        rfl

end Represents

/-! ## Whole runs -/

/-- A new pool represents the empty map, however it stores its leases. -/
theorem represents_new (useSlots : Bool) (hasher order : Hasher Ipv6Addr V6Pool.Entry)
    (start : Ipv6Addr) (count : U64) (leaseDuration : Duration) :
    Represents (V6Pool.withStorage useSlots hasher start count leaseDuration)
      (LeaseMap.new order start count leaseDuration) where
  valid := V6Pool.valid_withStorage ..
  single := by
    intro left right owner held
    rcases held with ⟨entry, found, _⟩
    have nothing := V6Pool.entry_withStorage useSlots hasher start count leaseDuration left
    cases nothing.symm.trans found
  entry addr := by rw [V6Pool.entry_withStorage, LeaseMap.new, HashMap.get?_new]
  start := rfl
  count := rfl
  leaseDuration := rfl
  cursor := rfl

end RustyDhcp.Dhcpv6
