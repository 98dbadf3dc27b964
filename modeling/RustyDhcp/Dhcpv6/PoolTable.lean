import RustyDhcp.Dhcpv6.Pool

/-! # The DHCPv6 pool as a table

`Valid` is the representation invariant of the pool. It says nothing about the
hints, which can be wrong. Under it no operation panics, and each one is the
operation of the same purpose on the table that the pool represents. -/

namespace RustyDhcp.Dhcpv6.V6Pool

variable {pool : V6Pool} {addr : Ipv6Addr} {duid : Duid} {now : Instant}

/-! ## The table of a pool -/

theorem idx_eq_some_iff {position : Nat} : pool.idx addr = some position ↔
    pool.useSlots = true ∧ pool.rangeEnd.isSome = true ∧
      addr.bits.toNat = pool.start.toNat + position ∧ position < pool.count.toNat := by
  have bound := addr.bits.isLt
  rw [idx]
  cases pool.useSlots with
  | false => simp
  | true =>
      cases pool.rangeEnd with
      | none => simp
      | some limit =>
          simp only [Bool.not_true, Option.isNone_some, Bool.or_self, Bool.false_eq_true,
            if_false, Option.bind_eq_bind, Option.bind_eq_some_iff, checkedSub_eq_some_iff,
            Option.isSome_some, true_and]
          constructor
          · intro found
            rcases found with ⟨offset, sum, taken⟩
            split at taken
            · cases taken
              exact ⟨sum, by assumption⟩
            · cases taken
          · intro found
            have fits : position < 2 ^ 128 := by omega
            have small : (BitVec.ofNat 128 position).toNat = position := by
              rw [BitVec.toNat_ofNat, Nat.mod_eq_of_lt fits]
            exact ⟨.ofNat 128 position, by omega, by rw [small, if_pos found.2]⟩

def address (pool : V6Pool) (offset : Nat) : Ipv6Addr :=
  ⟨pool.start + .ofNat 128 offset⟩

theorem address_toNat {offset : Nat} (fits : pool.start.toNat + offset < 2 ^ 128) :
    (pool.address offset).bits.toNat = pool.start.toNat + offset := by
  rw [address, BitVec.toNat_add, BitVec.toNat_ofNat, Nat.add_mod_mod, Nat.mod_eq_of_lt fits]

theorem address_eq_of_toNat {offset : Nat}
    (same : addr.bits.toNat = pool.start.toNat + offset) :
    pool.address offset = addr := by
  have fits := addr.bits.isLt
  have equal : (pool.address offset).bits = addr.bits := by
    apply BitVec.eq_of_toNat_eq
    rw [address_toNat (by omega), same]
  cases addr
  exact congrArg Ipv6Addr.mk equal

def layout (pool : V6Pool) : SlotLayout Ipv6Addr Duid Entry where
  size := if pool.useSlots then pool.count.toNat else 0
  idx := pool.idx
  addr := pool.address
  owner := Entry.duid
  idx_lt found := by
    rw [idx_eq_some_iff] at found
    rw [if_pos found.1]
    exact found.2.2.2
  addr_idx found := address_eq_of_toNat (idx_eq_some_iff.mp found).2.2.1

def table (pool : V6Pool) : SlotTable Ipv6Addr Duid Entry where
  slots := pool.slots
  filled := pool.filled
  overflow := pool.overflow
  hints := pool.byDuid

def withTable (pool : V6Pool) (table : SlotTable Ipv6Addr Duid Entry) : V6Pool :=
  { pool with
    slots := table.slots
    filled := table.filled
    overflow := table.overflow
    byDuid := table.hints }

@[simp] theorem table_withTable (table : SlotTable Ipv6Addr Duid Entry) :
    (pool.withTable table).table = table := rfl

@[simp] theorem layout_withTable (table : SlotTable Ipv6Addr Duid Entry) :
    (pool.withTable table).layout = pool.layout := rfl

/-- The entry of an address, wherever it is stored. -/
def entry (pool : V6Pool) (addr : Ipv6Addr) : Option Entry :=
  pool.table.lookup pool.layout addr

def HeldBy (pool : V6Pool) (addr : Ipv6Addr) (duid : Duid) : Prop :=
  pool.table.HeldBy pool.layout addr duid

def current (pool : V6Pool) (duid : Duid) : Option Ipv6Addr :=
  pool.table.current pool.layout duid

/-- What the pool says when it is asked whether `duid` can have `addr`. -/
def available (pool : V6Pool) (duid : Duid) (addr : Ipv6Addr) (now : Instant) : Bool :=
  pool.inRange addr && Entry.takeable (pool.entry addr) duid now

/-- The representation invariant. -/
structure Valid (pool : V6Pool) : Prop where
  table : pool.table.Valid pool.layout
  range : pool.rangeEnd = checkedAdd pool.start (pool.count.setWidth 128)
  cursor : pool.last.toNat < pool.count.toNat ∨ pool.last = 0 ∧ pool.count = 0

theorem Valid.withTable {table : SlotTable Ipv6Addr Duid Entry} (valid : pool.Valid)
    (tableValid : table.Valid pool.layout) : (pool.withTable table).Valid :=
  ⟨tableValid, valid.range, valid.cursor⟩

/-- The end of a pool whose range does not overflow. -/
theorem Valid.rangeEnd_toNat (valid : pool.Valid) {limit : U128}
    (found : pool.rangeEnd = some limit) :
    limit.toNat = pool.start.toNat + pool.count.toNat := by
  have sum := checkedAdd_eq_some_iff.mp (valid.range.symm.trans found)
  rwa [BitVec.toNat_setWidth_of_le (by omega)] at sum

theorem Valid.inRange_iff (valid : pool.Valid) : pool.inRange addr = true ↔
    pool.rangeEnd.isSome = true ∧ pool.start.toNat ≤ addr.bits.toNat ∧
      addr.bits.toNat < pool.start.toNat + pool.count.toNat := by
  rw [inRange]
  cases found : pool.rangeEnd with
  | none => simp
  | some limit =>
      have sum := valid.rangeEnd_toNat found
      simp [sum]

theorem entry_of_idx_none (slot : pool.idx addr = none) :
    pool.entry addr = pool.overflow.get? addr := by
  have place : pool.layout.idx addr = none := slot
  rw [entry, SlotTable.lookup_of_no_idx place]
  rfl

theorem entry_of_idx_some {position : Nat} (slot : pool.idx addr = some position) :
    pool.entry addr = pool.table.slots[position]?.join :=
  SlotTable.lookup_of_idx (show pool.layout.idx addr = some position from slot)

theorem Valid.index_eq (valid : pool.Valid) {position : Nat}
    (slot : pool.idx addr = some position) :
    Checked.index pool.slots position = .ok (pool.entry addr) :=
  SlotTable.index_slots valid.table slot

theorem Valid.inRange_of_idx (valid : pool.Valid) {position : Nat}
    (slot : pool.idx addr = some position) : pool.inRange addr = true := by
  rw [idx_eq_some_iff] at slot
  rw [valid.inRange_iff]
  exact ⟨slot.2.1, by omega, by omega⟩

theorem Valid.useSlots_eq_false (valid : pool.Valid) (inside : pool.inRange addr = true)
    (slot : pool.idx addr = none) : pool.useSlots = false := by
  rw [valid.inRange_iff] at inside
  by_contra slots
  have found : pool.idx addr = some (addr.bits.toNat - pool.start.toNat) :=
    idx_eq_some_iff.mpr ⟨by simpa using slots, inside.1, by omega, by omega⟩
  rw [slot] at found
  cases found

section

variable (useSlots : Bool) (hasher : Hasher Ipv6Addr Entry) (start : Ipv6Addr) (count : U64)
variable (leaseDuration : Duration)

theorem table_withStorage : (withStorage useSlots hasher start count leaseDuration).table =
    SlotTable.empty (withStorage useSlots hasher start count leaseDuration).layout hasher
      Hasher.newestFirst := by
  cases useSlots <;> rfl

theorem valid_withStorage : (withStorage useSlots hasher start count leaseDuration).Valid where
  table := by
    rw [table_withStorage]
    exact SlotTable.valid_empty _ _
  range := rfl
  cursor := by
    change (0 : U64).toNat < count.toNat ∨ (0 : U64) = 0 ∧ count = 0
    rcases Nat.eq_zero_or_pos count.toNat with zero | positive
    · exact .inr ⟨rfl, BitVec.eq_of_toNat_eq zero⟩
    · exact .inl positive

theorem entry_withStorage (addr : Ipv6Addr) :
    (withStorage useSlots hasher start count leaseDuration).entry addr = none := by
  rw [entry, table_withStorage]
  exact SlotTable.lookup_empty _ _

end

/-! ## What the reads compute -/

theorem lookup_eq (valid : pool.Valid) : pool.lookup addr = .ok (pool.entry addr) := by
  rw [lookup]
  split
  · rename_i position slot
    exact valid.index_eq slot
  · rename_i slot
    rw [entry_of_idx_none slot]

theorem availableAt_eq (valid : pool.Valid) :
    pool.availableAt duid addr now = .ok (pool.available duid addr now) := by
  rw [availableAt, available]
  split
  · rename_i position slot
    rw [slotAvailable, valid.index_eq slot, valid.inRange_of_idx slot]
    rfl
  · rename_i slot
    have read := entry_of_idx_none slot
    cases inside : pool.inRange addr with
    | false => simp
    | true => simp [valid.useSlots_eq_false inside slot, read]

theorem scanLeases_eq (valid : pool.Valid) :
    pool.scanLeases duid = .ok (pool.table.scan pool.layout duid) := by
  have searched : (if pool.useSlots then
      pool.slots.findIdx? fun slot => slot.any fun entry => entry.duid = duid
      else none) =
      pool.table.slots.findIdx? fun slot =>
        slot.any fun entry => pool.layout.owner entry = duid := by
    have length := valid.table.slots_length
    cases slots : pool.useSlots with
    | true => rfl
    | false =>
        simp only [layout, slots] at length
        rw [List.eq_nil_of_length_eq_zero length]
        rfl
  rw [scanLeases, SlotTable.scan]
  simp only [searched]
  cases found : pool.table.slots.findIdx? fun slot =>
      slot.any fun entry => pool.layout.owner entry = duid with
  | none => rfl
  | some position =>
      rcases List.findIdx?_eq_some_iff_getElem.mp found with ⟨bound, test, _⟩
      have occupied : ∃ entry, pool.table.slots[position]? = some (some entry) := by
        rcases Option.isSome_iff_exists.mp (Option.isSome_of_any test) with ⟨entry, read⟩
        exact ⟨entry, List.getElem?_eq_some_iff.mpr ⟨bound, read⟩⟩
      rcases occupied with ⟨entry, occupied⟩
      -- An occupied slot is the slot of an address, so its address fits.
      have slot : pool.idx (pool.address position) = some position :=
        valid.table.slots_addressed occupied
      have located := (idx_eq_some_iff.mp slot).2.2.1
      have fits := (pool.address position).bits.isLt
      have small : (BitVec.ofNat 128 position).toNat = position := by
        rw [BitVec.toNat_ofNat, Nat.mod_eq_of_lt (by omega)]
      have sum : Checked.add pool.start (.ofNat 128 position) =
          .ok (pool.start + .ofNat 128 position) := Checked.add_eq_ok (by omega)
      simp only [sum]
      rfl

theorem currentLease_eq (valid : pool.Valid) :
    pool.currentLease duid = .ok (pool.current duid) := by
  have empty : pool.isEmpty = pool.table.isEmpty := rfl
  rw [currentLease, current, SlotTable.current, empty, scanLeases_eq valid]
  split
  · rfl
  · cases pointed : pool.byDuid.get? duid with
    | none =>
        have hint : pool.table.hints.get? duid = none := pointed
        simp only [hint]
    | some ip =>
        have hint : pool.table.hints.get? duid = some ip := pointed
        simp only [hint, lookup_eq valid, Checked.bind_ok, entry]
        cases found : pool.table.lookup pool.layout ip with
        | none => rfl
        | some entry =>
            have owner : pool.layout.owner entry = entry.duid := rfl
            by_cases held : entry.duid = duid <;> simp [owner, held]

/-! ## What the writes compute -/

theorem dropHint_eq : pool.dropHint addr duid (pool.entry addr) =
    pool.table.displace pool.layout addr duid := by
  unfold dropHint SlotTable.displace entry
  cases pool.table.lookup pool.layout addr <;> rfl

theorem insert_eq (valid : pool.Valid) {expiry : Option Instant} :
    pool.insert addr duid expiry =
      .ok (pool.withTable (pool.table.insert pool.layout addr ⟨duid, expiry⟩)) := by
  have dropped : pool.dropHint addr duid (pool.entry addr) =
      pool.table.displace pool.layout addr duid := dropHint_eq
  cases slot : pool.idx addr with
  | none =>
      have place : pool.layout.idx addr = none := slot
      rw [entry_of_idx_none slot] at dropped
      simp only [insert, slot, dropped, ite_self, withTable, SlotTable.insert,
        SlotTable.settle, SlotTable.store, place]
      rfl
  | some position =>
      have place : pool.layout.idx addr = some position := slot
      have read := entry_of_idx_some slot
      simp only [insert, slot, valid.index_eq slot, Checked.bind_ok, dropped]
      rw [← SlotTable.recount_some _ _ ⟨duid, expiry⟩, read, withTable, SlotTable.insert,
        SlotTable.settle, SlotTable.store]
      simp only [place]
      rfl

theorem clearLease_eq (valid : pool.Valid) (held : (pool.entry addr).isSome) :
    pool.clearLease addr =
      .ok (pool.withTable (pool.table.store pool.layout addr none)) := by
  rcases Option.isSome_iff_exists.mp held with ⟨entry, found⟩
  cases slot : pool.idx addr with
  | none =>
      have place : pool.layout.idx addr = none := slot
      simp only [clearLease, slot, withTable, SlotTable.store, place]
      rfl
  | some position =>
      have place : pool.layout.idx addr = some position := slot
      have read := entry_of_idx_some slot
      have positive : 0 < pool.filled := SlotTable.filled_pos valid.table place found
      simp only [clearLease, slot, valid.index_eq slot, Checked.bind_ok,
        Checked.decrement_eq_ok positive, withTable, SlotTable.store, place,
        SlotTable.recount, ← read, found]
      rfl

theorem heldBy_of_current (valid : pool.Valid) (found : pool.current duid = some addr) :
    pool.HeldBy addr duid :=
  SlotTable.heldBy_of_current valid.table found

theorem current_eq_none_iff (valid : pool.Valid) :
    pool.current duid = none ↔ ∀ held, ¬pool.HeldBy held duid :=
  SlotTable.current_eq_none_iff valid.table

/-- A pool without the lease that `duid` has of `addr`. -/
def released (pool : V6Pool) (duid : Duid) (addr : Ipv6Addr) : V6Pool :=
  pool.withTable (pool.table.release pool.layout duid addr)

theorem release_held (valid : pool.Valid) (current : pool.current duid = some addr) :
    pool.release duid = .ok (pool.released duid addr, true) := by
  rcases heldBy_of_current valid current with ⟨entry, found, _⟩
  have held : (pool.entry addr).isSome := Option.isSome_iff_exists.mpr ⟨entry, found⟩
  have cleared : (pool.withTable (pool.table.store pool.layout addr none)).Valid :=
    valid.withTable (SlotTable.valid_store valid.table none)
  have scanned : (pool.withTable (pool.table.store pool.layout addr none)).scanLeases duid =
      .ok ((pool.table.store pool.layout addr none).scan pool.layout duid) :=
    scanLeases_eq cleared
  have hints : (pool.withTable (pool.table.store pool.layout addr none)).byDuid =
      pool.byDuid := SlotTable.hints_store none
  rw [release, currentLease_eq valid, current]
  simp only [Checked.bind_ok, clearLease_eq valid held, repairHint, hints, scanned]
  rw [released, SlotTable.release]
  by_cases led : pool.byDuid.get? duid = some addr
  · have ledHint : pool.table.hints.get? duid = some addr := led
    rw [if_pos led, if_pos ledHint]
    cases (pool.table.store pool.layout addr none).scan pool.layout duid <;> rfl
  · have ledHint : pool.table.hints.get? duid ≠ some addr := led
    have kept : pool.table.hints =
        (pool.table.store pool.layout addr none).hints := (SlotTable.hints_store none).symm
    rw [if_neg led, if_neg ledHint, kept]
    rfl

theorem release_nothing (valid : pool.Valid) (nothing : pool.current duid = none) :
    pool.release duid = .ok (pool, false) := by
  rw [release, currentLease_eq valid, nothing]
  rfl

/-- A pool with a new timed lease. Taking an address over leaves the hint of
its old holder where it is. -/
def leased (pool : V6Pool) (duid : Duid) (addr : Ipv6Addr) (now : Instant) : V6Pool :=
  pool.withTable (pool.table.settle pool.layout addr ⟨duid, some (now + pool.leaseDuration)⟩)

theorem request_held (valid : pool.Valid) {held : Ipv6Addr}
    (current : pool.current duid = some held) :
    pool.request duid addr now = .ok (pool, .ok held) := by
  rw [request, currentLease_eq valid, current]
  rfl

theorem request_refused (valid : pool.Valid) (nothing : pool.current duid = none)
    (taken : pool.available duid addr now = false) :
    pool.request duid addr now = .ok (pool, .error "Requested address not available") := by
  simp only [request, currentLease_eq valid, nothing, availableAt_eq valid, taken,
    Checked.bind_ok]
  rfl

theorem request_free (valid : pool.Valid) (nothing : pool.current duid = none)
    (free : pool.available duid addr now = true) (fits : Instant.Fits now pool.leaseDuration) :
    pool.request duid addr now = .ok (pool.leased duid addr now, .ok addr) := by
  simp only [request, currentLease_eq valid, nothing, availableAt_eq valid, free,
    Instant.add_eq_ok fits, Checked.bind_ok, if_true]
  cases slot : pool.idx addr with
  | none =>
      have place : pool.layout.idx addr = none := slot
      simp only [leased, withTable, SlotTable.settle, SlotTable.store, place]
      rfl
  | some position =>
      have place : pool.layout.idx addr = some position := slot
      have read := entry_of_idx_some slot
      simp only [valid.index_eq slot, Checked.bind_ok]
      rw [← SlotTable.recount_some _ _ ⟨duid, some (now + pool.leaseDuration)⟩, read, leased,
        withTable, SlotTable.settle, SlotTable.store]
      simp only [place]
      rfl

theorem request_late (valid : pool.Valid) (nothing : pool.current duid = none)
    (free : pool.available duid addr now = true) (late : ¬Instant.Fits now pool.leaseDuration) :
    pool.request duid addr now = .error .unwrapFailed := by
  simp only [request, currentLease_eq valid, nothing, availableAt_eq valid, free,
    Instant.add_eq_error late, Checked.bind_ok, if_true]
  rfl

end RustyDhcp.Dhcpv6.V6Pool
