import RustyDhcp.Foundation.RoundRobin
import RustyDhcp.Server.MyServer

/-! # The DHCPv4 lease store as a table

`Valid` is the representation invariant of the store. Under it no operation
panics, and each one is the operation of the same purpose on the table that the
store represents. -/

namespace RustyDhcp.MyServer

variable {store : MyServer} {addr : Ipv4Addr} {chaddr : Mac} {now : Instant}

/-! ## The table of a store -/

theorem inPool_iff : store.inPool addr = true ↔
    store.ipStartNum.toNat ≤ addr.bits.toNat ∧
      addr.bits.toNat < store.ipStartNum.toNat + store.leaseNum.toNat := by
  rw [inPool, Option.any_eq_true]
  simp only [checkedSub_eq_some_iff, decide_eq_true_eq]
  constructor
  · intro found
    rcases found with ⟨offset, sum, bound⟩
    omega
  · intro bounds
    refine ⟨addr.bits - store.ipStartNum, ?_, ?_⟩
    all_goals
      rw [BitVec.toNat_sub_of_le (BitVec.le_def.mpr bounds.1)]
      omega

theorem idx_eq_some_iff {position : Nat} : store.idx addr = some position ↔
    store.useSlots = true ∧ addr.bits.toNat = store.ipStartNum.toNat + position ∧
      position < store.leaseNum.toNat := by
  have bound := addr.bits.isLt
  rw [idx]
  cases store.useSlots with
  | false => simp
  | true =>
      simp only [Bool.not_true, Bool.false_eq_true, if_false, Option.bind_eq_bind,
        Option.bind_eq_some_iff, checkedSub_eq_some_iff, true_and]
      constructor
      · intro found
        rcases found with ⟨offset, sum, taken⟩
        split at taken
        · cases taken
          exact ⟨sum, by assumption⟩
        · cases taken
      · intro found
        have fits : position < 2 ^ 32 := by omega
        refine ⟨.ofNat 32 position, ?_, ?_⟩
        all_goals
          rw [BitVec.toNat_ofNat, Nat.mod_eq_of_lt fits]
        · exact found.1
        · rw [if_pos found.2]

def address (store : MyServer) (offset : Nat) : Ipv4Addr :=
  ⟨store.ipStartNum + .ofNat 32 offset⟩

theorem address_toNat {offset : Nat} (fits : store.ipStartNum.toNat + offset < 2 ^ 32) :
    (store.address offset).bits.toNat = store.ipStartNum.toNat + offset := by
  rw [address, BitVec.toNat_add, BitVec.toNat_ofNat, Nat.add_mod_mod, Nat.mod_eq_of_lt fits]

theorem address_eq_of_toNat {offset : Nat}
    (same : addr.bits.toNat = store.ipStartNum.toNat + offset) :
    store.address offset = addr := by
  have fits := addr.bits.isLt
  have equal : (store.address offset).bits = addr.bits := by
    apply BitVec.eq_of_toNat_eq
    rw [address_toNat (by omega), same]
  cases addr
  exact congrArg Ipv4Addr.mk equal

def layout (store : MyServer) : SlotLayout Ipv4Addr Mac Entry where
  size := if store.useSlots then store.leaseNum.toNat else 0
  idx := store.idx
  addr := store.address
  owner := Entry.mac
  idx_lt found := by
    rw [idx_eq_some_iff] at found
    rw [if_pos found.1]
    exact found.2.2
  addr_idx found := address_eq_of_toNat (idx_eq_some_iff.mp found).2.1

def table (store : MyServer) : SlotTable Ipv4Addr Mac Entry where
  slots := store.slots
  filled := store.filled
  overflow := store.overflow
  hints := store.byMac

def withTable (store : MyServer) (table : SlotTable Ipv4Addr Mac Entry) : MyServer :=
  { store with
    slots := table.slots
    filled := table.filled
    overflow := table.overflow
    byMac := table.hints }

@[simp] theorem table_withTable (table : SlotTable Ipv4Addr Mac Entry) :
    (store.withTable table).table = table := rfl

@[simp] theorem layout_withTable (table : SlotTable Ipv4Addr Mac Entry) :
    (store.withTable table).layout = store.layout := rfl

/-- The entry of an address, wherever it is stored. -/
def entry (store : MyServer) (addr : Ipv4Addr) : Option Entry :=
  store.table.lookup store.layout addr

/-- What the store says when it is asked whether `chaddr` can have `addr`. -/
def available (store : MyServer) (chaddr : Mac) (addr : Ipv4Addr) (now : Instant) : Bool :=
  store.inPool addr && Entry.takeable (store.entry addr) chaddr now

/-- The representation invariant. -/
structure Valid (store : MyServer) : Prop where
  table : store.table.Valid store.layout
  hints : store.table.HintsValid store.layout
  range : store.ipStartNum.toNat + store.leaseNum.toNat ≤ 2 ^ 32
  cursor : store.lastLease.toNat < store.leaseNum.toNat ∨ store.leaseNum.toNat = 0

theorem Valid.withTable {table : SlotTable Ipv4Addr Mac Entry} (valid : store.Valid)
    (tableValid : table.Valid store.layout) (hintsValid : table.HintsValid store.layout) :
    (store.withTable table).Valid :=
  ⟨tableValid, hintsValid, valid.range, valid.cursor⟩

theorem entry_of_idx_none (slot : store.idx addr = none) :
    store.entry addr = store.overflow.get? addr := by
  have place : store.layout.idx addr = none := slot
  rw [entry, SlotTable.lookup_of_no_idx place]
  rfl

theorem entry_of_idx_some {position : Nat} (slot : store.idx addr = some position) :
    store.entry addr = store.table.slots[position]?.join :=
  SlotTable.lookup_of_idx (show store.layout.idx addr = some position from slot)

theorem Valid.index_eq (valid : store.Valid) {position : Nat}
    (slot : store.idx addr = some position) :
    Checked.index store.slots position = .ok (store.entry addr) :=
  SlotTable.index_slots valid.table slot

/-! ## What the reads compute -/

theorem lookup_eq (valid : store.Valid) : store.lookup addr = .ok (store.entry addr) := by
  rw [lookup]
  split
  · rename_i position slot
    exact valid.index_eq slot
  · rename_i slot
    rw [entry_of_idx_none slot]

theorem inPool_of_idx {position : Nat} (slot : store.idx addr = some position) :
    store.inPool addr = true := by
  rw [idx_eq_some_iff] at slot
  rw [inPool_iff]
  omega

theorem useSlots_eq_false_of_idx (inside : store.inPool addr = true)
    (slot : store.idx addr = none) : store.useSlots = false := by
  rw [inPool_iff] at inside
  by_contra slots
  have found : store.idx addr = some (addr.bits.toNat - store.ipStartNum.toNat) :=
    idx_eq_some_iff.mpr ⟨by simpa using slots, by omega, by omega⟩
  rw [slot] at found
  cases found

theorem availableAt_eq (valid : store.Valid) :
    store.availableAt chaddr addr now = .ok (store.available chaddr addr now) := by
  rw [availableAt, available]
  split
  · rename_i position slot
    rw [valid.index_eq slot, inPool_of_idx slot]
    rfl
  · rename_i slot
    have read := entry_of_idx_none slot
    cases inside : store.inPool addr with
    | false => simp
    | true => simp [useSlots_eq_false_of_idx inside slot, read]

theorem scanLeases_eq (valid : store.table.Valid store.layout)
    (range : store.ipStartNum.toNat + store.leaseNum.toNat ≤ 2 ^ 32) :
    store.scanLeases chaddr = .ok (store.table.scan store.layout chaddr) := by
  have searched : (if store.useSlots then
      store.slots.findIdx? fun slot => slot.any fun entry => entry.mac = chaddr
      else none) =
      store.table.slots.findIdx? fun slot =>
        slot.any fun entry => store.layout.owner entry = chaddr := by
    have length := valid.slots_length
    cases slots : store.useSlots with
    | true => rfl
    | false =>
        simp only [layout, slots] at length
        rw [List.eq_nil_of_length_eq_zero length]
        rfl
  rw [scanLeases, SlotTable.scan]
  simp only [searched]
  cases found : store.table.slots.findIdx? fun slot =>
      slot.any fun entry => store.layout.owner entry = chaddr with
  | none => rfl
  | some position =>
      have bound := (List.findIdx?_eq_some_iff_getElem.mp found).1
      rw [valid.slots_length] at bound
      have inside : position < store.leaseNum.toNat := by
        simp only [layout] at bound
        split at bound <;> omega
      have small : (BitVec.ofNat 32 position).toNat = position := by
        rw [BitVec.toNat_ofNat, Nat.mod_eq_of_lt (by omega)]
      have sum : Checked.add store.ipStartNum (.ofNat 32 position) =
          .ok (store.ipStartNum + .ofNat 32 position) := Checked.add_eq_ok (by omega)
      simp only [sum]
      rfl

theorem currentLease_eq (valid : store.Valid) :
    store.currentLease chaddr = .ok (store.table.current store.layout chaddr) := by
  have empty : store.isEmpty = store.table.isEmpty := rfl
  rw [currentLease, SlotTable.current, empty, scanLeases_eq valid.table valid.range]
  split
  · rfl
  · cases pointed : store.byMac.get? chaddr with
    | none =>
        have hint : store.table.hints.get? chaddr = none := pointed
        simp only [hint]
    | some ip =>
        have hint : store.table.hints.get? chaddr = some ip := pointed
        simp only [hint, lookup_eq valid, Checked.bind_ok, entry]
        cases found : store.table.lookup store.layout ip with
        | none => rfl
        | some entry =>
            have owner : store.layout.owner entry = entry.mac := rfl
            by_cases held : entry.mac = chaddr <;> simp [owner, held]

/-! ## What the writes compute -/

theorem dropHint_eq : store.dropHint addr chaddr (store.entry addr) =
    store.table.displace store.layout addr chaddr := by
  unfold dropHint SlotTable.displace entry
  cases store.table.lookup store.layout addr <;> rfl

theorem insertLease_eq (valid : store.Valid) {expiry : Option Instant}
    {hostname : Option Text} :
    store.insertLease addr chaddr expiry hostname =
      .ok (store.withTable
        (store.table.insert store.layout addr ⟨chaddr, expiry, hostname⟩)) := by
  have dropped : store.dropHint addr chaddr (store.entry addr) =
      store.table.displace store.layout addr chaddr := dropHint_eq
  cases slot : store.idx addr with
  | none =>
      have place : store.layout.idx addr = none := slot
      rw [entry_of_idx_none slot] at dropped
      simp only [insertLease, slot, dropped, withTable, SlotTable.insert, SlotTable.settle,
        SlotTable.store, place]
      rfl
  | some position =>
      have place : store.layout.idx addr = some position := slot
      have read := entry_of_idx_some slot
      simp only [insertLease, slot, valid.index_eq slot, Checked.bind_ok, dropped]
      rw [← SlotTable.recount_some _ _ ⟨chaddr, expiry, hostname⟩, read, withTable,
        SlotTable.insert, SlotTable.settle, SlotTable.store]
      simp only [place]
      rfl

theorem clearLease_eq (valid : store.Valid) (held : (store.entry addr).isSome) :
    store.clearLease addr =
      .ok (store.withTable (store.table.store store.layout addr none)) := by
  rcases Option.isSome_iff_exists.mp held with ⟨entry, found⟩
  cases slot : store.idx addr with
  | none =>
      have place : store.layout.idx addr = none := slot
      simp only [clearLease, slot, withTable, SlotTable.store, place]
      rfl
  | some position =>
      have place : store.layout.idx addr = some position := slot
      have read := entry_of_idx_some slot
      have positive : 0 < store.filled := SlotTable.filled_pos valid.table place found
      simp only [clearLease, slot, valid.index_eq slot, Checked.bind_ok,
        Checked.decrement_eq_ok positive, withTable, SlotTable.store, place,
        SlotTable.recount, ← read, found]
      rfl

/-- Removing the lease of `chaddr` releases its current address. -/
theorem removeLease_eq (valid : store.Valid)
    (current : store.table.current store.layout chaddr = some addr) :
    store.removeLease chaddr =
      .ok (store.withTable (store.table.release store.layout chaddr addr)) := by
  rcases SlotTable.heldBy_of_current valid.table current with ⟨entry, found, _⟩
  have held : (store.entry addr).isSome := Option.isSome_iff_exists.mpr ⟨entry, found⟩
  have scanned : (store.withTable (store.table.store store.layout addr none)).scanLeases
      chaddr = .ok ((store.table.store store.layout addr none).scan store.layout chaddr) :=
    scanLeases_eq (SlotTable.valid_store valid.table none) valid.range
  have hints : (store.withTable (store.table.store store.layout addr none)).byMac =
      store.byMac := SlotTable.hints_store none
  rw [removeLease, currentLease_eq valid, current]
  simp only [Checked.bind_ok, clearLease_eq valid held, repairHint, hints, scanned]
  rw [SlotTable.release]
  by_cases led : store.byMac.get? chaddr = some addr
  · have ledHint : store.table.hints.get? chaddr = some addr := led
    rw [if_pos led, if_pos ledHint]
    cases (store.table.store store.layout addr none).scan store.layout chaddr <;> rfl
  · have ledHint : store.table.hints.get? chaddr ≠ some addr := led
    have kept : store.table.hints =
        (store.table.store store.layout addr none).hints := (SlotTable.hints_store none).symm
    rw [if_neg led, if_neg ledHint, kept]
    rfl

/-- The store once `addr` carries the announced host name, if one was. -/
def renamed (store : MyServer) (addr : Ipv4Addr) (hostname : Option Text) : MyServer :=
  match hostname with
  | some name => store.withTable (store.table.amend store.layout addr (Entry.rename name))
  | none => store

theorem rememberHostname_eq (valid : store.Valid) {hostname : Option Text} :
    store.rememberHostname addr hostname = .ok (store.renamed addr hostname) := by
  cases slot : store.idx addr with
  | none =>
      have place : store.layout.idx addr = none := slot
      cases hostname with
      | none => simp only [rememberHostname, slot, renamed]
      | some name =>
          simp only [rememberHostname, slot, renamed, withTable, SlotTable.amend, place]
          rfl
  | some position =>
      have place : store.layout.idx addr = some position := slot
      simp only [rememberHostname, slot, valid.index_eq slot, Checked.bind_ok]
      cases hostname with
      | none => rfl
      | some name =>
          simp only [renamed, withTable, SlotTable.amend, place]
          rfl

/-! ## The round-robin loop -/

/-- The store with its cursor at an offset. -/
def atOffset (store : MyServer) (offset : Nat) : MyServer :=
  { store with lastLease := .ofNat 32 offset }

@[simp] theorem atOffset_lastLease : store.atOffset store.lastLease.toNat = store := by
  rw [atOffset, BitVec.ofNat_toNat, BitVec.setWidth_eq]

/-- The store and the address that a scan over the offsets ends with. -/
def afterScan (store : MyServer) (scanned : Nat × Option Nat) : MyServer × Option Ipv4Addr :=
  (store.atOffset scanned.1, scanned.2.map store.address)

theorem atOffset_toNat {offset : Nat} (bound : offset < store.leaseNum.toNat) :
    (store.atOffset offset).lastLease.toNat = offset := by
  have size := store.leaseNum.isLt
  rw [atOffset, BitVec.toNat_ofNat, Nat.mod_eq_of_lt (by omega)]

theorem Valid.atOffset {offset : Nat} (valid : store.Valid)
    (bound : offset < store.leaseNum.toNat) : (store.atOffset offset).Valid := by
  refine ⟨valid.table, valid.hints, valid.range, .inl ?_⟩
  rw [atOffset_toNat bound]
  exact bound

/-- The loop is a scan over the offsets of the pool. -/
theorem scanFree_eq (valid : store.Valid) (nonempty : 0 < store.leaseNum.toNat)
    (rounds : Nat) :
    scanFree chaddr now rounds store =
      .ok (store.afterScan (RoundRobin.scan store.leaseNum.toNat
        (fun offset => store.available chaddr (store.address offset) now) rounds
        store.lastLease.toNat)) := by
  induction rounds generalizing store with
  | zero => simp [scanFree, RoundRobin.scan, afterScan]
  | succ rounds induction =>
      have size := store.leaseNum.isLt
      have range := valid.range
      have cursor : store.lastLease.toNat < store.leaseNum.toNat := by
        rcases valid.cursor with below | empty <;> omega
      have below := Nat.mod_lt (store.lastLease.toNat + 1) nonempty
      have advanced := Checked.advance_eq cursor fun lastLease => do
        let bits ← Checked.add store.ipStartNum lastLease
        let moved : MyServer := { store with lastLease := lastLease }
        if ← moved.availableAt chaddr ⟨bits⟩ now then return (moved, some ⟨bits⟩)
        else scanFree chaddr now rounds moved
      rw [scanFree]
      apply advanced.trans
      rw [RoundRobin.scan]
      generalize (store.lastLease.toNat + 1) % store.leaseNum.toNat = offset at *
      have small : (BitVec.ofNat 32 offset).toNat = offset := atOffset_toNat below
      have next : (store.atOffset offset).Valid := valid.atOffset below
      have probe : ({ store with lastLease := .ofNat 32 offset } : MyServer).availableAt chaddr
          ⟨store.ipStartNum + .ofNat 32 offset⟩ now =
          .ok (store.available chaddr (store.address offset) now) := availableAt_eq next
      simp only [Checked.add_eq_ok (show store.ipStartNum.toNat +
        (BitVec.ofNat 32 offset).toNat < 2 ^ 32 by omega), Checked.bind_ok, probe]
      cases store.available chaddr (store.address offset) now with
      | true => rfl
      | false =>
          have rest := induction next nonempty
          rw [atOffset_toNat below] at rest
          exact rest

end RustyDhcp.MyServer
