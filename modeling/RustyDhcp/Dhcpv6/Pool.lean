import RustyDhcp.Foundation.Checked
import RustyDhcp.Foundation.SlotHints
import RustyDhcp.Dhcpv6.Packet

/-! # The DHCPv6 address pool

In-range addresses live in a slot array indexed by the distance from the start
of the pool; reservations outside the range, every lease of a pool too large
for slots, and every lease of a pool whose end overflows the address space,
live in the overflow map. An entry without an expiry cannot be taken over. -/

namespace RustyDhcp.Dhcpv6

structure V6Pool.Entry where
  duid : Duid
  expiry : Option Instant
deriving DecidableEq

structure V6Pool where
  start : U128
  rangeEnd : Option U128
  count : U64
  last : U64
  leaseDuration : Duration
  useSlots : Bool
  slots : List (Option V6Pool.Entry)
  filled : Nat
  overflow : HashMap Ipv6Addr V6Pool.Entry
  byDuid : HashMap Duid Ipv6Addr

namespace V6Pool

def maxSlots : Nat := 100000

/-- A pool with a given storage. The order in which the hints would be met in
an iteration does not matter: nothing iterates over them. -/
def withStorage (useSlots : Bool) (hasher : Hasher Ipv6Addr Entry) (start : Ipv6Addr)
    (count : U64) (leaseDuration : Duration) : V6Pool where
  start := start.bits
  rangeEnd := checkedAdd start.bits (count.setWidth 128)
  count := count
  last := 0
  leaseDuration := leaseDuration
  useSlots := useSlots
  slots := if useSlots then List.replicate count.toNat none else []
  filled := 0
  overflow := HashMap.new hasher
  byDuid := HashMap.new Hasher.newestFirst

def new (hasher : Hasher Ipv6Addr Entry) (start : Ipv6Addr) (count : U64)
    (leaseDuration : Duration) : V6Pool :=
  withStorage (count.toNat ≤ maxSlots) hasher start count leaseDuration

/-- Number of leases currently held. -/
def len (pool : V6Pool) : Nat := pool.filled + pool.overflow.size

def isEmpty (pool : V6Pool) : Bool := pool.filled = 0 && pool.overflow.isEmpty

def inRange (pool : V6Pool) (addr : Ipv6Addr) : Bool :=
  pool.start.toNat ≤ addr.bits.toNat &&
    pool.rangeEnd.any fun limit => addr.bits.toNat < limit.toNat

def idx (pool : V6Pool) (addr : Ipv6Addr) : Option Nat :=
  if !pool.useSlots || pool.rangeEnd.isNone then none
  else do
    let offset ← checkedSub addr.bits pool.start
    if offset.toNat < pool.count.toNat then some offset.toNat else none

def lookup (pool : V6Pool) (addr : Ipv6Addr) : Checked (Option Entry) :=
  match pool.idx addr with
  | some i => Checked.index pool.slots i
  | none => .ok (pool.overflow.get? addr)

def get (pool : V6Pool) (addr : Ipv6Addr) : Checked (Option Entry) := pool.lookup addr

/-- Whether a place can be given to `duid`. -/
def Entry.takeable (slot : Option Entry) (duid : Duid) (now : Instant) : Bool :=
  match slot with
  | some entry => entry.duid = duid || entry.expiry.any fun expiry => expiry < now
  | none => true

def slotAvailable (pool : V6Pool) (i : Nat) (duid : Duid) (now : Instant) :
    Checked Bool := do
  let slot ← Checked.index pool.slots i
  return Entry.takeable slot duid now

def availableAt (pool : V6Pool) (duid : Duid) (addr : Ipv6Addr) (now : Instant) :
    Checked Bool :=
  match pool.idx addr with
  | some i => pool.slotAvailable i duid now
  | none =>
      if !pool.useSlots && pool.inRange addr then
        .ok (Entry.takeable (pool.overflow.get? addr) duid now)
      else .ok false

/-- The address of the first slot, else of the first overflow entry, whose
entry belongs to `duid`. -/
def scanLeases (pool : V6Pool) (duid : Duid) : Checked (Option Ipv6Addr) :=
  let held := fun slot : Option Entry => slot.any fun entry => entry.duid = duid
  match if pool.useSlots then pool.slots.findIdx? held else none with
  | some i => do
      let bits ← Checked.add pool.start (.ofNat 128 i)
      return some ⟨bits⟩
  | none => .ok (pool.overflow.findKey? fun entry => entry.duid = duid)

def currentLease (pool : V6Pool) (duid : Duid) : Checked (Option Ipv6Addr) :=
  if pool.isEmpty then .ok none
  else
    match pool.byDuid.get? duid with
    | some ip => do
        match ← pool.lookup ip with
        | some entry => if entry.duid = duid then return some ip else pool.scanLeases duid
        | none => pool.scanLeases duid
    | none => pool.scanLeases duid

/-- The hints without that of an `old` holder who loses `addr` to `duid`. -/
def dropHint (pool : V6Pool) (addr : Ipv6Addr) (duid : Duid) (old : Option Entry) :
    HashMap Duid Ipv6Addr :=
  match old with
  | some entry =>
      if entry.duid ≠ duid ∧ pool.byDuid.get? entry.duid = some addr then
        pool.byDuid.remove entry.duid
      else pool.byDuid
  | none => pool.byDuid

/-- Insert a reservation directly; without an expiry it is permanent. -/
def insert (pool : V6Pool) (addr : Ipv6Addr) (duid : Duid) (expiry : Option Instant) :
    Checked V6Pool :=
  let entry : Entry := ⟨duid, expiry⟩
  match pool.idx addr with
  | some i => do
      let old ← Checked.index pool.slots i
      return { pool with
        slots := pool.slots.set i (some entry)
        filled := if old.isNone then pool.filled + 1 else pool.filled
        byDuid := (pool.dropHint addr duid old).insert duid addr }
  | none =>
      if !pool.useSlots && pool.inRange addr then
        -- In-range entries of a huge hash-only pool.
        .ok { pool with
          overflow := pool.overflow.insert addr entry
          byDuid := (pool.dropHint addr duid (pool.overflow.get? addr)).insert duid addr }
      else
        -- Reservations outside the range.
        .ok { pool with
          overflow := pool.overflow.insert addr entry
          byDuid := (pool.dropHint addr duid (pool.overflow.get? addr)).insert duid addr }

/-- Move the cursor one offset on. -/
def advance (pool : V6Pool) : Checked V6Pool := do
  let advanced ← Checked.add pool.last 1
  let last ← Checked.rem advanced pool.count
  return { pool with last := last }

/-- The address under the cursor, unless it lies past the end. -/
def cursorAddress (pool : V6Pool) : Option Ipv6Addr :=
  (checkedAdd pool.start (pool.last.setWidth 128)).bind fun pos =>
    if pool.rangeEnd.any fun limit => pos.toNat < limit.toNat then some ⟨pos⟩ else none

/-- The round-robin loop of a huge hash-only pool. -/
def scanHashed (duid : Duid) (now : Instant) :
    (rounds : Nat) → V6Pool → Checked (V6Pool × Option Ipv6Addr)
  | 0, pool => .ok (pool, none)
  | rounds + 1, pool => do
      let pool ← pool.advance
      match pool.cursorAddress with
      | some cand =>
          if ← pool.availableAt duid cand now then return (pool, some cand)
          else scanHashed duid now rounds pool
      | none => scanHashed duid now rounds pool

/-- The round-robin loop of a pool with slots. -/
def scanSlots (duid : Duid) (now : Instant) :
    (rounds : Nat) → V6Pool → Checked (V6Pool × Option Ipv6Addr)
  | 0, pool => .ok (pool, none)
  | rounds + 1, pool => do
      let pool ← pool.advance
      match pool.cursorAddress with
      | some cand =>
          if ← pool.slotAvailable pool.last.toNat duid now then return (pool, some cand)
          else scanSlots duid now rounds pool
      | none => scanSlots duid now rounds pool

/-- Offer an address: the current lease, else the first free one. -/
def discover (pool : V6Pool) (duid : Duid) (now : Instant) :
    Checked (V6Pool × Option Ipv6Addr) := do
  match ← pool.currentLease duid with
  | some ip => return (pool, some ip)
  | none =>
      if pool.count = 0 then return (pool, none)
      else if !pool.useSlots then scanHashed duid now pool.count.toNat pool
      else scanSlots duid now pool.count.toNat pool

/-- Commit a lease: the current lease wins unchanged, otherwise insert a timed
lease if the address is free. -/
def request (pool : V6Pool) (duid : Duid) (addr : Ipv6Addr) (now : Instant) :
    Checked (V6Pool × Except String Ipv6Addr) := do
  match ← pool.currentLease duid with
  | some ip => return (pool, .ok ip)
  | none =>
      if ← pool.availableAt duid addr now then
        let expiry ← Instant.add now pool.leaseDuration
        let entry : Entry := ⟨duid, some expiry⟩
        match pool.idx addr with
        | some i => do
            let old ← Checked.index pool.slots i
            return ({ pool with
              slots := pool.slots.set i (some entry)
              filled := if old.isNone then pool.filled + 1 else pool.filled
              byDuid := pool.byDuid.insert duid addr }, .ok addr)
        | none =>
            return ({ pool with
              overflow := pool.overflow.insert addr entry
              byDuid := pool.byDuid.insert duid addr }, .ok addr)
      else
        return (pool, .error "Requested address not available")

/-- Empty the place of `ip`. -/
def clearLease (pool : V6Pool) (ip : Ipv6Addr) : Checked V6Pool :=
  match pool.idx ip with
  | some i => do
      let _ ← Checked.index pool.slots i
      let filled ← Checked.decrement pool.filled
      return { pool with slots := pool.slots.set i none, filled := filled }
  | none => .ok { pool with overflow := pool.overflow.remove ip }

/-- Forget a hint of `duid` that leads to `ip`, or point it at another lease
of theirs. -/
def repairHint (pool : V6Pool) (duid : Duid) (ip : Ipv6Addr) : Checked V6Pool :=
  if pool.byDuid.get? duid = some ip then do
    let forgotten := pool.byDuid.remove duid
    match ← pool.scanLeases duid with
    | some other => return { pool with byDuid := forgotten.insert duid other }
    | none => return { pool with byDuid := forgotten }
  else .ok pool

/-- Drop the caller's current lease, if any. -/
def release (pool : V6Pool) (duid : Duid) : Checked (V6Pool × Bool) := do
  match ← pool.currentLease duid with
  | some ip =>
      let cleared ← pool.clearLease ip
      return (← cleared.repairHint duid ip, true)
  | none => return (pool, false)

end V6Pool

/-! ## Calls of a pool -/

inductive PoolCall where
  | insert (addr : Ipv6Addr) (duid : Duid) (expiry : Option Instant)
  | discover (duid : Duid) (now : Reading)
  | request (duid : Duid) (addr : Ipv6Addr) (now : Reading)
  | release (duid : Duid)
  | currentLease (duid : Duid)
  | available (duid : Duid) (addr : Ipv6Addr) (now : Reading)
  | get (addr : Ipv6Addr)
  | len
  | isEmpty
deriving DecidableEq

/-- If the call commits a lease, the lease runs out at an `Instant`. -/
def PoolCall.Fits (leaseDuration : Duration) : PoolCall → Prop
  | .request _ _ now => Instant.Fits now leaseDuration
  | _ => True

theorem PoolCall.fits {leaseDuration : Duration} (short : leaseDuration ≤ Duration.longest)
    (call : PoolCall) : call.Fits leaseDuration := by
  cases call with
  | request _ _ now => exact now.fits short
  | _ => trivial

inductive PoolAnswer where
  | inserted
  | discovered (found : Option Ipv6Addr)
  | requested (result : Except String Ipv6Addr)
  | released (held : Bool)
  | currentLease (found : Option Ipv6Addr)
  | available (answer : Bool)
  | entry (found : Option V6Pool.Entry)
  | len (count : Nat)
  | isEmpty (answer : Bool)
deriving DecidableEq

def V6Pool.call (pool : V6Pool) : PoolCall → Checked (V6Pool × PoolAnswer)
  | .insert addr duid expiry => do
      return (← pool.insert addr duid expiry, .inserted)
  | .discover duid now => do
      let (pool, found) ← pool.discover duid now
      return (pool, .discovered found)
  | .request duid addr now => do
      let (pool, result) ← pool.request duid addr now
      return (pool, .requested result)
  | .release duid => do
      let (pool, held) ← pool.release duid
      return (pool, .released held)
  | .currentLease duid => do
      return (pool, .currentLease (← pool.currentLease duid))
  | .available duid addr now => do
      return (pool, .available (← pool.availableAt duid addr now))
  | .get addr => do
      return (pool, .entry (← pool.get addr))
  | .len => .ok (pool, .len pool.len)
  | .isEmpty => .ok (pool, .isEmpty pool.isEmpty)

end RustyDhcp.Dhcpv6
