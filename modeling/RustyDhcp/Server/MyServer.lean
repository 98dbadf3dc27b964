import RustyDhcp.Foundation.Checked
import RustyDhcp.Foundation.SlotHints
import RustyDhcp.Packet

/-! # The DHCPv4 lease store

In-range leases live in a slot array indexed by the distance from the start of
the pool; reservations outside the range, and every lease of a pool too large
for slots, live in the overflow map. `byMac` is an O(1) hint with a scan to
fall back on. -/

namespace RustyDhcp

namespace MyServer

/-- A lease: its holder, when it runs out if it ever does, and the host name
that the holder announced. -/
structure Entry where
  mac : Mac
  expiry : Option Instant
  hostname : Option Text
deriving DecidableEq

end MyServer

structure MyServer where
  useSlots : Bool
  slots : List (Option MyServer.Entry)
  filled : Nat
  overflow : HashMap Ipv4Addr MyServer.Entry
  byMac : HashMap Mac Ipv4Addr
  lastLease : U32
  -- A `u32` of seconds, so that `now + lease_duration` always is an `Instant`.
  leaseDuration : Duration
  ipStartNum : U32
  leaseNum : U32
  enableRapidCommit : Bool
  cachedOffer : List DhcpOption

namespace MyServer

def inPool (store : MyServer) (addr : Ipv4Addr) : Bool :=
  (checkedSub addr.bits store.ipStartNum).any fun offset =>
    offset.toNat < store.leaseNum.toNat

def idx (store : MyServer) (addr : Ipv4Addr) : Option Nat :=
  if !store.useSlots then none
  else do
    let offset ← checkedSub addr.bits store.ipStartNum
    if offset.toNat < store.leaseNum.toNat then some offset.toNat else none

def lookup (store : MyServer) (addr : Ipv4Addr) : Checked (Option Entry) :=
  match store.idx addr with
  | some i => Checked.index store.slots i
  | none => .ok (store.overflow.get? addr)

def isEmpty (store : MyServer) : Bool :=
  store.filled = 0 && store.overflow.isEmpty

/-- Whether a place can be given to `chaddr`. An entry without an expiry is
nobody's obstacle. -/
def Entry.takeable (slot : Option Entry) (chaddr : Mac) (now : Instant) : Bool :=
  match slot with
  | some entry => entry.mac = chaddr || entry.expiry.all fun expiry => expiry < now
  | none => true

def availableAt (store : MyServer) (chaddr : Mac) (addr : Ipv4Addr) (now : Instant) :
    Checked Bool :=
  match store.idx addr with
  | some i => do
      let slot ← Checked.index store.slots i
      return Entry.takeable slot chaddr now
  | none =>
      if !store.useSlots && store.inPool addr then
        .ok (Entry.takeable (store.overflow.get? addr) chaddr now)
      else .ok false

/-- The address of the first slot, else of the first overflow entry, whose
entry belongs to `chaddr`. -/
def scanLeases (store : MyServer) (chaddr : Mac) : Checked (Option Ipv4Addr) :=
  let held := fun slot : Option Entry => slot.any fun entry => entry.mac = chaddr
  match if store.useSlots then store.slots.findIdx? held else none with
  | some i => do
      let bits ← Checked.add store.ipStartNum (.ofNat 32 i)
      return some ⟨bits⟩
  | none => .ok (store.overflow.findKey? fun entry => entry.mac = chaddr)

def currentLease (store : MyServer) (chaddr : Mac) : Checked (Option Ipv4Addr) :=
  if store.isEmpty then .ok none
  else
    match store.byMac.get? chaddr with
    | some ip => do
        match ← store.lookup ip with
        | some entry => if entry.mac = chaddr then return some ip else store.scanLeases chaddr
        | none => store.scanLeases chaddr
    | none => store.scanLeases chaddr

/-- The hints without that of an `old` holder who loses `ip` to `mac`. -/
def dropHint (store : MyServer) (ip : Ipv4Addr) (mac : Mac) (old : Option Entry) :
    HashMap Mac Ipv4Addr :=
  match old with
  | some entry =>
      if entry.mac ≠ mac ∧ store.byMac.get? entry.mac = some ip then
        store.byMac.remove entry.mac
      else store.byMac
  | none => store.byMac

/-- Insert a lease, or take one over. -/
def insertLease (store : MyServer) (ip : Ipv4Addr) (mac : Mac) (expiry : Option Instant)
    (hostname : Option Text) : Checked MyServer :=
  let entry : Entry := ⟨mac, expiry, hostname⟩
  match store.idx ip with
  | some i => do
      let old ← Checked.index store.slots i
      return { store with
        slots := store.slots.set i (some entry)
        filled := if old.isNone then store.filled + 1 else store.filled
        byMac := (store.dropHint ip mac old).insert mac ip }
  | none =>
      .ok { store with
        overflow := store.overflow.insert ip entry
        byMac := (store.dropHint ip mac (store.overflow.get? ip)).insert mac ip }

/-- Empty the place of `ip`. -/
def clearLease (store : MyServer) (ip : Ipv4Addr) : Checked MyServer :=
  match store.idx ip with
  | some i => do
      let _ ← Checked.index store.slots i
      let filled ← Checked.decrement store.filled
      return { store with slots := store.slots.set i none, filled := filled }
  | none => .ok { store with overflow := store.overflow.remove ip }

/-- Forget a hint of `chaddr` that leads to `ip`, or point it at another lease
of theirs. -/
def repairHint (store : MyServer) (chaddr : Mac) (ip : Ipv4Addr) : Checked MyServer :=
  if store.byMac.get? chaddr = some ip then do
    let forgotten := store.byMac.remove chaddr
    match ← store.scanLeases chaddr with
    | some other => return { store with byMac := forgotten.insert chaddr other }
    | none => return { store with byMac := forgotten }
  else .ok store

def removeLease (store : MyServer) (chaddr : Mac) : Checked MyServer := do
  match ← store.currentLease chaddr with
  | some ip => do
      let cleared ← store.clearLease ip
      cleared.repairHint chaddr ip
  | none => return store

def Entry.rename (name : Text) (entry : Entry) : Entry :=
  { entry with hostname := some name }

/-- Refresh the stored host name when the client announces one. A packet
without one leaves the stored name untouched. -/
def rememberHostname (store : MyServer) (ip : Ipv4Addr) (hostname : Option Text) :
    Checked MyServer :=
  match store.idx ip with
  | some i => do
      let _ ← Checked.index store.slots i
      return match hostname with
        | some name =>
            { store with slots := store.slots.modify i (Option.map (Entry.rename name)) }
        | none => store
  | none =>
      .ok <| match hostname with
        | some name =>
            { store with overflow := store.overflow.modify ip (Entry.rename name) }
        | none => store

/-- The round-robin loop of a Discover: advance the cursor until the address
under it is available to `chaddr`. -/
def scanFree (chaddr : Mac) (now : Instant) :
    (rounds : Nat) → MyServer → Checked (MyServer × Option Ipv4Addr)
  | 0, store => .ok (store, none)
  | rounds + 1, store => do
      let advanced ← Checked.add store.lastLease 1
      let lastLease ← Checked.rem advanced store.leaseNum
      let store := { store with lastLease := lastLease }
      let bits ← Checked.add store.ipStartNum lastLease
      if ← store.availableAt chaddr ⟨bits⟩ now then
        return (store, some ⟨bits⟩)
      else
        scanFree chaddr now rounds store

end MyServer

end RustyDhcp
