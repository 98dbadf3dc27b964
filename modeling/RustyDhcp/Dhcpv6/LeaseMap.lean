import RustyDhcp.Foundation.RoundRobin
import RustyDhcp.Dhcpv6.Pool

/-! # The DHCPv6 pool as a plain map

What a pool is for: one finite map from addresses to leases and a cursor. There
are no slots, no counter and no hints. -/

namespace RustyDhcp.Dhcpv6

structure LeaseMap where
  start : Nat
  count : Nat
  leaseDuration : Duration
  leases : HashMap Ipv6Addr V6Pool.Entry
  cursor : Nat

namespace LeaseMap

def new (hasher : Hasher Ipv6Addr V6Pool.Entry) (start : Ipv6Addr) (count : U64)
    (leaseDuration : Duration) : LeaseMap where
  start := start.bits.toNat
  count := count.toNat
  leaseDuration := leaseDuration
  leases := HashMap.new hasher
  cursor := 0

/-- The addresses of the pool; there is none if its end overflows. -/
def inRange (spec : LeaseMap) (addr : Ipv6Addr) : Bool :=
  spec.start + spec.count < 2 ^ 128 && spec.start ≤ addr.bits.toNat &&
    addr.bits.toNat < spec.start + spec.count

def address (spec : LeaseMap) (offset : Nat) : Ipv6Addr :=
  ⟨.ofNat 128 (spec.start + offset)⟩

def available (spec : LeaseMap) (duid : Duid) (addr : Ipv6Addr) (now : Instant) : Bool :=
  spec.inRange addr &&
    match spec.leases.get? addr with
    | some entry => entry.duid = duid || entry.expiry.any fun expiry => expiry < now
    | none => true

def currentLease (spec : LeaseMap) (duid : Duid) : Option Ipv6Addr :=
  spec.leases.findKey? fun entry => entry.duid = duid

def insert (spec : LeaseMap) (addr : Ipv6Addr) (duid : Duid) (expiry : Option Instant) :
    LeaseMap :=
  { spec with leases := spec.leases.insert addr ⟨duid, expiry⟩ }

def discover (spec : LeaseMap) (duid : Duid) (now : Instant) : LeaseMap × Option Ipv6Addr :=
  match spec.currentLease duid with
  | some addr => (spec, some addr)
  | none =>
      let (cursor, found) := RoundRobin.scan spec.count
        (fun offset => spec.available duid (spec.address offset) now) spec.count spec.cursor
      ({ spec with cursor := cursor }, found.map spec.address)

def request (spec : LeaseMap) (duid : Duid) (addr : Ipv6Addr) (now : Instant) :
    LeaseMap × Except String Ipv6Addr :=
  match spec.currentLease duid with
  | some held => (spec, .ok held)
  | none =>
      if spec.available duid addr now then
        (spec.insert addr duid (some (now + spec.leaseDuration)), .ok addr)
      else (spec, .error "Requested address not available")

def release (spec : LeaseMap) (duid : Duid) : LeaseMap × Bool :=
  match spec.currentLease duid with
  | some addr => ({ spec with leases := spec.leases.remove addr }, true)
  | none => (spec, false)

def call (spec : LeaseMap) : PoolCall → LeaseMap × PoolAnswer
  | .insert addr duid expiry => (spec.insert addr duid expiry, .inserted)
  | .discover duid now =>
      let (spec, found) := spec.discover duid now
      (spec, .discovered found)
  | .request duid addr now =>
      let (spec, result) := spec.request duid addr now
      (spec, .requested result)
  | .release duid =>
      let (spec, held) := spec.release duid
      (spec, .released held)
  | .currentLease duid => (spec, .currentLease (spec.currentLease duid))
  | .available duid addr now => (spec, .available (spec.available duid addr now))
  | .get addr => (spec, .entry (spec.leases.get? addr))
  | .len => (spec, .len spec.leases.size)
  | .isEmpty => (spec, .isEmpty spec.leases.isEmpty)

theorem leaseDuration_call (spec : LeaseMap) (call : PoolCall) :
    (spec.call call).1.leaseDuration = spec.leaseDuration := by
  cases call with
  | discover duid now =>
      change (spec.discover duid now).1.leaseDuration = spec.leaseDuration
      rw [discover]
      split <;> rfl
  | request duid addr now =>
      change (spec.request duid addr now).1.leaseDuration = spec.leaseDuration
      rw [request]
      split
      · rfl
      · split <;> rfl
  | release duid =>
      change (spec.release duid).1.leaseDuration = spec.leaseDuration
      rw [release]
      split <;> rfl
  | _ => rfl

/-- What can be seen of a run: each answer, and the cursor behind it. -/
def observe : LeaseMap → List PoolCall → List (PoolAnswer × Nat)
  | _, [] => []
  | spec, call :: calls =>
      let (next, answer) := spec.call call
      (answer, next.cursor) :: observe next calls

/-- The call gives no client a second address. -/
def OneAddress (spec : LeaseMap) : PoolCall → Prop
  | .insert addr duid _ => ∀ other entry, spec.leases.get? other = some entry →
      entry.duid = duid → other = addr
  | _ => True

/-- No insert of a run gives a client a second address. -/
def OneAddressEach : LeaseMap → List PoolCall → Prop
  | _, [] => True
  | spec, call :: calls => spec.OneAddress call ∧ OneAddressEach (spec.call call).1 calls

instance (spec : LeaseMap) (call : PoolCall) : Decidable (spec.OneAddress call) :=
  match call with
  | .insert addr duid _ =>
      decidable_of_iff (∀ lease ∈ spec.leases.entries, lease.2.duid = duid → lease.1 = addr) <| by
        simp only [OneAddress, HashMap.get?_eq_some_iff, Prod.forall]
  | .discover .. | .request .. | .release .. | .currentLease .. | .available .. | .get .. | .len
  | .isEmpty => .isTrue trivial

instance decideOneAddressEach (spec : LeaseMap) :
    (calls : List PoolCall) → Decidable (spec.OneAddressEach calls)
  | [] => .isTrue trivial
  | call :: calls =>
      have := decideOneAddressEach (spec.call call).1 calls
      inferInstanceAs (Decidable (_ ∧ _))

end LeaseMap

/-- What can be seen of a run of the pool. -/
def V6Pool.observe : V6Pool → List PoolCall → Checked (List (PoolAnswer × Nat))
  | _, [] => .ok []
  | pool, call :: calls => do
      let (next, answer) ← pool.call call
      let rest ← observe next calls
      return (answer, next.last.toNat) :: rest

end RustyDhcp.Dhcpv6
