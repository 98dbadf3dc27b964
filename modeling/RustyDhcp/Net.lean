import RustyDhcp.Foundation.Checked

/-! # Addresses and times

The address types of the Rust standard library. An address is the unsigned
number that its conversion to an integer gives. -/

namespace RustyDhcp

abbrev U16 := BitVec 16
abbrev U32 := BitVec 32
abbrev U64 := BitVec 64
abbrev U128 := BitVec 128

/-- A hardware address, `[u8; 6]`. -/
abbrev Mac := Vector UInt8 6

structure Ipv4Addr where
  bits : U32
deriving DecidableEq, Repr

structure Ipv6Addr where
  bits : U128
deriving DecidableEq, Repr

def Ipv4Addr.new (a b c d : UInt8) : Ipv4Addr :=
  ⟨a.toBitVec ++ b.toBitVec ++ c.toBitVec ++ d.toBitVec⟩

def Ipv4Addr.octets (addr : Ipv4Addr) : List UInt8 :=
  [24, 16, 8, 0].map fun shift => .ofBitVec (addr.bits.extractLsb' shift 8)

def Ipv6Addr.new (a b c d e f g h : U16) : Ipv6Addr :=
  ⟨a ++ b ++ c ++ d ++ e ++ f ++ g ++ h⟩

def Ipv4Addr.unspecified : Ipv4Addr := ⟨0⟩

def Ipv6Addr.unspecified : Ipv6Addr := ⟨0⟩

/-- The flow information of an IPv6 socket address is always zero here. -/
inductive SocketAddr where
  | v4 (ip : Ipv4Addr) (port : U16)
  | v6 (ip : Ipv6Addr) (port : U16) (scopeId : U32 := 0)
deriving DecidableEq, Repr

namespace SocketAddr

def port : SocketAddr → U16
  | .v4 _ port | .v6 _ port _ => port

/-- `ip().is_unspecified()` -/
def isUnspecified : SocketAddr → Bool
  | .v4 ip _ => ip = .unspecified
  | .v6 ip _ _ => ip = .unspecified

/-- `set_ip` with an IPv4 address. -/
def setIp (addr : SocketAddr) (ip : Ipv4Addr) : SocketAddr := .v4 ip addr.port

end SocketAddr

/-- A point in time, in nanoseconds from the start of the monotonic clock. -/
abbrev Instant := Nat

/-- What the clock shows. It counts nanoseconds in an `i64`. -/
abbrev Reading := Fin (2 ^ 63)

instance Reading.ofNat (number : Nat) : OfNat Reading number where
  ofNat := ⟨number % 2 ^ 63, Nat.mod_lt number (Nat.two_pow_pos 63)⟩

/-- A length of time, in nanoseconds. -/
abbrev Duration := Nat

def Duration.ofSecs (secs : U32) : Duration := secs.toNat * 1000000000

/-- The longest time that a configuration can give. -/
def Duration.longest : Duration := .ofSecs 0xFFFFFFFF

namespace Instant

variable {now : Instant} {duration : Duration}

/-- Behind the last `Instant`, whose seconds are an `i64`. -/
def limit : Nat := 2 ^ 63 * 1000000000

/-- There is an `Instant` that much later. -/
def Fits (now : Instant) (duration : Duration) : Prop := now + duration < limit

instance (now : Instant) (duration : Duration) : Decidable (Fits now duration) :=
  inferInstanceAs (Decidable (_ < _))

/-- `now + duration`, which expects a result. -/
def add (now : Instant) (duration : Duration) : Checked Instant :=
  if Fits now duration then .ok (now + duration) else .error .unwrapFailed

theorem add_eq_ok (fits : Fits now duration) : add now duration = .ok (now + duration) :=
  if_pos fits

theorem add_eq_error (late : ¬Fits now duration) : add now duration = .error .unwrapFailed :=
  if_neg late

end Instant

theorem Duration.ofSecs_le_longest (secs : U32) : ofSecs secs ≤ longest := by
  have bound := secs.isLt
  rw [longest, ofSecs, ofSecs]
  apply Nat.mul_le_mul_right
  change secs.toNat ≤ 0xFFFFFFFF
  omega

/-- Every time that can be configured may begin whenever the clock is read. -/
theorem Reading.fits {duration : Duration} (now : Reading) (short : duration ≤ Duration.longest) :
    Instant.Fits now duration :=
  calc now + duration
      ≤ 2 ^ 63 + Duration.longest := Nat.add_le_add (Nat.le_of_lt now.isLt) short
    _ < Instant.limit := by decide

end RustyDhcp
