import RustyDhcp.Foundation.Checked
import RustyDhcp.Text

/-! # Configuration -/

namespace RustyDhcp

structure Config where
  serverIp : Ipv4Addr
  ipStart : Ipv4Addr
  leaseNum : U32
  subnetMask : Ipv4Addr
  routerIp : Ipv4Addr
  dnsIps : List Ipv4Addr
  enableNtp : Bool
  ntpIps : List Ipv4Addr
  enableRapidCommit : Bool
  broadcastIp : Ipv4Addr
  extraBroadcastIps : List Ipv4Addr
  leaseDurationSecs : U32
  leasesFile : Text
  listenAddr : SocketAddr
  enableDhcpv6 : Bool
  serverDuid : List UInt8
  ipv6Start : Ipv6Addr
  ipv6LeaseNum : U64
  ipv6Dns : List Ipv6Addr
  ipv6LeaseDurationSecs : U32
  leasesFileV6 : Text
  listenAddrV6 : SocketAddr
deriving DecidableEq

namespace Config

def defaults : Config where
  serverIp := .new 192 168 2 1
  ipStart := .new 192 168 2 2
  leaseNum := 252
  subnetMask := .new 255 255 255 0
  routerIp := .new 192 168 2 1
  dnsIps := [.new 8 8 8 8]
  enableNtp := false
  ntpIps := []
  enableRapidCommit := false
  broadcastIp := .new 192 168 2 255
  extraBroadcastIps := []
  leaseDurationSecs := 86400
  leasesFile := "leases".toList
  listenAddr := .v4 .unspecified 67
  enableDhcpv6 := false
  serverDuid := [0x00, 0x03, 0x00, 0x01, 0x02, 0x00, 0x5e, 0xaa, 0xbb, 0xcc]
  ipv6Start := .new 0xfd00 0 0 0 0 0 0 0x100
  ipv6LeaseNum := 1000
  ipv6Dns := [.new 0x2001 0x4860 0x4860 0 0 0 0 0x8888]
  ipv6LeaseDurationSecs := 86400
  leasesFileV6 := "leases6".toList
  listenAddrV6 := .v6 .unspecified 547

def ipStartNum (config : Config) : U32 := config.ipStart.bits

def ipv6StartNum (config : Config) : U128 := config.ipv6Start.bits

/-- Cross-field validation: the pools must not overflow their address spaces,
and the DUID must have between 1 and 128 bytes. -/
def validate (config : Config) : Except String Config :=
  if config.serverDuid.isEmpty || 128 < config.serverDuid.length then
    .error "server_duid must be 1..=128 bytes"
  -- The sum of two `u32` values cannot overflow the `u64` it is formed in.
  else if 2 ^ 32 < config.ipStartNum.toNat + config.leaseNum.toNat then
    .error "ip_start + lease_num overflows IPv4 space"
  else if checkedAdd config.ipv6StartNum (config.ipv6LeaseNum.setWidth 128) = none then
    .error "ipv6_start + ipv6_lease_num overflows IPv6 space"
  else .ok config

theorem validate_eq_ok_iff {config accepted : Config} :
    config.validate = .ok accepted ↔
      accepted = config ∧ (1 ≤ config.serverDuid.length ∧ config.serverDuid.length ≤ 128) ∧
        config.ipStartNum.toNat + config.leaseNum.toNat ≤ 2 ^ 32 ∧
        config.ipv6StartNum.toNat + config.ipv6LeaseNum.toNat < 2 ^ 128 := by
  have widened : (config.ipv6LeaseNum.setWidth 128).toNat = config.ipv6LeaseNum.toNat :=
    BitVec.toNat_setWidth_of_le (by omega)
  have duid : (config.serverDuid.isEmpty || decide (128 < config.serverDuid.length)) = true ↔
      ¬(1 ≤ config.serverDuid.length ∧ config.serverDuid.length ≤ 128) := by
    cases config.serverDuid with
    | nil => simp
    | cons byte rest =>
        simp only [List.isEmpty_cons, Bool.false_or, decide_eq_true_eq, List.length_cons]
        omega
  rw [validate]
  simp only [duid, checkedAdd_eq_none_iff, widened]
  split
  · rename_i rejected
    simp [rejected]
  · split
    · simp
      omega
    · split
      · simp
        omega
      · simp only [Except.ok.injEq]
        constructor
        · intro equal
          subst equal
          exact ⟨rfl, by omega, by omega, by omega⟩
        · exact fun accepts => accepts.1.symm

end Config

/-! ## DUIDs in hexadecimal -/

def hexVal (byte : UInt8) : Option UInt8 :=
  if '0'.toUInt8 ≤ byte && byte ≤ '9'.toUInt8 then some (byte - '0'.toUInt8)
  else if 'a'.toUInt8 ≤ byte && byte ≤ 'f'.toUInt8 then some (byte - 'a'.toUInt8 + 10)
  else if 'A'.toUInt8 ≤ byte && byte ≤ 'F'.toUInt8 then some (byte - 'A'.toUInt8 + 10)
  else none

inductive DuidError where
  | invalidHex (text : Text) (byte : UInt8)
  | oddLengthHex (text : Text)
deriving DecidableEq

/-- Collect bytes from pairs of digits; `hi` is a digit that waits for its
partner. -/
def readDuidHex (text : Text) : (out : List UInt8) → (hi : Option UInt8) → List UInt8 →
    Except DuidError (List UInt8)
  | out, hi, [] =>
      if hi.isSome || out.isEmpty then .error (.oddLengthHex text) else .ok out
  | out, hi, byte :: rest =>
      if byte = ':'.toUInt8 || byte = '-'.toUInt8 || byte = ' '.toUInt8 ||
          byte = '\t'.toUInt8 then
        readDuidHex text out hi rest
      else
        match hexVal byte with
        | none => .error (.invalidHex text byte)
        | some digit =>
            match hi with
            | some high => readDuidHex text (out ++ [(high <<< 4) ||| digit]) none rest
            | none => readDuidHex text out (some digit) rest

def parseDuidHex (text : Text) : Except DuidError (List UInt8) :=
  readDuidHex text [] none (asBytes text)

example : parseDuidHex "00:03-0a fF".toList = .ok [0x00, 0x03, 0x0a, 0xff] := rfl

end RustyDhcp
