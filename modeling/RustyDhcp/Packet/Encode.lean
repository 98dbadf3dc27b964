import RustyDhcp.Foundation.Buffer
import RustyDhcp.Packet.Decode

/-! # Writing DHCPv4 packets

A packet is written into a buffer of the caller: the header, the cookie, the
options as long as they fit, END, and zeros up to `wireMax`. -/

namespace RustyDhcp

open Checked

/-- `WIRE_MAX`, the greatest size of an encoded packet. -/
def wireMax : Nat := 300

/-- The byte that fills up the buffer, `PAD`. -/
def padByte : UInt8 := 0

namespace DhcpOption

def dataLen : DhcpOption → Nat
  | .dhcpMessageType _ => 1
  | .serverIdentifier _ | .requestedIpAddress _ | .subnetMask _ => 4
  | .parameterRequestList codes => codes.length
  | .hostName text | .message text => (asBytes text).length
  | .router addrs | .domainNameServer addrs => addrs.length * 4
  | .ipAddressLeaseTime _ => 4
  | .unrecognized raw => raw.data.length

/-- Write addresses from the given position on. -/
def writeAddrs : List Ipv4Addr → (position : Nat) → (out : List UInt8) →
    Checked (Nat × List UInt8)
  | [], position, out => .ok (position, out)
  | addr :: addrs, position, out => do
      let out ← copyInto out position (position + 4) addr.octets
      writeAddrs addrs (position + 4) out

/-- The number of bytes written, and what `out` is then. -/
def writeData (option : DhcpOption) (out : List UInt8) : Checked (Nat × List UInt8) :=
  match option with
  | .dhcpMessageType messageType => do
      let out ← put out 0 messageType.number
      return (1, out)
  | .serverIdentifier addr | .requestedIpAddress addr | .subnetMask addr => do
      let out ← copyInto out 0 4 addr.octets
      return (4, out)
  | .parameterRequestList codes => do
      let out ← copyInto out 0 codes.length codes
      return (codes.length, out)
  | .hostName text | .message text => do
      let out ← copyInto out 0 (asBytes text).length (asBytes text)
      return ((asBytes text).length, out)
  | .router addrs | .domainNameServer addrs => writeAddrs addrs 0 out
  | .ipAddressLeaseTime secs => do
      let out ← copyInto out 0 4 (toBeBytes secs)
      return (4, out)
  | .unrecognized raw => do
      let out ← copyInto out 0 raw.data.length raw.data
      return (raw.data.length, out)

def toRaw : DhcpOption → RawDhcpOption
  | .dhcpMessageType messageType => ⟨Options.dhcpMessageType, [messageType.number]⟩
  | .serverIdentifier addr => ⟨Options.serverIdentifier, addr.octets⟩
  | .parameterRequestList codes => ⟨Options.parameterRequestList, codes⟩
  | .requestedIpAddress addr => ⟨Options.requestedIpAddress, addr.octets⟩
  | .hostName name => ⟨Options.hostName, asBytes name⟩
  | .router addrs =>
      ⟨Options.router, addrs.foldl (fun data addr => data ++ addr.octets) []⟩
  | .domainNameServer addrs =>
      ⟨Options.domainNameServer, addrs.foldl (fun data addr => data ++ addr.octets) []⟩
  | .ipAddressLeaseTime secs => ⟨Options.ipAddressLeaseTime, toBeBytes secs⟩
  | .subnetMask mask => ⟨Options.subnetMask, mask.octets⟩
  | .message text => ⟨Options.message, asBytes text⟩
  | .unrecognized raw => raw

end DhcpOption

/-- Write options from the given length on, up to the first that does not fit.
What the buffer has no room for is not written. -/
def encodeOptions : List DhcpOption → (p : List UInt8) → (length : Nat) →
    Checked (List UInt8 × Nat)
  | [], p, length => .ok (p, length)
  | option :: options, p, length =>
      let optionLen := option.dataLen
      if wireMax ≤ length + 2 + optionLen then .ok (p, length)
      else do
        let p ← updateRange p length (length + 2 + optionLen) fun dest => do
          let dest ← put dest 0 option.code
          let dest ← put dest 1 (.ofNat optionLen)
          updateFrom dest 2 fun out => do
            let (_, out) ← option.writeData out
            return out
        encodeOptions options p (length + 2 + optionLen)

/-- Write the header and the cookie. -/
def Packet.encodeHeader (packet : Packet) (p : List UInt8) : Checked (List UInt8) := do
  let broadcastFlag : UInt8 := if packet.broadcast then 128 else 0
  let p ← copyInto p 0 12 [if packet.reply then bootReply else bootRequest, 1, 6, packet.hops,
    lowByte ((packet.xid >>> 24) &&& 0xFF), lowByte ((packet.xid >>> 16) &&& 0xFF),
    lowByte ((packet.xid >>> 8) &&& 0xFF), lowByte (packet.xid &&& 0xFF),
    lowByte (packet.secs >>> 8), lowByte (packet.secs &&& 255), broadcastFlag, 0]
  let p ← copyInto p 12 16 packet.ciaddr.octets
  let p ← copyInto p 16 20 packet.yiaddr.octets
  let p ← copyInto p 20 24 packet.siaddr.octets
  let p ← copyInto p 24 28 packet.giaddr.octets
  let p ← copyInto p 28 34 packet.chaddr.toList
  let p ← copyInto p 34 236 (List.replicate (236 - 34) 0)
  copyInto p 236 240 cookie

/-- The encoded packet, which is the beginning of the buffer, and the buffer. -/
def Packet.encode (packet : Packet) (p : List UInt8) : Checked (List UInt8 × List UInt8) := do
  let p ← packet.encodeHeader p
  let (p, length) ← encodeOptions packet.options p 240
  let p ← updateRange p length (length + 1) fun endSegment => put endSegment 0 endByte
  let length := length + 1
  let p ← updateRange p length wireMax fun padSegment =>
    .ok (List.replicate padSegment.length padByte)
  return (← slice p 0 length, p)

end RustyDhcp
