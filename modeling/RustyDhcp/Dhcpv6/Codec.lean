import Mathlib.Data.List.ReduceOption
import RustyDhcp.Dhcpv6.Packet
import RustyDhcp.Foundation.Buffer
import RustyDhcp.Foundation.Tlv
import RustyDhcp.Utf8

/-! # DHCPv6 packets on the wire

A message type, three bytes of transaction id and the options up to the end of
the datagram. An option is its code, the length of its data and the data. -/

namespace RustyDhcp

def Ipv6Addr.octets (addr : Ipv6Addr) : List UInt8 := toBeBytes addr.bits

def Ipv6Addr.ofOctets (octets : List UInt8) : Ipv6Addr := ⟨ofBeBytes 128 octets⟩

namespace Dhcpv6

inductive DecodeError where
  | truncated
  | badMessageType (value : UInt8)
  | badUtf8
  | malformed
deriving DecidableEq, Repr

inductive EncodeError where
  | optionTooLarge
deriving DecidableEq, Repr

def optIaaddr : U16 := 5

def MsgType.number : MsgType → UInt8
  | .solicit => 1
  | .advertise => 2
  | .request => 3
  | .confirm => 4
  | .renew => 5
  | .rebind => 6
  | .reply => 7
  | .release => 8
  | .decline => 9
  | .reconfigure => 10
  | .informationRequest => 11
  | .relayForward => 12
  | .relayReply => 13

/-- `MsgType::from` -/
def MsgType.fromByte (value : UInt8) : Fallible DecodeError MsgType :=
  match value with
  | 1 => .ok .solicit
  | 2 => .ok .advertise
  | 3 => .ok .request
  | 4 => .ok .confirm
  | 5 => .ok .renew
  | 6 => .ok .rebind
  | 7 => .ok .reply
  | 8 => .ok .release
  | 9 => .ok .decline
  | 10 => .ok .reconfigure
  | 11 => .ok .informationRequest
  | 12 => .ok .relayForward
  | 13 => .ok .relayReply
  | _ => .refuse (.badMessageType value)

/-! ## Writing -/

/-- The sub-option that announces an address. -/
def IaAddr.subOption (ia : IaAddr) : List UInt8 :=
  toBeBytes optIaaddr ++ toBeBytes (24 : U16) ++ ia.addr.octets ++ toBeBytes ia.preferred ++
    toBeBytes ia.valid

/-- The same bytes, written piece by piece over 28 zeros. -/
def IaAddr.writeSub (ia : IaAddr) : Checked (List UInt8) := do
  let sub ← Checked.copyInto (List.replicate 28 0) 0 2 (toBeBytes optIaaddr)
  let sub ← Checked.copyInto sub 2 4 (toBeBytes (24 : U16))
  let sub ← Checked.copyInto sub 4 20 ia.addr.octets
  let sub ← Checked.copyInto sub 20 24 (toBeBytes ia.preferred)
  Checked.copyInto sub 24 28 (toBeBytes ia.valid)

def writeSubs : List IaAddr → (out : List UInt8) → Checked (List UInt8)
  | [], out => .ok out
  | ia :: addrs, out => do
      let sub ← ia.writeSub
      writeSubs addrs (out ++ sub)

namespace Dhcpv6Option

def wireLen (option : Dhcpv6Option) : Nat :=
  4 + match option with
    | .clientId duid | .serverId duid => duid.length
    | .unrecognized raw => raw.data.length
    | .dnsServers addrs => addrs.length * 16
    | .statusCode _ message => 2 + (asBytes message).length
    | .iaNa ia => 12 + ia.addrs.length * 28

/-- The end of `encode_into`, which writes the data behind code and length. -/
def writeData (option : Dhcpv6Option) (out : List UInt8) : Checked (List UInt8) :=
  match option with
  | .clientId duid | .serverId duid => .ok (out ++ duid)
  | .unrecognized raw => .ok (out ++ raw.data)
  | .dnsServers addrs => .ok (addrs.foldl (fun out addr => out ++ addr.octets) out)
  | .statusCode code message => .ok (out ++ toBeBytes code ++ asBytes message)
  | .iaNa ia => writeSubs ia.addrs (out ++ toBeBytes ia.iaid ++ toBeBytes ia.t1 ++ toBeBytes ia.t2)

/-- The outcome, and what has been written by then. -/
def encodeInto (option : Dhcpv6Option) (out : List UInt8) :
    Checked (Except EncodeError Unit × List UInt8) :=
  let payload := option.wireLen - 4
  if 0xFFFF < payload then .ok (.error .optionTooLarge, out)
  else do
    let out := out ++ toBeBytes option.code
    let out := out ++ toBeBytes (BitVec.ofNat 16 payload)
    return (.ok (), ← option.writeData out)

def toRaw : Dhcpv6Option → RawDhcpv6Option
  | .clientId duid => ⟨optClientid, duid⟩
  | .serverId duid => ⟨optServerid, duid⟩
  | .iaNa ia =>
      let data := toBeBytes ia.iaid ++ toBeBytes ia.t1 ++ toBeBytes ia.t2
      ⟨optIaNa, ia.addrs.foldl (fun data addr => data ++ addr.subOption) data⟩
  | .dnsServers addrs => ⟨optDnsServers, addrs.foldl (fun data addr => data ++ addr.octets) []⟩
  | .statusCode code message => ⟨optStatusCode, toBeBytes code ++ asBytes message⟩
  | .unrecognized raw => raw

end Dhcpv6Option

/-- The message type and the low 24 bits of the transaction id. -/
def Packet.header (packet : Packet) : List UInt8 :=
  let tid := packet.transactionId &&& 0xFFFFFF
  [packet.msgType.number, lowByte ((tid >>> 16) &&& 0xFF), lowByte ((tid >>> 8) &&& 0xFF),
    lowByte (tid &&& 0xFF)]

open Fallible

def encodeOptions : List Dhcpv6Option → (out : List UInt8) → Fallible EncodeError (List UInt8)
  | [], out => .ok out
  | option :: options, out => do
      match ← option.encodeInto out with
      | (.ok (), out) => encodeOptions options out
      | (.error error, _) => refuse error

def Packet.encode (packet : Packet) : Fallible EncodeError (List UInt8) :=
  encodeOptions packet.options packet.header

/-! ## Reading -/

/-- The code and the data of the first option or sub-option and what follows it.
They differ in the error when it is not complete. -/
def splitOption (short : DecodeError) (input : List UInt8) :
    Fallible DecodeError ((U16 × List UInt8) × List UInt8) := do
  if input.length < 4 then refuse short
  let code ← Checked.readBe 16 input 0
  let len := (← Checked.readBe 16 input 2).toNat
  if (← Checked.sub input.length 4) < len then refuse short
  let data ← Checked.slice input 4 (4 + len)
  let rest ← Checked.slice input (4 + len) input.length
  return ((code, data), rest)

/-- The address that a sub-option announces; what follows its first 24 bytes is
ignored, and so is every other sub-option. -/
def decodeSubOption (code : U16) (body : List UInt8) : Fallible DecodeError (Option IaAddr) := do
  if code = optIaaddr then
    if body.length < 24 then refuse .malformed
    let octets ← Checked.slice body 0 16
    let preferred ← Checked.readBe 32 body 16
    let valid ← Checked.readBe 32 body 20
    return some { addr := .ofOctets octets, preferred, valid }
  else return none

def decodeIana (data : List UInt8) : Fallible DecodeError IaNa := do
  if data.length < 12 then refuse .malformed
  let iaid ← Checked.readBe 32 data 0
  let t1 ← Checked.readBe 32 data 4
  let t2 ← Checked.readBe 32 data 8
  let rest ← Checked.slice data 12 data.length
  let item := fun rest => do
    let ((code, body), rest) ← splitOption .malformed rest
    return (rest, ← decodeSubOption code body)
  let addrs ← many item rest.length rest
  return { iaid, t1, t2, addrs := addrs.reduceOption }

/-- The option with the given code and data. -/
def decodeData (code : U16) (data : List UInt8) : Fallible DecodeError Dhcpv6Option := do
  if code = optClientid then return .clientId data
  else if code = optServerid then return .serverId data
  else if code = optIaNa then return .iaNa (← decodeIana data)
  else if code = optDnsServers then
    if data.length % 16 ≠ 0 then refuse .malformed
    return .dnsServers ((chunksExact 16 data).map Ipv6Addr.ofOctets)
  else if code = optStatusCode then
    if data.length < 2 then refuse .malformed
    let code ← Checked.readBe 16 data 0
    match fromUtf8 (← Checked.slice data 2 data.length) with
    | some message => return .statusCode code message
    | none => refuse .badUtf8
  else return .unrecognized { code, data }

def decodeOption (input : List UInt8) : Fallible DecodeError (List UInt8 × Dhcpv6Option) := do
  let ((code, data), rest) ← splitOption .truncated input
  return (rest, ← decodeData code data)

/-- The three bytes of a transaction id, most significant first. -/
def transactionIdOf (high middle low : UInt8) : U32 :=
  (high.toBitVec.setWidth 32 <<< 16) ||| (middle.toBitVec.setWidth 32 <<< 8) |||
    low.toBitVec.setWidth 32

/-- `Packet::from` -/
def Packet.fromBytes (input : List UInt8) : Fallible DecodeError Packet := do
  if input.length < 4 then refuse .truncated
  let msgType ← MsgType.fromByte (← Checked.index input 0)
  let transactionId := transactionIdOf (← Checked.index input 1) (← Checked.index input 2)
    (← Checked.index input 3)
  let rest ← Checked.slice input 4 input.length
  let options ← many decodeOption rest.length rest
  return { msgType, transactionId, options }

end Dhcpv6

end RustyDhcp
