import RustyDhcp.Foundation.Tlv
import RustyDhcp.Packet
import RustyDhcp.Utf8

/-! # Reading DHCPv4 packets

A header of 236 bytes, the magic cookie and the options up to an END byte. An
option is its code, the length of its data and the data. -/

namespace RustyDhcp

inductive ErrorKind where
  | tag
  | mapRes
  | manyTill
  | eof
  | custom (code : U32)
deriving DecidableEq, Repr

inductive CustomErr where
  | nomError (input : List UInt8) (kind : ErrorKind)
  | nonUtf8String
  | unrecognizedMessageType
  | invalidHlen
deriving DecidableEq, Repr

/-- The magic cookie. -/
def cookie : List UInt8 := [99, 130, 83, 99]

def bootRequest : UInt8 := 1
def bootReply : UInt8 := 2

/-- The byte that ends the options, `END`. -/
def endByte : UInt8 := 255

/-- The value of the Rust enum. -/
def MessageType.number : MessageType → UInt8
  | .discover => 1
  | .offer => 2
  | .request => 3
  | .decline => 4
  | .ack => 5
  | .nak => 6
  | .release => 7
  | .inform => 8

def MessageType.fromOption (val : UInt8) : Option MessageType :=
  match val with
  | 1 => some .discover
  | 2 => some .offer
  | 3 => some .request
  | 4 => some .decline
  | 5 => some .ack
  | 6 => some .nak
  | 7 => some .release
  | 8 => some .inform
  | _ => none

open Fallible

/-- `Ipv4Addr::new` of the four bytes from an index on. -/
def readIpv4 (bytes : List UInt8) (start : Nat) : Checked Ipv4Addr := do
  return .new (← Checked.index bytes start) (← Checked.index bytes (start + 1))
    (← Checked.index bytes (start + 2)) (← Checked.index bytes (start + 3))

def ipv4Of (data : List UInt8) : Fallible CustomErr Ipv4Addr := do
  if data.length < 4 then refuse .invalidHlen
  readIpv4 data 0

/-- The option with the given code and data. Bytes behind a message type, an
address or a lease time are ignored; a router or a name server is always
refused. -/
def decodeData (code : UInt8) (data : List UInt8) : Fallible CustomErr DhcpOption := do
  if code = Options.dhcpMessageType then
    if data.isEmpty then refuse .invalidHlen
    match MessageType.fromOption (← Checked.index data 0) with
    | some messageType => return .dhcpMessageType messageType
    | none => refuse .unrecognizedMessageType
  else if code = Options.parameterRequestList then return .parameterRequestList data
  else if code = Options.serverIdentifier then return .serverIdentifier (← ipv4Of data)
  else if code = Options.requestedIpAddress then return .requestedIpAddress (← ipv4Of data)
  else if code = Options.hostName then
    match fromUtf8 data with
    | some name => return .hostName name
    | none => refuse .nonUtf8String
  else if code = Options.router ∨ code = Options.domainNameServer then refuse .invalidHlen
  else if code = Options.ipAddressLeaseTime then
    if data.length < 4 then refuse .invalidHlen
    return .ipAddressLeaseTime (← Checked.readBe 32 data 0)
  else if code = Options.subnetMask then return .subnetMask (← ipv4Of data)
  else if code = Options.message then
    match fromUtf8 data with
    | some text => return .message text
    | none => refuse .nonUtf8String
  else return .unrecognized { code, data }

def decodeOption (input : List UInt8) : Fallible CustomErr (List UInt8 × DhcpOption) := do
  if input.isEmpty then refuse .invalidHlen
  let code ← Checked.index input 0
  Checked.assert (code ≠ endByte)
  match input[1]? with
  | none => refuse .invalidHlen
  | some len =>
      let len := len.toNat
      if (← Checked.sub input.length 2) < len then refuse .invalidHlen
      let data ← Checked.slice input 2 (2 + len)
      let input ← Checked.slice input (2 + len) input.length
      return (input, ← decodeData code data)

/-- The options up to the first END byte behind an option, else up to the first
that cannot be decoded, and what is left of the input. -/
def decodeOptions : (rounds : Nat) → (rest : List UInt8) →
    Fallible CustomErr (List UInt8 × List DhcpOption)
  | 0, _ => .error .endless
  | rounds + 1, rest => do
      match ← attempt (decodeOption rest) with
      | none => return (rest, [])
      | some (rest, option) =>
          if rest.head? = some endByte then return (rest, [option])
          else
            let (rest, options) ← decodeOptions rounds rest
            return (rest, option :: options)

/-- The fields of the header, which are at fixed offsets. -/
def decodeHeader (hdr : List UInt8) : Fallible CustomErr Packet := do
  let op ← Checked.index hdr 0
  let hlen ← Checked.index hdr 2
  if hlen ≠ 6 then refuse .invalidHlen
  let hops ← Checked.index hdr 3
  let xid ← Checked.readBe 32 hdr 4
  let secs ← Checked.readBe 16 hdr 8
  let flags ← Checked.readBe 16 hdr 10
  let ciaddr ← readIpv4 hdr 12
  let yiaddr ← readIpv4 hdr 16
  let siaddr ← readIpv4 hdr 20
  let giaddr ← readIpv4 hdr 24
  let chaddr := #v[← Checked.index hdr 28, ← Checked.index hdr 29, ← Checked.index hdr 30,
    ← Checked.index hdr 31, ← Checked.index hdr 32, ← Checked.index hdr 33]
  return {
    reply := if op = bootReply then true else if op = bootRequest then false else false
    hops := hops
    xid := xid
    secs := secs
    broadcast := flags &&& 128 = 128
    ciaddr := ciaddr
    yiaddr := yiaddr
    siaddr := siaddr
    giaddr := giaddr
    chaddr := chaddr
    options := [] }

def decode (input : List UInt8) : Fallible CustomErr (List UInt8 × Packet) := do
  if input.length < 236 then refuse .invalidHlen
  let (hdr, rest) ← Checked.splitAt input 236
  let packet ← decodeHeader hdr
  if rest.length < 4 then refuse (.nomError rest .tag)
  if (← Checked.slice rest 0 4) ≠ cookie then refuse (.nomError rest .tag)
  let rest ← Checked.slice rest 4 rest.length
  -- The last round finds no option left.
  let (rest, options) ← decodeOptions (rest.length + 1) rest
  let (_, input) ← Checked.splitAt rest 1
  return (input, { packet with options })

/-- `Packet::from` -/
def Packet.fromBytes (input : List UInt8) : Fallible CustomErr Packet := do
  let (_, packet) ← decode input
  return packet

end RustyDhcp
