import RustyDhcp.Options

/-! # DHCP packets -/

namespace RustyDhcp

structure Packet where
  reply : Bool
  hops : UInt8
  xid : U32
  secs : U16
  broadcast : Bool
  ciaddr : Ipv4Addr
  yiaddr : Ipv4Addr
  siaddr : Ipv4Addr
  giaddr : Ipv4Addr
  chaddr : Mac
  options : List DhcpOption
deriving DecidableEq

namespace Packet

/-- The first option of the packet with this code. -/
def option (packet : Packet) (code : UInt8) : Option DhcpOption :=
  packet.options.find? fun option => option.code = code

def messageTypeOf : List DhcpOption → Except String MessageType
  | [] => .error "Packet does not have MessageType option"
  | .dhcpMessageType messageType :: _ => .ok messageType
  | .unrecognized raw :: rest =>
      if raw.code = Options.dhcpMessageType then
        .error ("Got wrong enum code " ++ toString raw.code ++ " for DHCP_MESSAGE_TYPE")
      else messageTypeOf rest
  | _ :: rest => messageTypeOf rest

def messageType (packet : Packet) : Except String MessageType :=
  messageTypeOf packet.options

/-- What a Request asks for: the requested address option, else `ciaddr`. -/
def requestedIp (packet : Packet) : Ipv4Addr :=
  match packet.option Options.requestedIpAddress with
  | some (.requestedIpAddress addr) => addr
  | _ => packet.ciaddr

end Packet

/-- A packet from a client at `chaddr` that has no address yet. -/
def Packet.ofClient (chaddr : Mac) (options : List DhcpOption) : Packet where
  reply := false
  hops := 0
  xid := 0
  secs := 0
  broadcast := false
  ciaddr := .unspecified
  yiaddr := .unspecified
  siaddr := .unspecified
  giaddr := .unspecified
  chaddr := chaddr
  options := options

/-- The host name that the client announces, if it announces one. -/
def hostnameOf (packet : Packet) : Option Text :=
  match packet.option Options.hostName with
  | some (.hostName name) => some name
  | _ => none

end RustyDhcp
