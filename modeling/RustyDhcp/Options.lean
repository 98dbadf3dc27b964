import RustyDhcp.Text

/-! # DHCP options -/

namespace RustyDhcp

inductive MessageType where
  | discover
  | offer
  | request
  | decline
  | ack
  | nak
  | release
  | inform
deriving DecidableEq, Repr

structure RawDhcpOption where
  code : UInt8
  data : List UInt8
deriving DecidableEq, Repr

inductive DhcpOption where
  | dhcpMessageType (messageType : MessageType)
  | serverIdentifier (addr : Ipv4Addr)
  | parameterRequestList (codes : List UInt8)
  | requestedIpAddress (addr : Ipv4Addr)
  | hostName (name : Text)
  | router (addrs : List Ipv4Addr)
  | domainNameServer (addrs : List Ipv4Addr)
  | ipAddressLeaseTime (secs : U32)
  | subnetMask (mask : Ipv4Addr)
  | message (text : Text)
  | unrecognized (raw : RawDhcpOption)
deriving DecidableEq, Repr

namespace Options

def subnetMask : UInt8 := 1
def router : UInt8 := 3
def domainNameServer : UInt8 := 6
def hostName : UInt8 := 12
def networkTimeProtocolServers : UInt8 := 42
def requestedIpAddress : UInt8 := 50
def ipAddressLeaseTime : UInt8 := 51
def dhcpMessageType : UInt8 := 53
def serverIdentifier : UInt8 := 54
def parameterRequestList : UInt8 := 55
def message : UInt8 := 56

/-- There is deliberately no typed option for rapid commit: it decodes as
`unrecognized` and is detected by the presence of its code. -/
def rapidCommit : UInt8 := 80

end Options

def DhcpOption.code : DhcpOption → UInt8
  | .dhcpMessageType _ => Options.dhcpMessageType
  | .serverIdentifier _ => Options.serverIdentifier
  | .parameterRequestList _ => Options.parameterRequestList
  | .requestedIpAddress _ => Options.requestedIpAddress
  | .hostName _ => Options.hostName
  | .router _ => Options.router
  | .domainNameServer _ => Options.domainNameServer
  | .ipAddressLeaseTime _ => Options.ipAddressLeaseTime
  | .subnetMask _ => Options.subnetMask
  | .message _ => Options.message
  | .unrecognized raw => raw.code

end RustyDhcp
