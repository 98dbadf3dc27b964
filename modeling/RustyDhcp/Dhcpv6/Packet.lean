import RustyDhcp.Net
import RustyDhcp.Text

/-! # DHCPv6 packets -/

namespace RustyDhcp.Dhcpv6

abbrev Duid := List UInt8

inductive MsgType where
  | solicit
  | advertise
  | request
  | confirm
  | renew
  | rebind
  | reply
  | release
  | decline
  | reconfigure
  | informationRequest
  | relayForward
  | relayReply
deriving DecidableEq, Repr

/-- An address with its preferred and valid lifetimes in seconds. -/
structure IaAddr where
  addr : Ipv6Addr
  preferred : U32
  valid : U32
deriving DecidableEq, Repr

structure IaNa where
  iaid : U32
  t1 : U32
  t2 : U32
  addrs : List IaAddr
deriving DecidableEq, Repr

structure RawDhcpv6Option where
  code : U16
  data : List UInt8
deriving DecidableEq, Repr

inductive Dhcpv6Option where
  | clientId (duid : Duid)
  | serverId (duid : Duid)
  | iaNa (ia : IaNa)
  | dnsServers (addrs : List Ipv6Addr)
  | statusCode (code : U16) (message : Text)
  | unrecognized (raw : RawDhcpv6Option)
deriving DecidableEq, Repr

def optClientid : U16 := 1
def optServerid : U16 := 2
def optIaNa : U16 := 3
def optStatusCode : U16 := 13
def optRapidCommit : U16 := 14
def optDnsServers : U16 := 23

def statusNoAddrsAvail : U16 := 2

def Dhcpv6Option.code : Dhcpv6Option → U16
  | .clientId _ => optClientid
  | .serverId _ => optServerid
  | .iaNa _ => optIaNa
  | .dnsServers _ => optDnsServers
  | .statusCode _ _ => optStatusCode
  | .unrecognized raw => raw.code

structure Packet where
  msgType : MsgType
  transactionId : U32
  options : List Dhcpv6Option
deriving DecidableEq, Repr

namespace Packet

/-- The first option of the packet with this code. -/
def option (packet : Packet) (code : U16) : Option Dhcpv6Option :=
  packet.options.find? fun option => option.code = code

def firstIanaOf : List Dhcpv6Option → Option IaNa
  | [] => none
  | .iaNa ia :: _ => some ia
  | _ :: rest => firstIanaOf rest

def firstIana (packet : Packet) : Option IaNa := firstIanaOf packet.options

end Packet

/-- Whether the packet was meant for the server with this DUID. -/
def isForServer (ourDuid : Duid) (packet : Packet) : Bool :=
  match packet.option optServerid with
  | some (.serverId duid) => duid = ourDuid
  | _ => false

/-- Renewal and rebinding times of a lease: half and seven eighths of it. -/
def defaultT1T2 (leaseSecs : U32) : U32 × U32 :=
  (leaseSecs / 2, leaseSecs - leaseSecs / 8)

end RustyDhcp.Dhcpv6
