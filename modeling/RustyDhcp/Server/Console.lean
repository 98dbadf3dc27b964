import RustyDhcp.Display
import RustyDhcp.Options
import RustyDhcp.UtcDate

/-! # The lines that are printed

A note is what a line tells about a packet, and its text is the line. -/

namespace RustyDhcp

/-- `{:0width}` of a number that is not negative. -/
def zeroPadded (width number : Nat) : Text :=
  List.replicate (width - (decimal number).length) '0' ++ decimal number

/-- `{:0width}`, where a sign counts for one character. -/
def zeroPaddedInt (width : Nat) (number : Int) : Text :=
  if number < 0 then '-' :: zeroPadded (width - 1) number.natAbs
  else zeroPadded width number.natAbs

/-- The time as `YYYY-MM-DDTHH:MM:SS`, of the seconds since 1970. -/
def utcNowIso (secs : U64) : Checked Text := do
  let (y, m, d) ← ymdFromDays (asI64 (secs.toNat / 86400))
  let t := secs.toNat % 86400
  return zeroPaddedInt 4 y ++ '-' :: zeroPadded 2 m ++ '-' :: zeroPadded 2 d ++
    'T' :: zeroPadded 2 (t / 3600) ++ ':' :: zeroPadded 2 (t % 3600 / 60) ++
    ':' :: zeroPadded 2 (t % 60)

/-- `{:?}` -/
def MessageType.debug : MessageType → String
  | discover => "Discover"
  | offer => "Offer"
  | request => "Request"
  | decline => "Decline"
  | ack => "Ack"
  | nak => "Nak"
  | release => "Release"
  | inform => "Inform"

/-- One line about a packet. -/
inductive Note where
  | discover (mac : Mac) (xid : U32) (rapid broadcast : Bool) (src : SocketAddr)
      (opts : List UInt8) (prl : Option (List UInt8))
  | offered (mac : Mac) (xid : U32) (ip : Ipv4Addr) (dsts : List SocketAddr) (existing : Bool)
  | committed (mac : Mac) (xid : U32) (ip : Ipv4Addr) (dsts : List SocketAddr) (existing : Bool)
  | exhausted (mac : Mac) (xid : U32) (rapid : Bool) (used total : Nat)
  | request (mac : Mac) (xid : U32) (reqIp ciaddr : Ipv4Addr) (serverId : Option Ipv4Addr)
      (broadcast : Bool) (src : SocketAddr) (opts : List UInt8)
  | mismatch (mac : Mac) (xid : U32)
  | online (time : Text) (mac : Mac) (ip : Ipv4Addr) (hostname : Option Text)
  | acked (mac : Mac) (xid : U32) (ip : Ipv4Addr) (dsts : List SocketAddr) (existing : Bool)
  | refused (mac : Mac) (xid : U32) (ip : Ipv4Addr) (dsts : List SocketAddr) (inPool : Bool)
  | ignored (kind : MessageType) (mac : Mac) (xid : U32) (src : SocketAddr)
  | freed (kind : MessageType) (mac : Mac) (xid : U32) (src : SocketAddr) (ip : Ipv4Addr)
  | noLease (kind : MessageType) (mac : Mac) (xid : U32) (src : SocketAddr)
  | unsupported (kind : MessageType) (mac : Mac) (xid : U32) (src : SocketAddr)
  | untyped (mac : Mac) (xid : U32) (src : SocketAddr) (error : String)
deriving DecidableEq

namespace Note

def commaSeparated (parts : List Text) : Text := [','].intercalate parts

def codes (opts : List UInt8) : Text := commaSeparated (opts.map fun code => decimal code.toNat)

def places (dsts : List SocketAddr) : Text := commaSeparated (dsts.map SocketAddr.toText)

def flag (value : Bool) : Text := if value then "true".toList else "false".toList

/-- What a line begins with that is about a packet of a client. -/
def heading (kind : String) (mac : Mac) (xid : U32) : List Text :=
  ["v4 ".toList, kind.toList, " mac=".toList, chaddr mac, " xid=".toList, decimal xid.toNat]

/-- What is printed of a Release or a Decline. -/
def kindName (kind : MessageType) : String := if kind = .release then "RELEASE" else "DECLINE"

def age (existing : Bool) : String := if existing then "existing lease" else "new lease"

/-- The parts of the line, one for each piece of the format string and each
argument. -/
def parts : Note → List Text
  | discover mac xid rapid broadcast src opts prl =>
      heading "DISCOVER" mac xid ++ [" rapid=".toList, flag rapid, " bcast=".toList,
        flag broadcast, " src=".toList, src.toText, " opts=[".toList, codes opts,
        "] prl=[".toList, (prl.map codes).getD "-".toList, "]".toList]
  | offered mac xid ip dsts existing =>
      heading "DISCOVER" mac xid ++ [" -> OFFER ".toList, ip.toText, " to ".toList, places dsts,
        " (".toList, (age existing).toList, ")".toList]
  | committed mac xid ip dsts existing =>
      heading "DISCOVER" mac xid ++ [" -> ACK ".toList, ip.toText, " to ".toList, places dsts,
        " (rapid commit, ".toList, (age existing).toList, ")".toList]
  | exhausted mac xid rapid used total =>
      heading "DISCOVER" mac xid ++ [" -> no reply (".toList,
        if rapid then "rapid commit, ".toList else [], "pool exhausted ".toList, decimal used,
        "/".toList, decimal total, " used)".toList]
  | request mac xid reqIp ciaddr serverId broadcast src opts =>
      heading "REQUEST" mac xid ++ [" req_ip=".toList, reqIp.toText, " ciaddr=".toList,
        ciaddr.toText, " server_id=".toList, (serverId.map Ipv4Addr.toText).getD "-".toList,
        " bcast=".toList, flag broadcast, " src=".toList, src.toText, " opts=[".toList,
        codes opts, "]".toList]
  | mismatch mac xid =>
      heading "REQUEST" mac xid ++ [" note: server_id mismatch, serving anyway".toList]
  | online time mac ip hostname =>
      [time, ['\t'], chaddr mac, ['\t'], ip.toText, ['\t'], hostname.getD "-".toList, ['\t'],
        "Online".toList]
  | acked mac xid ip dsts existing =>
      heading "REQUEST" mac xid ++ [" -> ACK ".toList, ip.toText, " to ".toList, places dsts,
        " (".toList, (age existing).toList, ")".toList]
  | refused mac xid ip dsts inPool =>
      heading "REQUEST" mac xid ++ [" -> NAK ".toList, ip.toText, " to ".toList, places dsts,
        " (".toList, if inPool then "requested IP in use by another client".toList
          else "requested IP outside pool range".toList, ")".toList]
  | ignored kind mac xid src =>
      heading (kindName kind) mac xid ++
        [" src=".toList, src.toText, " ignored (server_id mismatch)".toList]
  | freed kind mac xid src ip =>
      heading (kindName kind) mac xid ++
        [" src=".toList, src.toText, " freed ".toList, ip.toText]
  | noLease kind mac xid src =>
      heading (kindName kind) mac xid ++ [" src=".toList, src.toText, " no lease held".toList]
  | unsupported kind mac xid src =>
      heading kind.debug mac xid ++
        [" src=".toList, src.toText, " ignored (unsupported message type)".toList]
  | untyped mac xid src error =>
      heading "?" mac xid ++
        [" src=".toList, src.toText, " ignored (".toList, error.toList, ")".toList]

/-- The line without its end. -/
def text (note : Note) : Text := note.parts.flatten

example : (refused #v[2, 0, 0, 0, 7, 7] 5 (.new 192 168 2 2) [.v4 (.new 10 0 0 9) 68] true).text =
    ("v4 REQUEST mac=02:00:00:00:07:07 xid=5 -> NAK 192.168.2.2 to 10.0.0.9:68 " ++
      "(requested IP in use by another client)").toList := by
  decide +kernel

end Note

end RustyDhcp
