import RustyDhcp.Config
import RustyDhcp.Dhcpv6.Pool

/-! # Serving DHCPv6

The pool starts with the reservations of the leases file; a line that is no
reservation is skipped. Every packet that decodes is then handled on its own. -/

namespace RustyDhcp.Dhcpv6

/-! ## Starting -/

/-- The reservation on a line `duid-hex,ipv6`, if it is one. -/
def leasesLine (line : Text) : Option (Duid × Ipv6Addr) :=
  match line.splitOn ',' with
  | [duidText, ipText] =>
      match parseDuidHex (trim duidText), parseIpv6Addr (trim ipText) with
      | .ok duid, some ip => if duid.isEmpty then none else some (duid, ip)
      | _, _ => none
  | _ => none

def loadLine (pool : V6Pool) (line : Option Text) : Checked V6Pool :=
  match line.bind leasesLine with
  | some (duid, ip) => pool.insert ip duid none
  | none => .ok pool

def loadLeases : (pool : V6Pool) → List (Option Text) → Checked V6Pool
  | pool, [] => .ok pool
  | pool, line :: lines => do
      let pool ← loadLine pool line
      loadLeases pool lines

def emptyPool (config : Config) (hasher : Hasher Ipv6Addr V6Pool.Entry) : V6Pool :=
  .new hasher config.ipv6Start config.ipv6LeaseNum
    (Duration.ofSecs config.ipv6LeaseDurationSecs)

/-- The pool that `serve_v6` serves from. -/
def startPool (config : Config) (hasher : Hasher Ipv6Addr V6Pool.Entry)
    (file : LeasesFile) : Checked V6Pool :=
  match file with
  | some lines => loadLeases (emptyPool config hasher) lines
  | none => .ok (emptyPool config hasher)

/-! ## Answering -/

/-- A packet with its sender, and the clock readings that a `discover` and a
`request` made for it take. -/
structure Received where
  src : SocketAddr
  packet : Packet
  discovered : Reading
  requested : Reading
  ordered : discovered ≤ requested

/-- A packet that is handed to the encoder and sent to `dst`. -/
structure Sent where
  dst : SocketAddr
  packet : Packet
deriving DecidableEq

/-- Successful Advertise or Reply for `ip`, echoing the IAID of the request. -/
def sendV6 (dst : SocketAddr) (serverDuid clientDuid : Duid) (req : Packet)
    (msgType : MsgType) (ip : Ipv6Addr) (dns : List Ipv6Addr) (leaseSecs : U32) : Sent :=
  let iaid := (req.firstIana.map IaNa.iaid).getD 0
  let (t1, t2) := defaultT1T2 leaseSecs
  { dst := dst
    packet :=
      { msgType := msgType
        transactionId := req.transactionId
        options :=
          [.serverId serverDuid, .clientId clientDuid,
            .iaNa ⟨iaid, t1, t2, [⟨ip, leaseSecs, leaseSecs⟩]⟩] ++
            if dns.isEmpty then [] else [.dnsServers dns] } }

/-- Advertise or Reply without an address. -/
def sendV6Nodata (dst : SocketAddr) (serverDuid clientDuid : Duid) (req : Packet)
    (msgType : MsgType) : Sent :=
  let iaid := (req.firstIana.map IaNa.iaid).getD 0
  { dst := dst
    packet :=
      { msgType := msgType
        transactionId := req.transactionId
        options :=
          [.serverId serverDuid, .clientId clientDuid, .iaNa ⟨iaid, 0, 0, []⟩,
            .statusCode statusNoAddrsAvail "NoAddrsAvail".toList] } }

/-! ## Handling a packet -/

/-- The identity of a client: its first client ID option. -/
def Packet.clientDuid (packet : Packet) : Option Duid :=
  match packet.option optClientid with
  | some (.clientId duid) => some duid
  | _ => none

/-- The first address of the first IA_NA. -/
def Packet.wanted (packet : Packet) : Option Ipv6Addr :=
  packet.firstIana.bind fun ia => ia.addrs.head?.map IaAddr.addr

section

variable (config : Config) (pool : V6Pool) (duid : Duid) (received : Received)

def success (msgType : MsgType) (ip : Ipv6Addr) : Sent :=
  sendV6 received.src config.serverDuid duid received.packet msgType ip config.ipv6Dns
    config.ipv6LeaseDurationSecs

def failure (msgType : MsgType) : Sent :=
  sendV6Nodata received.src config.serverDuid duid received.packet msgType

def solicit : Checked (V6Pool × Option Sent) :=
  let rapid := config.enableRapidCommit && (received.packet.option optRapidCommit).isSome
  if rapid then do
    match ← pool.discover duid received.discovered with
    | (pool, some offered) =>
        match ← pool.request duid offered received.requested with
        | (pool, .ok ip) => return (pool, some (success config duid received .reply ip))
        | (pool, .error _) => return (pool, some (failure config duid received .reply))
    | (pool, none) => return (pool, some (failure config duid received .reply))
  else do
    match ← pool.discover duid received.discovered with
    | (pool, some ip) => return (pool, some (success config duid received .advertise ip))
    | (pool, none) => return (pool, some (failure config duid received .advertise))

/-- Request, Renew and Rebind are one. -/
def request : Checked (V6Pool × Option Sent) :=
  match received.packet.wanted with
  | none => .ok (pool, none)
  | some addr => do
      match ← pool.request duid addr received.requested with
      | (pool, .ok ip) => return (pool, some (success config duid received .reply ip))
      | (pool, .error _) => return (pool, some (failure config duid received .reply))

/-- Release and Decline are one, and are not answered. -/
def release : Checked (V6Pool × Option Sent) :=
  if isForServer config.serverDuid received.packet then do
    let (pool, _) ← pool.release duid
    return (pool, none)
  else .ok (pool, none)

end

def serveV6 (config : Config) (pool : V6Pool) (received : Received) :
    Checked (V6Pool × Option Sent) :=
  match received.packet.clientDuid with
  | none => .ok (pool, none)
  | some duid =>
      match received.packet.msgType with
      | .solicit => solicit config pool duid received
      | .request | .renew | .rebind => request config pool duid received
      | .release | .decline => release config pool duid received
      | _ => .ok (pool, none)

end RustyDhcp.Dhcpv6
