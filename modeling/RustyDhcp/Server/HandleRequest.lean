import RustyDhcp.Server.MyServer

/-! # Handling a DHCPv4 packet -/

namespace RustyDhcp

structure Server where
  serverIp : Ipv4Addr

/-- Whether the packet was meant for this server and not for another one on
the network. -/
def Server.forThisServer (server : Server) (packet : Packet) : Bool :=
  match packet.option Options.serverIdentifier with
  | some (.serverIdentifier addr) => addr.bits = server.serverIp.bits
  | _ => false

/-- The arguments of a call of `Server::reply`, which sends `offerIp` as the
`yiaddr` of a packet of this type to the `chaddr` of the request. -/
structure Reply where
  msgType : MessageType
  additionalOptions : List DhcpOption
  offerIp : Ipv4Addr
  reqPacket : Packet
deriving DecidableEq

def Reply.yiaddr (reply : Reply) : Ipv4Addr := reply.offerIp

def Reply.chaddr (reply : Reply) : Mac := reply.reqPacket.chaddr

/-- A packet together with the clock reading at which it is handled. -/
structure Incoming where
  packet : Packet
  now : Instant

namespace MyServer

def reply (store : MyServer) (msgType : MessageType) (reqPacket : Packet)
    (offerIp : Ipv4Addr) : Reply where
  msgType := msgType
  additionalOptions := store.cachedOffer
  offerIp := offerIp
  reqPacket := reqPacket

def nak (reqPacket : Packet) (message : String) : Reply where
  msgType := .nak
  additionalOptions := [.message message.toList]
  offerIp := .new 0 0 0 0
  reqPacket := reqPacket

/-- Rapid commit has to be enabled and asked for. -/
def rapid (store : MyServer) (packet : Packet) : Bool :=
  store.enableRapidCommit && (packet.option Options.rapidCommit).isSome

def discover (store : MyServer) (packet : Packet) (now : Instant) :
    Checked (MyServer × Option Reply) := do
  let hostname := hostnameOf packet
  if store.rapid packet then
    match ← store.currentLease packet.chaddr with
    | some ip =>
        let store ← store.rememberHostname ip hostname
        return (store, some (store.reply .ack packet ip))
    | none =>
        match ← scanFree packet.chaddr now store.leaseNum.toNat store with
        | (store, some cand) =>
            let expiry := now + store.leaseDuration
            let store ← store.insertLease cand packet.chaddr (some expiry) hostname
            return (store, some (store.reply .ack packet cand))
        | (store, none) => return (store, none)
  else
    match ← store.currentLease packet.chaddr with
    | some ip =>
        let store ← store.rememberHostname ip hostname
        return (store, some (store.reply .offer packet ip))
    | none =>
        match ← scanFree packet.chaddr now store.leaseNum.toNat store with
        | (store, some cand) => return (store, some (store.reply .offer packet cand))
        | (store, none) => return (store, none)

/-- A Request naming another server is noted and served anyway. -/
def request (store : MyServer) (packet : Packet) (now : Instant) :
    Checked (MyServer × Option Reply) := do
  let hostname := hostnameOf packet
  let reqIp := packet.requestedIp
  match ← store.currentLease packet.chaddr with
  | some ip =>
      let store ← store.rememberHostname ip hostname
      return (store, some (store.reply .ack packet ip))
  | none =>
      if ← store.availableAt packet.chaddr reqIp now then
        let expiry := now + store.leaseDuration
        let store ← store.insertLease reqIp packet.chaddr (some expiry) hostname
        return (store, some (store.reply .ack packet reqIp))
      else
        return (store, some (nak packet "Requested IP not available"))

def release (server : Server) (store : MyServer) (packet : Packet) :
    Checked (MyServer × Option Reply) := do
  if server.forThisServer packet then
    match ← store.currentLease packet.chaddr with
    | some _ => return (← store.removeLease packet.chaddr, none)
    | none => return (store, none)
  else
    return (store, none)

def handleRequest (server : Server) (store : MyServer) (incoming : Incoming) :
    Checked (MyServer × Option Reply) :=
  match incoming.packet.messageType with
  | .ok .discover => store.discover incoming.packet incoming.now
  | .ok .request => store.request incoming.packet incoming.now
  | .ok .release => release server store incoming.packet
  | .ok .decline => release server store incoming.packet
  | _ => .ok (store, none)

end MyServer

end RustyDhcp
