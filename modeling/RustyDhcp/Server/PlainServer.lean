import Mathlib.Data.Multiset.Basic
import RustyDhcp.Foundation.RoundRobin
import RustyDhcp.Server.HandleRequest
import RustyDhcp.Server.Loader

/-! # The DHCPv4 server with a plain map

What the lease store is for: one finite map from addresses to leases and a
cursor. There are no slots, no counter and no hints. -/

namespace RustyDhcp

structure PlainServer where
  leases : HashMap Ipv4Addr MyServer.Entry
  lastLease : Nat
  leaseDuration : Duration
  ipStart : Nat
  leaseNum : Nat
  enableRapidCommit : Bool

namespace PlainServer

/-- The server with every reservation of its file, in order. -/
def start (config : Config) (order : Hasher Ipv4Addr MyServer.Entry)
    (reserved : List (Mac × Ipv4Addr)) : PlainServer where
  leases := reserved.foldl (fun leases line => leases.insert line.2 ⟨line.1, none, none⟩)
    (HashMap.new order)
  lastLease := 0
  leaseDuration := Duration.ofSecs config.leaseDurationSecs
  ipStart := config.ipStartNum.toNat
  leaseNum := config.leaseNum.toNat
  enableRapidCommit := config.enableRapidCommit

def address (spec : PlainServer) (offset : Nat) : Ipv4Addr :=
  ⟨.ofNat 32 (spec.ipStart + offset)⟩

def available (spec : PlainServer) (chaddr : Mac) (addr : Ipv4Addr) (now : Instant) : Bool :=
  spec.ipStart ≤ addr.bits.toNat && addr.bits.toNat < spec.ipStart + spec.leaseNum &&
    match spec.leases.get? addr with
    | some entry => entry.mac = chaddr || entry.expiry.all fun expiry => expiry < now
    | none => true

def currentLease (spec : PlainServer) (chaddr : Mac) : Option Ipv4Addr :=
  spec.leases.findKey? fun entry => entry.mac = chaddr

def rememberHostname (spec : PlainServer) (ip : Ipv4Addr) (hostname : Option Text) :
    PlainServer :=
  match hostname with
  | some name =>
      { spec with leases := spec.leases.modify ip fun entry => { entry with hostname := name } }
  | none => spec

/-- A new lease of `ip` for the sender of the packet. -/
def lease (spec : PlainServer) (ip : Ipv4Addr) (packet : Packet) (now : Instant) :
    PlainServer :=
  { spec with
    leases := spec.leases.insert ip
      ⟨packet.chaddr, some (now + spec.leaseDuration), hostnameOf packet⟩ }

/-- The first available address behind the cursor, which stops there. -/
def nextFree (spec : PlainServer) (chaddr : Mac) (now : Instant) :
    PlainServer × Option Ipv4Addr :=
  let (lastLease, found) := RoundRobin.scan spec.leaseNum
    (fun offset => spec.available chaddr (spec.address offset) now) spec.leaseNum spec.lastLease
  ({ spec with lastLease := lastLease }, found.map spec.address)

/-- The type and the `yiaddr` of an answer. -/
abbrev Answer := Option (MessageType × Ipv4Addr)

def discover (spec : PlainServer) (packet : Packet) (now : Instant) : PlainServer × Answer :=
  if spec.enableRapidCommit && (packet.option Options.rapidCommit).isSome then
    match spec.currentLease packet.chaddr with
    | some ip => (spec.rememberHostname ip (hostnameOf packet), some (.ack, ip))
    | none =>
        match spec.nextFree packet.chaddr now with
        | (spec, some ip) => (spec.lease ip packet now, some (.ack, ip))
        | (spec, none) => (spec, none)
  else
    match spec.currentLease packet.chaddr with
    | some ip => (spec.rememberHostname ip (hostnameOf packet), some (.offer, ip))
    | none =>
        match spec.nextFree packet.chaddr now with
        | (spec, some ip) => (spec, some (.offer, ip))
        | (spec, none) => (spec, none)

def request (spec : PlainServer) (packet : Packet) (now : Instant) : PlainServer × Answer :=
  match spec.currentLease packet.chaddr with
  | some ip => (spec.rememberHostname ip (hostnameOf packet), some (.ack, ip))
  | none =>
      if spec.available packet.chaddr packet.requestedIp now then
        (spec.lease packet.requestedIp packet now, some (.ack, packet.requestedIp))
      else (spec, some (.nak, .unspecified))

def release (spec : PlainServer) (chaddr : Mac) (forThis : Bool) : PlainServer × Answer :=
  if forThis then
    match spec.currentLease chaddr with
    | some ip => ({ spec with leases := spec.leases.remove ip }, none)
    | none => (spec, none)
  else (spec, none)

def handleRequest (server : Server) (spec : PlainServer) (incoming : Incoming) :
    PlainServer × Answer :=
  match incoming.packet.messageType with
  | .ok .discover => spec.discover incoming.packet incoming.now
  | .ok .request => spec.request incoming.packet incoming.now
  | .ok .release | .ok .decline =>
      spec.release incoming.packet.chaddr (server.forThisServer incoming.packet)
  | _ => (spec, none)

end PlainServer

/-! ## What can be seen of a run -/

/-- An answer, and the leases and the cursor behind it. -/
structure Observation where
  answer : PlainServer.Answer
  leases : Multiset (Ipv4Addr × MyServer.Entry)
  lastLease : Nat

def PlainServer.seen (spec : PlainServer) (answer : Answer) : Observation where
  answer := answer
  leases := Multiset.ofList spec.leases.entries
  lastLease := spec.lastLease

def PlainServer.observe (server : Server) : PlainServer → List Incoming → List Observation
  | _, [] => []
  | spec, incoming :: incomings =>
      let (next, answer) := spec.handleRequest server incoming
      next.seen answer :: observe server next incomings

namespace MyServer

/-- The leases in the slots, then those in the overflow. -/
def stored (store : MyServer) : List (Ipv4Addr × Entry) :=
  store.slots.zipIdx.filterMap (fun slot =>
    slot.1.map fun entry => (⟨store.ipStartNum + .ofNat 32 slot.2⟩, entry)) ++
    store.overflow.entries

def seen (store : MyServer) (reply : Option Reply) : Observation where
  answer := reply.map fun reply => (reply.msgType, reply.yiaddr)
  leases := Multiset.ofList store.stored
  lastLease := store.lastLease.toNat

def observe (server : Server) : MyServer → List Incoming → Checked (List Observation)
  | _, [] => .ok []
  | store, incoming :: incomings => do
      let (next, reply) ← handleRequest server store incoming
      let rest ← observe server next incomings
      return next.seen reply :: rest

end MyServer

end RustyDhcp
