import RustyDhcp.Packet.Wire
import RustyDhcp.Server.Filter
import RustyDhcp.Server.HandleRequest

/-! # Sending DHCPv4 replies

A reply becomes a packet, and the packet a datagram for each place it has to go
to. Sending ends with the first destination that fails. -/

namespace RustyDhcp

open Checked

/-- A server with the peer of the last datagram and its broadcast destinations,
primary first. -/
structure Endpoint extends Server where
  src : SocketAddr
  broadcasts : List Ipv4Addr

/-- The packet that `Server::reply` builds. -/
def Server.replyPacket (server : Server) (reply : Reply) : Checked Packet := do
  let ciaddr := match reply.msgType with
    | .nak => .new 0 0 0 0
    | _ => reply.reqPacket.ciaddr
  let opts := .dhcpMessageType reply.msgType :: .serverIdentifier server.serverIp ::
    reply.additionalOptions
  let opts ← match reply.reqPacket.option Options.parameterRequestList with
    | some (.parameterRequestList prl) => filterOptionsByReq opts prl
    | _ => .ok opts
  return {
    reply := true
    hops := 0
    xid := reply.reqPacket.xid
    secs := 0
    broadcast := reply.reqPacket.broadcast
    ciaddr := ciaddr
    yiaddr := reply.offerIp
    siaddr := .new 0 0 0 0
    giaddr := reply.reqPacket.giaddr
    chaddr := reply.reqPacket.chaddr
    options := opts }

/-- Unicast back to the peer when it has a usable source address. Otherwise
broadcast, and a unicast copy to `yiaddr` if the client did not ask for
broadcast. -/
def Server.routeDests (peer : SocketAddr) (broadcast : Bool) (yiaddr : Ipv4Addr)
    (broadcasts : List Ipv4Addr) : List SocketAddr :=
  if broadcast || peer.isUnspecified then
    broadcasts.map peer.setIp ++
      if !broadcast && peer.isUnspecified && yiaddr ≠ .unspecified then [.v4 yiaddr peer.port]
      else []
  else [peer]

/-- Bytes that are handed to the socket, and where they are to go. -/
structure Datagram where
  wire : List UInt8
  dst : SocketAddr
deriving DecidableEq

variable {IoError : Type}

/-- Hand the bytes to the socket for one destination after the other, up to the
first that fails. `outcome` gives what the socket says to each attempt, and
`sent` is the byte count of the last one. -/
def fanOut (outcome : Nat → Except IoError Nat) (wire : List UInt8) :
    (attempt sent : Nat) → List SocketAddr → List Datagram × Except IoError Nat
  | _, sent, [] => ([], .ok sent)
  | attempt, _, dst :: dsts =>
      match outcome attempt with
      | .error error => ([⟨wire, dst⟩], .error error)
      | .ok sent =>
          let (datagrams, result) := fanOut outcome wire (attempt + 1) sent dsts
          (⟨wire, dst⟩ :: datagrams, result)

namespace Endpoint

def send (endpoint : Endpoint) (outcome : Nat → Except IoError Nat) (packet : Packet) :
    Checked (List Datagram × Except IoError Nat) := do
  let addr := endpoint.src
  if !packet.broadcast && !addr.isUnspecified then
    let (wire, _) ← packet.encode (List.replicate wireMax 0)
    return ([⟨wire, addr⟩], outcome 0)
  else
    let (wire, _) ← packet.encode (List.replicate wireMax 0)
    return fanOut outcome wire 0 0
      (Server.routeDests addr packet.broadcast packet.yiaddr endpoint.broadcasts)

def reply (endpoint : Endpoint) (outcome : Nat → Except IoError Nat) (reply : Reply) :
    Checked (List Datagram × Except IoError Nat) := do
  let packet ← endpoint.toServer.replyPacket reply
  endpoint.send outcome packet

end Endpoint

/-! ## The packet of a reply -/

/-- The codes that a request asks for, if it lists them. -/
def Packet.requestedCodes (packet : Packet) : Option (List UInt8) :=
  match packet.option Options.parameterRequestList with
  | some (.parameterRequestList prl) => some prl
  | _ => none

/-- The options of a reply, before those that nobody asked for are dropped. -/
def Server.allOptions (server : Server) (reply : Reply) : List DhcpOption :=
  .dhcpMessageType reply.msgType :: .serverIdentifier server.serverIp :: reply.additionalOptions

/-- The options of a reply. -/
def Server.replyOptions (server : Server) (reply : Reply) : List DhcpOption :=
  match reply.reqPacket.requestedCodes with
  | some prl => (selectOptions (prl ++ keptCodes) (server.allOptions reply)).1
  | none => server.allOptions reply

theorem replyPacket_eq (server : Server) (reply : Reply) :
    ∃ packet, server.replyPacket reply = .ok packet ∧
      packet.options = server.replyOptions reply ∧
      packet.broadcast = reply.reqPacket.broadcast := by
  rw [Server.replyPacket, Server.replyOptions, Packet.requestedCodes]
  cases reply.reqPacket.option Options.parameterRequestList with
  | none => exact ⟨_, rfl, rfl, rfl⟩
  | some option =>
      cases option with
      | parameterRequestList prl =>
          simp only [filterOptionsByReq_eq, bind_ok]
          exact ⟨_, rfl, rfl, rfl⟩
      | _ => exact ⟨_, rfl, rfl, rfl⟩

/-! ## Destinations -/

/-- The destinations that are attempted: all up to the first that fails. -/
def attempted (outcome : Nat → Except IoError Nat) : (attempt : Nat) → List α → List α
  | _, [] => []
  | attempt, dst :: dsts =>
      match outcome attempt with
      | .error _ => [dst]
      | .ok _ => dst :: attempted outcome (attempt + 1) dsts

variable {outcome : Nat → Except IoError Nat}

/-- All destinations are attempted exactly if no attempt before the last fails. -/
theorem attempted_eq_self_iff {dsts : List α} {attempt : Nat} :
    attempted outcome attempt dsts = dsts ↔ ∀ position, position + 1 < dsts.length →
      ∃ sent, outcome (attempt + position) = .ok sent := by
  induction dsts generalizing attempt with
  | nil => simp [attempted]
  | cons dst dsts induction =>
      rw [attempted]
      cases here : outcome attempt with
      | error error =>
          dsimp only
          constructor
          · intro all position before
            rw [List.cons.injEq] at all
            rw [← all.2] at before
            simp at before
          · intro succeed
            cases dsts with
            | nil => rfl
            | cons next dsts =>
                rcases succeed 0 (by simp) with ⟨sent, sends⟩
                rw [Nat.add_zero, here] at sends
                cases sends
      | ok sent =>
          dsimp only
          rw [List.cons.injEq, induction, List.length_cons]
          constructor
          · intro all position before
            cases position with
            | zero => exact ⟨sent, here⟩
            | succ position =>
                have later := all.2 position (by omega)
                rwa [Nat.add_right_comm, Nat.add_assoc] at later
          · intro succeed
            refine ⟨rfl, ?_⟩
            intro position before
            have later := succeed (position + 1) (by omega)
            rwa [← Nat.add_assoc, Nat.add_right_comm] at later

theorem fanOut_fst (wire : List UInt8) (attempt sent : Nat) (dsts : List SocketAddr) :
    (fanOut outcome wire attempt sent dsts).1 =
      (attempted outcome attempt dsts).map (Datagram.mk wire) := by
  induction dsts generalizing attempt sent with
  | nil => rfl
  | cons dst dsts induction =>
      rw [fanOut, attempted]
      split
      · rfl
      · rw [List.map_cons, ← induction]

/-- The way for a single peer and the fan-out follow the same plan. -/
theorem send_eq (endpoint : Endpoint) (outcome : Nat → Except IoError Nat) (packet : Packet) :
    ∃ result, endpoint.send outcome packet = .ok ((attempted outcome 0 (Server.routeDests
      endpoint.src packet.broadcast packet.yiaddr endpoint.broadcasts)).map
        (Datagram.mk packet.wire), result) := by
  have room : wireMax ≤ (List.replicate wireMax (0 : UInt8)).length := by rw [List.length_replicate]
  rw [Endpoint.send, encode_eq packet room]
  by_cases direct : (!packet.broadcast && !endpoint.src.isUnspecified) = true
  · refine ⟨outcome 0, ?_⟩
    have single : Server.routeDests endpoint.src packet.broadcast packet.yiaddr
        endpoint.broadcasts = [endpoint.src] := by
      simp only [Bool.and_eq_true, Bool.not_eq_true'] at direct
      rw [Server.routeDests, direct.1, direct.2]
      rfl
    rw [if_pos direct, single, attempted]
    cases outcome 0 <;> rfl
  · refine ⟨(fanOut outcome packet.wire 0 0 (Server.routeDests endpoint.src packet.broadcast
      packet.yiaddr endpoint.broadcasts)).2, ?_⟩
    rw [if_neg direct, ← fanOut_fst packet.wire 0 0]
    rfl

/-! ## Failures -/

/-- Where the packet has to go to. -/
def Endpoint.plan (endpoint : Endpoint) (packet : Packet) : List SocketAddr :=
  Server.routeDests endpoint.src packet.broadcast packet.yiaddr endpoint.broadcasts

/-- Every planned destination is attempted, once, in order and with the bytes of
the packet, exactly if no send but that to the last one fails. -/
theorem attempts_plan_iff (endpoint : Endpoint) (outcome : Nat → Except IoError Nat)
    (packet : Packet) : ∃ wire buffer datagrams result,
      packet.encode (List.replicate wireMax 0) = .ok (wire, buffer) ∧
      endpoint.send outcome packet = .ok (datagrams, result) ∧
      (datagrams = (endpoint.plan packet).map (Datagram.mk wire) ↔
        ∀ attempt, attempt + 1 < (endpoint.plan packet).length →
          ∃ sent, outcome attempt = .ok sent) := by
  have room : wireMax ≤ (List.replicate wireMax (0 : UInt8)).length := by rw [List.length_replicate]
  rcases send_eq endpoint outcome packet with ⟨result, sent⟩
  refine ⟨_, _, _, result, encode_eq packet room, sent, ?_⟩
  have injective : Function.Injective (Datagram.mk packet.wire) := by
    intro left right same
    cases same
    rfl
  refine (List.map_injective_iff.mpr injective).eq_iff.trans (attempted_eq_self_iff.trans ?_)
  simp only [Nat.zero_add]
  rfl

/-- A server that broadcasts to two addresses, with a client that has none yet. -/
def twoBroadcasts : Endpoint where
  serverIp := .new 192 168 2 1
  src := .v4 .unspecified 68
  broadcasts := [.new 255 255 255 255, .new 192 168 2 255]

def addressed : Packet :=
  { Packet.ofClient #v[5, 2, 3, 4, 5, 6] [.dhcpMessageType .offer] with
    yiaddr := .new 192 168 2 2 }

/-- There is no route to the first destination, at the moment. -/
def firstUnreachable : Nat → Except String Nat
  | 0 => .error "Network is unreachable"
  | _ + 1 => .ok 300

/-- Neither the second broadcast address nor the client's own is tried. -/
theorem fanOut_stops : ¬∃ wire result, twoBroadcasts.send firstUnreachable addressed =
    .ok ((twoBroadcasts.plan addressed).map (Datagram.mk wire), result) := by
  intro found
  rcases found with ⟨wire, result, equal⟩
  rcases send_eq twoBroadcasts firstUnreachable addressed with ⟨_, sent⟩
  rw [sent, Except.ok.injEq, Prod.mk.injEq] at equal
  have lengths := congrArg List.length equal.1
  rw [List.length_map, List.length_map] at lengths
  exact absurd lengths (by decide)

end RustyDhcp
