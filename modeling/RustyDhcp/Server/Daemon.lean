import RustyDhcp.Foundation.Run
import RustyDhcp.Packet.Survival
import RustyDhcp.Server.Invariant
import RustyDhcp.Server.Send

/-! # The DHCPv4 daemon

A round of the serving loop takes a datagram from the socket, hands the packet in
it to the lease store and sends the answer, if there is one. -/

namespace RustyDhcp

/-- A datagram with its sender, the clock reading at which the packet in it is
handled, and what the socket says to each attempt to send an answer. -/
structure Arrival (IoError : Type) where
  bytes : List UInt8
  src : SocketAddr
  now : Instant
  outcome : Nat → Except IoError Nat

/-- What fits into the receive buffer. -/
def Arrival.received (arrival : Arrival IoError) : List UInt8 := arrival.bytes.take 1500

/-- The receive buffer has room for every encoded packet. -/
theorem received_wire {arrival : Arrival IoError} {packet : Packet}
    (bytes : arrival.bytes = packet.wire) : arrival.received = packet.wire := by
  have short : packet.wire.length ≤ 1500 :=
    Nat.le_trans (length_wire_le packet) (Nat.le_of_ble_eq_true rfl)
  rw [Arrival.received, bytes, List.take_of_length_le short]

def describeDecodeError : CustomErr → String
  | .nomError _ _ => "bad magic cookie"
  | .nonUtf8String => "non-UTF8 string option"
  | .unrecognizedMessageType => "unrecognized message type"
  | .invalidHlen => "truncated header or option"

/-- What is printed about a datagram that cannot be decoded. -/
def malformedNote (length : Nat) (error : CustomErr) : String :=
  "ignoring malformed DHCP packet (" ++ toString length ++ " bytes): " ++
    describeDecodeError error

inductive Reaction where
  | noted (text : String)
  | handled (sent : List Datagram)
deriving DecidableEq

/-- The datagrams that a reaction hands to the socket. -/
def Reaction.sent : Reaction → List Datagram
  | .noted _ => []
  | .handled sent => sent

@[simp] theorem Reaction.sent_noted (text : String) : (Reaction.noted text).sent = [] := rfl

@[simp] theorem Reaction.sent_handled (sent : List Datagram) :
    (Reaction.handled sent).sent = sent := rfl

/-- A server and where it broadcasts to, primary first. -/
structure Daemon extends Server where
  broadcasts : List Ipv4Addr

namespace Daemon

/-- An empty list falls back to the limited broadcast address. -/
def serveWithBroadcasts (serverIp : Ipv4Addr) (broadcastIps : List Ipv4Addr) : Daemon where
  serverIp := serverIp
  broadcasts := if broadcastIps.isEmpty then [.new 255 255 255 255] else broadcastIps

/-- The daemon with the sender of a datagram as its peer. -/
def endpoint (daemon : Daemon) (src : SocketAddr) : Endpoint where
  serverIp := daemon.serverIp
  src := src
  broadcasts := daemon.broadcasts

/-- A round of `Server::serve_with_broadcasts`. -/
def round (daemon : Daemon) (store : MyServer) (arrival : Arrival IoError) :
    Checked (MyServer × Reaction) :=
  match Packet.fromBytes arrival.received with
  | .ok packet => do
      let (store, reply) ← MyServer.handleRequest daemon.toServer store ⟨packet, arrival.now⟩
      match reply with
      | none => return (store, .handled [])
      | some reply => do
          let (sent, _) ← (daemon.endpoint arrival.src).reply arrival.outcome reply
          return (store, .handled sent)
  | .error (.refused error) =>
      .ok (store, .noted (malformedNote arrival.received.length error))
  | .error (.panic reason) => .error reason
  -- The rounds of the decoder are always enough.
  | .error .endless => .error .assertionFailed

end Daemon

theorem fromBytes_ne_endless (bytes : List UInt8) : Packet.fromBytes bytes ≠ .error .endless := by
  intro endless
  by_cases valid : ValidHeader bytes
  · by_cases found : ∃ options, Skippable (bytes.drop 240) options
    · rcases found with ⟨options, skippable⟩
      rw [fromBytes_of_skippable valid skippable] at endless
      cases endless
    · rcases fromBytes_panics valid (not_exists.mp found) with ⟨reason, panics⟩
      rw [panics] at endless
      cases endless
  · rcases fromBytes_of_invalid valid with ⟨error, refused⟩
    rw [refused] at endless
    cases endless

/-! ## The packet of an answer -/

/-- The packet that answers a request. -/
def Server.answer (server : Server) (reply : Reply) : Packet where
  reply := true
  hops := 0
  xid := reply.reqPacket.xid
  secs := 0
  broadcast := reply.reqPacket.broadcast
  ciaddr := if reply.msgType = .nak then .unspecified else reply.reqPacket.ciaddr
  yiaddr := reply.offerIp
  siaddr := .unspecified
  giaddr := reply.reqPacket.giaddr
  chaddr := reply.reqPacket.chaddr
  options := server.replyOptions reply

theorem replyPacket_eq_answer (server : Server) (reply : Reply) :
    server.replyPacket reply = .ok (server.answer reply) := by
  rcases reply with ⟨msgType, additionalOptions, offerIp, reqPacket⟩
  simp only [Server.replyPacket, Server.answer, Server.replyOptions, Packet.requestedCodes,
    Server.allOptions]
  cases reqPacket.option Options.parameterRequestList with
  | none => cases msgType <;> rfl
  | some option =>
      cases option with
      | parameterRequestList prl =>
          simp only [filterOptionsByReq_eq, Checked.bind_ok]
          cases msgType <;> rfl
      | _ => cases msgType <;> rfl

/-! ## The places it goes to -/

theorem attempted_prefix_self (outcome : Nat → Except IoError Nat) (dsts : List α)
    (attempt : Nat) : attempted outcome attempt dsts <+: dsts := by
  induction dsts generalizing attempt with
  | nil => exact List.prefix_rfl
  | cons dst dsts induction =>
      rw [attempted]
      cases outcome attempt with
      | error error => exact ⟨dsts, rfl⟩
      | ok sent => exact (List.prefix_cons_inj dst).mpr (induction (attempt + 1))

theorem length_routeDests_le (peer : SocketAddr) (broadcast : Bool) (yiaddr : Ipv4Addr)
    (broadcasts : List Ipv4Addr) :
    (Server.routeDests peer broadcast yiaddr broadcasts).length ≤ broadcasts.length + 1 := by
  rw [Server.routeDests]
  split
  · rw [List.length_append, List.length_map]
    split
    · exact Nat.le_refl _
    · exact Nat.le_succ _
  · exact Nat.le_add_left _ _

namespace Daemon

variable {daemon : Daemon} {store next initial state : MyServer} {arrival : Arrival IoError}
variable {reaction : Reaction} {reply : Reply}

/-- What is sent for an answer: the same bytes to one planned destination after
the other, up to the first that fails. -/
def delivery (daemon : Daemon) (arrival : Arrival IoError) (reply : Reply) : List Datagram :=
  (attempted arrival.outcome 0 (Server.routeDests arrival.src reply.reqPacket.broadcast
    reply.offerIp daemon.broadcasts)).map (Datagram.mk (daemon.answer reply).wire)

theorem reply_eq (daemon : Daemon) (arrival : Arrival IoError) (reply : Reply) :
    ∃ result, (daemon.endpoint arrival.src).reply arrival.outcome reply =
      .ok (daemon.delivery arrival reply, result) := by
  rcases send_eq (daemon.endpoint arrival.src) arrival.outcome (daemon.answer reply) with
    ⟨result, sent⟩
  refine ⟨result, ?_⟩
  have packet : (daemon.endpoint arrival.src).toServer.replyPacket reply =
      .ok (daemon.answer reply) := replyPacket_eq_answer _ _
  rw [Endpoint.reply, packet, Checked.bind_ok, sent]
  rfl

theorem length_delivery_le (daemon : Daemon) (arrival : Arrival IoError) (reply : Reply) :
    (daemon.delivery arrival reply).length ≤ daemon.broadcasts.length + 1 := by
  rw [delivery, List.length_map]
  exact Nat.le_trans (attempted_prefix_self _ _ _).length_le (length_routeDests_le _ _ _ _)

/-- What a round can do with a datagram. -/
inductive Round (daemon : Daemon) (store : MyServer) (arrival : Arrival IoError) :
    MyServer → Reaction → Prop
  | refused {error} :
      Packet.fromBytes arrival.received = Fallible.refuse error →
      Round daemon store arrival store (.noted (malformedNote arrival.received.length error))
  | silent {packet next} :
      Packet.fromBytes arrival.received = .ok packet →
      MyServer.handleRequest daemon.toServer store ⟨packet, arrival.now⟩ = .ok (next, none) →
      Round daemon store arrival next (.handled [])
  | answered {packet next reply} :
      Packet.fromBytes arrival.received = .ok packet →
      MyServer.handleRequest daemon.toServer store ⟨packet, arrival.now⟩ =
        .ok (next, some reply) →
      Round daemon store arrival next (.handled (daemon.delivery arrival reply))

theorem round_refused {error : CustomErr}
    (decoded : Packet.fromBytes arrival.received = Fallible.refuse error) :
    daemon.round store arrival =
      .ok (store, .noted (malformedNote arrival.received.length error)) := by
  rw [round, decoded]
  rfl

theorem round_silent {packet : Packet}
    (decoded : Packet.fromBytes arrival.received = .ok packet)
    (handled : MyServer.handleRequest daemon.toServer store ⟨packet, arrival.now⟩ =
      .ok (next, none)) : daemon.round store arrival = .ok (next, .handled []) := by
  rw [round, decoded]
  simp only [handled, Checked.bind_ok, Checked.pure_eq_ok]

theorem round_answered {packet : Packet}
    (decoded : Packet.fromBytes arrival.received = .ok packet)
    (handled : MyServer.handleRequest daemon.toServer store ⟨packet, arrival.now⟩ =
      .ok (next, some reply)) :
    daemon.round store arrival = .ok (next, .handled (daemon.delivery arrival reply)) := by
  rcases reply_eq daemon arrival reply with ⟨result, sent⟩
  rw [round, decoded]
  simp only [handled, sent, Checked.bind_ok, Checked.pure_eq_ok]

theorem round_eq_ok_iff :
    daemon.round store arrival = .ok (next, reaction) ↔
      Round daemon store arrival next reaction := by
  constructor
  · intro done
    rcases decoded : Packet.fromBytes arrival.received with (reason | _ | error) | packet
    · rw [round, decoded] at done
      cases done
    · exact absurd decoded (fromBytes_ne_endless _)
    · rw [round_refused decoded] at done
      cases done
      exact .refused decoded
    · rw [round, decoded] at done
      rcases Checked.bind_eq_ok_iff.mp done with ⟨⟨after, reply⟩, handled, rest⟩
      cases reply with
      | none =>
          cases rest
          exact .silent decoded handled
      | some reply =>
          rcases reply_eq daemon arrival reply with ⟨result, sent⟩
          simp only [sent, Checked.bind_ok, Checked.pure_eq_ok] at rest
          cases rest
          exact .answered decoded handled
  · intro done
    cases done with
    | refused decoded => exact round_refused decoded
    | silent decoded handled => exact round_silent decoded handled
    | answered decoded handled => exact round_answered decoded handled

/-- A round with a valid store ends unless the datagram stops the decoder. -/
theorem round_ends_iff (valid : store.Valid) :
    (∃ result, daemon.round store arrival = .ok result) ↔ ¬Deadly arrival.received := by
  rw [← returns_iff_not_deadly]
  constructor
  · intro found
    rcases found with ⟨⟨next, reaction⟩, done⟩
    cases round_eq_ok_iff.mp done with
    | refused decoded => exact .inr ⟨_, decoded⟩
    | silent decoded => exact .inl ⟨_, decoded⟩
    | answered decoded => exact .inl ⟨_, decoded⟩
  · intro returns
    rcases returns with ⟨packet, decoded⟩ | ⟨error, refused⟩
    · rcases MyServer.handleRequest_effect valid daemon.toServer ⟨packet, arrival.now⟩ with
        ⟨next, reply, handled, _⟩
      cases reply with
      | none => exact ⟨_, round_silent decoded handled⟩
      | some reply => exact ⟨_, round_answered decoded handled⟩
    · exact ⟨_, round_refused refused⟩

theorem Round.valid (done : Round daemon store arrival next reaction) (valid : store.Valid) :
    next.Valid := by
  cases done with
  | refused => exact valid
  | silent _ handled => exact (MyServer.effect_of_handled valid handled).valid valid
  | answered _ handled => exact (MyServer.effect_of_handled valid handled).valid valid

theorem valid_of_run {past : List (Handled MyServer (Arrival IoError) Reaction)}
    (valid : initial.Valid) (run : Run daemon.round initial past state) : state.Valid :=
  run.invariant valid fun before done => (round_eq_ok_iff.mp done).valid before

end Daemon

end RustyDhcp
