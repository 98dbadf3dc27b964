import RustyDhcp.Answers
import RustyDhcp.Packet.Decoding
import RustyDhcp.Server.BroadcastFlag
import RustyDhcp.Server.Echoes

/-! # What an answer has in common with its request

On the wire, an answer repeats the fields by which the client and a relay find
out that it is theirs. -/

namespace RustyDhcp

/-- The header of an answer against that of its request, field by field. -/
structure Mirrors (request wire : List UInt8) : Prop where
  op : wire[0]? = some bootReply
  hardware : wire[1]? = some 1 ∧ wire[2]? = some 6
  hops : wire[3]? = some 0
  xid : (wire.drop 4).take 4 = (request.drop 4).take 4
  secs : (wire.drop 8).take 2 = [0, 0]
  flag : broadcastBit wire ↔ reservedBit request
  siaddr : (wire.drop 20).take 4 = Ipv4Addr.octets .unspecified
  giaddr : (wire.drop 24).take 4 = (request.drop 24).take 4
  chaddr : (wire.drop 28).take 6 = (request.drop 28).take 6
  names : (wire.drop 34).take 202 = List.replicate 202 0
  cookie : (wire.drop 236).take 4 = cookie
  short : wire.length ≤ wireMax
  ends : wire.getLast? = some endByte

/-- What the wire of an answer says about a lease: its type, where it can be
read, the address it names, and the address that the client had. -/
structure Tells (request wire : List UInt8) (msgType : MessageType) (addr : Ipv4Addr) : Prop where
  kind : ∀ packet, Packet.fromBytes wire = .ok packet →
    ∀ read, packet.messageType = .ok read → read = msgType
  yiaddr : (wire.drop 16).take 4 = addr.octets
  ciaddr : (wire.drop 12).take 4 =
    if msgType = .nak then Ipv4Addr.octets .unspecified else (request.drop 12).take 4

variable {request : List UInt8} {packet : Packet} {reply : Reply} {config : Config}
variable {server : Server}

theorem headerOf_wire (packet : Packet) :
    HeaderOf packet.wire { packet with broadcast := false, options := [] } := by
  have valid := validHeader_head packet (optionBytes (fitting 240 packet.options) ++ [endByte])
  have header := headerOf_ofHeader valid []
  rw [ofHeader_head, ← List.append_assoc] at header
  exact header

theorem segment_wire (packet : Packet) {start count : Nat} (inside : start + count ≤ 240) :
    (packet.wire.drop start).take count = (packet.head.drop start).take count := by
  have length := length_head packet
  rw [Packet.wire, List.append_assoc, List.drop_append_of_le_length (by omega),
    List.take_append_of_le_length]
  rw [List.length_drop]
  omega

theorem names_wire (packet : Packet) :
    (packet.wire.drop 34).take 202 = List.replicate 202 0 := by
  rw [segment_wire packet (by decide), Packet.head, List.append_assoc, List.drop_left',
    List.take_left' List.length_replicate]
  simp only [List.length_append, List.length_cons, List.length_nil, length_toBeBytes,
    length_octets, Vector.length_toList]

theorem mirrors_of_answer (decoded : Packet.fromBytes request = .ok reply.reqPacket) :
    Mirrors request (server.answer reply).wire := by
  have header := (decoded_of_accepted decoded).header
  have written := headerOf_wire (server.answer reply)
  have zero : toBeBytes (0 : U16) = [0, 0] := by decide
  have valid := validHeader_head (server.answer reply)
    (optionBytes (fitting 240 (server.answer reply).options) ++ [endByte])
  rw [← List.append_assoc] at valid
  refine ⟨written.reply.mp rfl, ⟨rfl, rfl⟩, written.hops, written.xid.trans header.xid.symm,
    written.secs.trans zero, ?_, written.siaddr, written.giaddr.trans header.giaddr.symm,
    written.chaddr.trans header.chaddr.symm, names_wire _, valid.cookie, length_wire_le _, ?_⟩
  · rw [broadcastBit_wire, ← broadcast_of_fromBytes decoded]
    rfl
  · rw [Packet.wire, List.getLast?_concat]

theorem tells_of_answer (composed : reply.Composed config)
    (decoded : Packet.fromBytes request = .ok reply.reqPacket) :
    Tells request (server.answer reply).wire reply.msgType reply.offerIp := by
  have header := (decoded_of_accepted decoded).header
  have written := headerOf_wire (server.answer reply)
  refine ⟨?_, written.yiaddr, ?_⟩
  · intro packet accepted kind typed
    by_cases bare : fitting 240 (server.replyOptions reply) = []
    · rw [fromBytes_wire_bare bare] at accepted
      cases accepted
    · have plain : ∀ option ∈ (server.answer reply).options, option.Plain :=
        fun option member => (composed.of_mem member).1
      rw [fromBytes_wire_legible plain bare] at accepted
      cases accepted
      have read := (List.takeWhile_sublist _).subset (messageType_mem typed)
      have listed := (fitting_prefix_self 240 (server.replyOptions reply)).subset read
      exact (composed.of_mem listed).2 kind rfl
  · refine written.ciaddr.trans ?_
    by_cases nak : reply.msgType = .nak
    · simp only [Server.answer, if_pos nak]
    · simp only [Server.answer, if_neg nak, header.ciaddr]

namespace MyServer

variable {store next : MyServer} {now : Instant}

/-- Only a Discover and a Request are answered. -/
theorem Effect.asks (effect : Effect server store packet now next (some reply)) :
    packet.messageType = .ok .discover ∨ packet.messageType = .ok .request := by
  cases effect with
  | heldOffered kind => exact .inl kind
  | freeOffered kind => exact .inl kind
  | heldAcked kind =>
      rcases kind with requested | rapid
      · exact .inr requested
      · exact .inl rapid.1
  | freeAcked kind => exact .inl kind
  | requestAcked kind => exact .inr kind
  | requestRefused kind => exact .inr kind

theorem Effect.offerIp_of_nak (effect : Effect server store packet now next (some reply))
    (nak : reply.msgType = .nak) : reply.offerIp = .unspecified := by
  cases effect with
  | requestRefused => rfl
  | _ => cases nak

end MyServer

namespace Daemon

variable {daemon : Daemon} {initial state : MyServer} {hasher : Hasher Ipv4Addr MyServer.Entry}
variable {file : LeasesFile} {past : List (Handled MyServer (Arrival IoError) Reaction)}

/-- Whatever arrives, the datagrams of a round are one answer to the Discover or
Request in the datagram that came in, for as many of its destinations as can be
sent to. -/
theorem mirrors_of_run (accepted : config.validate = .ok config)
    (loaded : MyServer.main config hasher file = .ok initial)
    (run : Run daemon.round initial past state)
    {handled : Handled MyServer (Arrival IoError) Reaction} (member : handled ∈ past)
    (answered : handled.output.sent ≠ []) :
    ∃ packet wire kind yiaddr dsts,
      Packet.fromBytes handled.input.received = .ok packet ∧
        (packet.messageType = .ok .discover ∨ packet.messageType = .ok .request) ∧
        handled.output.sent = dsts.map (Datagram.mk wire) ∧
        dsts <+: Server.routeDests handled.input.src packet.broadcast yiaddr daemon.broadcasts ∧
        Mirrors handled.input.received wire ∧ Tells handled.input.received wire kind yiaddr ∧
        (kind = .offer ∨ kind = .ack ∨ kind = .nak) ∧
        (kind = .ack → handled.after.HeldBy yiaddr packet.chaddr) ∧
        (kind = .nak → yiaddr = .unspecified ∧ handled.after = handled.before) := by
  rcases run.of_mem member with ⟨earlier, before, stepped⟩
  have offers := offers_of_run accepted loaded before
  have round := round_eq_ok_iff.mp stepped
  generalize handled.after = after at round ⊢
  generalize handled.output = output at round answered ⊢
  cases round with
  | refused => exact absurd rfl answered
  | silent => exact absurd rfl answered
  | @answered packet _ reply decoded served =>
      rcases composed_of_handled offers served with ⟨composed, request⟩
      have effect := MyServer.effect_of_handled offers.valid served
      dsimp only at request effect
      subst request
      refine ⟨reply.reqPacket, _, reply.msgType, reply.offerIp, _, decoded, effect.asks, rfl,
        attempted_prefix_self _ _ _, mirrors_of_answer decoded,
        tells_of_answer composed decoded, composed.kind, effect.heldBy_of_ack offers.valid, ?_⟩
      intro nak
      exact ⟨effect.offerIp_of_nak nak, (effect.refused_of_nak offers.valid nak).2.2⟩

set_option maxRecDepth 10000 in
/-- A client that has no address is offered one. -/
theorem mirrors_of_run_newcomer : ∃ session,
    simulate (serveWithBroadcasts (.new 192 168 2 1) []).round
        (MyServer.main MyServer.twoLeases Hasher.newestFirst none)
        [fromClient newcomer.wire] = .ok session ∧
      ∃ handled ∈ session.past, ∃ wire,
        (∃ dsts : List SocketAddr, handled.output.sent = dsts.map (Datagram.mk wire)) ∧
          Mirrors newcomer.wire wire := by
  have computed : Checked.passes (simulate (serveWithBroadcasts (.new 192 168 2 1) []).round
      (MyServer.main MyServer.twoLeases Hasher.newestFirst none) [fromClient newcomer.wire])
      (fun session => session.past.any fun handled =>
        handled.input.received = newcomer.wire ∧ handled.output.sent ≠ []) = true := by
    decide
  rcases Checked.exists_of_passes computed with ⟨session, simulated, some⟩
  rcases Run.of_simulate simulated with ⟨loaded, run⟩
  rcases List.any_eq_true.mp some with ⟨handled, member, facts⟩
  rcases of_decide_eq_true facts with ⟨received, answered⟩
  rcases mirrors_of_run rfl loaded run member answered with
    ⟨_, wire, _, _, dsts, _, _, sent, _, mirrors, _⟩
  rw [received] at mirrors
  exact ⟨session, simulated, handled, member, wire, ⟨dsts, sent⟩, mirrors⟩

end Daemon

end RustyDhcp
