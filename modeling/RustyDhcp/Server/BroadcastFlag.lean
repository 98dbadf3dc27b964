import RustyDhcp.Packet.RoundTrip
import RustyDhcp.Server.Send

/-! # The broadcast flag of a client

The flag is the top bit of the flags. The encoder sets that bit, and the decoder
looks at the top bit of the other byte. -/

namespace RustyDhcp

/-- The broadcast flag of a datagram, the top bit of its byte 10. -/
def broadcastBit (bytes : List UInt8) : Prop := 128 ≤ (bytes.getD 10 0).toNat

instance (bytes : List UInt8) : Decidable (broadcastBit bytes) :=
  inferInstanceAs (Decidable (128 ≤ (bytes.getD 10 0).toNat))

/-- The top bit of byte 11, which has no meaning. -/
def reservedBit (bytes : List UInt8) : Prop := 128 ≤ (bytes.getD 11 0).toNat

instance (bytes : List UInt8) : Decidable (reservedBit bytes) :=
  inferInstanceAs (Decidable (128 ≤ (bytes.getD 11 0).toNat))

/-- Where a reply has to go that answers a datagram of a peer with an address. -/
def plannedDests (endpoint : Endpoint) (datagram : List UInt8) : List SocketAddr :=
  if broadcastBit datagram then endpoint.broadcasts.map endpoint.src.setIp else [endpoint.src]

/-- A reply goes where the flag of the datagram wants it, up to the first
destination that fails, and has the flag of the datagram. -/
structure HonoursFlag {IoError : Type} (endpoint : Endpoint) (outcome : Nat → Except IoError Nat)
    (datagram wire : List UInt8) (dsts : List SocketAddr) : Prop where
  dests : dsts = attempted outcome 0 (plannedDests endpoint datagram)
  flag : broadcastBit wire ↔ broadcastBit datagram

/-! ## Flags -/

theorem and_bit7_iff (high low : UInt8) :
    ofBeBytes 16 [high, low] &&& 128 = 128 ↔ 128 ≤ low.toNat := by
  have highSmall := high.toNat_lt
  have lowSmall := low.toNat_lt
  have value : (ofBeBytes 16 [high, low]).toNat = high.toNat * 256 + low.toNat := by
    simp only [ofBeBytes, ofBigEndian, List.foldl_cons, List.foldl_nil, BitVec.toNat_ofNat]
    omega
  have mask : (128 : BitVec 16) = .twoPow 16 7 := rfl
  rw [BitVec.and_comm, mask, BitVec.twoPow_and, ← BitVec.testBit_toNat, value,
    Nat.testBit_eq_decide_div_mod_eq]
  by_cases large : 128 ≤ low.toNat
  · have bit : (high.toNat * 256 + low.toNat) / 2 ^ 7 % 2 = 1 := by omega
    rw [decide_eq_true bit, if_pos rfl]
    exact iff_of_true rfl large
  · have bit : (high.toNat * 256 + low.toNat) / 2 ^ 7 % 2 ≠ 1 := by omega
    rw [decide_eq_false bit, if_neg Bool.false_ne_true]
    exact iff_of_false (by decide) large

theorem broadcast_of_fromBytes {datagram : List UInt8} {packet : Packet}
    (decoded : Packet.fromBytes datagram = .ok packet) :
    packet.broadcast = true ↔ reservedBit datagram := by
  rcases fromBytes_eq_ok_iff.mp decoded with ⟨valid, options, _, rfl⟩
  have flags : (datagram.drop 10).take 2 = [datagram.getD 10 0, datagram.getD 11 0] := by
    have long := valid.long
    have high : datagram[10]? = some datagram[10] := List.getElem?_eq_getElem (by omega)
    have low : datagram[11]? = some datagram[11] := List.getElem?_eq_getElem (by omega)
    rw [List.drop_eq_getElem_cons (by omega), List.drop_eq_getElem_cons (by omega),
      List.getD_eq_getElem?_getD, List.getD_eq_getElem?_getD, high, low]
    rfl
  rw [Packet.ofHeader, decide_eq_true_iff, flags, and_bit7_iff, reservedBit]

theorem broadcastBit_wire (packet : Packet) :
    broadcastBit packet.wire ↔ packet.broadcast = true := by
  have byte : packet.wire.getD 10 0 = if packet.broadcast then 128 else 0 := by
    rcases exists_four packet.xid with ⟨_, _, _, _, xid, _⟩
    rcases exists_two packet.secs with ⟨_, _, secs, _⟩
    simp only [Packet.wire, Packet.head, xid, secs, List.cons_append, List.nil_append]
    rfl
  rw [broadcastBit, byte]
  cases packet.broadcast <;> decide

/-! ## Replies -/

theorem routeDests_of_specified {peer : SocketAddr} (specified : peer.isUnspecified = false)
    (broadcast : Bool) (yiaddr : Ipv4Addr) (broadcasts : List Ipv4Addr) :
    Server.routeDests peer broadcast yiaddr broadcasts =
      if broadcast then broadcasts.map peer.setIp else [peer] := by
  rw [Server.routeDests, specified]
  cases broadcast <;> simp

variable {IoError : Type} {endpoint : Endpoint} {datagram : List UInt8} {reply : Reply}

/-- The reply has the flag that the decoder found, and goes where that flag wants
it. -/
theorem reply_eq (specified : endpoint.src.isUnspecified = false)
    (outcome : Nat → Except IoError Nat) :
    ∃ packet result, endpoint.replyPacket reply = .ok packet ∧
      (broadcastBit packet.wire ↔ reply.reqPacket.broadcast = true) ∧
        endpoint.reply outcome reply = .ok ((attempted outcome 0
          (if reply.reqPacket.broadcast then endpoint.broadcasts.map endpoint.src.setIp
            else [endpoint.src])).map (Datagram.mk packet.wire), result) := by
  rcases replyPacket_eq endpoint.toServer reply with ⟨packet, built, _, broadcast⟩
  rcases send_eq endpoint outcome packet with ⟨result, sent⟩
  rw [routeDests_of_specified specified, broadcast] at sent
  refine ⟨packet, result, built, ?_, ?_⟩
  · rw [broadcastBit_wire, broadcast]
  · rw [Endpoint.reply, built, Checked.bind_ok, sent]

/-- The flag is honoured exactly when the two bytes of the flags agree in their
top bits. -/
theorem honoursFlag_iff (specified : endpoint.src.isUnspecified = false)
    (decoded : Packet.fromBytes datagram = .ok reply.reqPacket)
    (outcome : Nat → Except IoError Nat) :
    ∃ packet wire after dsts result, endpoint.replyPacket reply = .ok packet ∧
      packet.encode (List.replicate wireMax 0) = .ok (wire, after) ∧
        endpoint.reply outcome reply = .ok (dsts.map (Datagram.mk wire), result) ∧
          (HonoursFlag endpoint outcome datagram wire dsts ↔
            (broadcastBit datagram ↔ reservedBit datagram)) := by
  have room : wireMax ≤ (List.replicate wireMax (0 : UInt8)).length := by rw [List.length_replicate]
  rcases reply_eq specified outcome with ⟨packet, result, built, flag, sent⟩
  rw [broadcast_of_fromBytes decoded] at flag
  refine ⟨packet, _, _, _, result, built, encode_eq packet room, sent, ?_⟩
  constructor
  · intro honours
    rw [← honours.flag, flag]
  · intro agree
    refine ⟨?_, by rw [flag, agree]⟩
    simp only [plannedDests, broadcast_of_fromBytes decoded, agree]

/-- A server of which the peer has the address 192.168.2.9. -/
def sourced : Endpoint where
  serverIp := .new 192 168 2 1
  src := .v4 (.new 192 168 2 9) 68
  broadcasts := [.new 192 168 2 255]

/-- A client that has an address, and whether it wants its answer broadcast. -/
def discovering (broadcast : Bool) : Packet :=
  { Packet.ofClient #v[1, 2, 3, 4, 6, 2] [.dhcpMessageType .discover] with broadcast := broadcast }

theorem fromBytes_discovering (broadcast : Bool) :
    Packet.fromBytes (discovering broadcast).wire = .ok (discovering false) := by
  have small : (optionBytes [.dhcpMessageType .discover]).length ≤ 59 := by decide
  apply fromBytes_whole _ (List.cons_ne_nil _ _) small
  simp [discovering, Packet.ofClient, DhcpOption.Readable]

/-- An offer that answers such a client. -/
def offered : Reply := ⟨.offer, [], .new 192 168 2 3, discovering false⟩

/-- A client that does not want a broadcast gets none. -/
theorem honoursFlag_iff_unicast : ∃ packet wire after dsts result,
    sourced.replyPacket offered = .ok packet ∧
      packet.encode (List.replicate wireMax 0) = .ok (wire, after) ∧
        sourced.reply (fun _ => .ok 300 : Nat → Except Unit Nat) offered =
          .ok (dsts.map (Datagram.mk wire), result) ∧
            (HonoursFlag sourced (fun _ => .ok 300 : Nat → Except Unit Nat)
              (discovering false).wire wire dsts ↔
                (broadcastBit (discovering false).wire ↔ reservedBit (discovering false).wire)) :=
  honoursFlag_iff rfl (fromBytes_discovering false) _

/-- The flag of a client that wants a broadcast goes unnoticed. -/
theorem broadcast_ignored : sourced.src.isUnspecified = false ∧
    broadcastBit (discovering true).wire ∧
      Packet.fromBytes (discovering true).wire = .ok offered.reqPacket ∧
        ∃ wire result, sourced.reply (fun _ => .ok 300 : Nat → Except Unit Nat) offered =
          .ok ([⟨wire, sourced.src⟩], result) ∧ ¬broadcastBit wire ∧
            ¬HonoursFlag sourced (fun _ => .ok 300 : Nat → Except Unit Nat)
              (discovering true).wire wire [sourced.src] := by
  have flagged : broadcastBit (discovering true).wire := (broadcastBit_wire _).mpr rfl
  have specified : sourced.src.isUnspecified = false := rfl
  rcases @reply_eq Unit sourced offered specified (fun _ => .ok 300) with
    ⟨packet, result, _, flag, sent⟩
  have silent : ¬broadcastBit packet.wire := by
    rw [flag]
    exact Bool.false_ne_true
  refine ⟨specified, flagged, fromBytes_discovering true, packet.wire, result, sent, silent, ?_⟩
  intro honours
  exact silent (honours.flag.mpr flagged)

end RustyDhcp
