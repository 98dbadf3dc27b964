import RustyDhcp.Dhcpv6.Upheld
import RustyDhcp.Foundation.Network

/-! # DHCPv6 servers on one network

No server reacts to an Advertise or a Reply, even one that the receive buffer
cuts off. -/

namespace RustyDhcp.Dhcpv6

variable {ι IoError : Type} {configs : ι → Config} {config : Config} {pool next : V6Pool}
variable {arrival : Arrival IoError} {reaction : Reaction}

/-- The servers as machines. A datagram is an echo if its bytes are those of an
answer. -/
def machines (configs : ι → Config) :
    Machines ι V6Pool (Arrival IoError) Reaction Datagram where
  step id := round (configs id)
  sends := Reaction.sent
  carries arrival datagram := datagram.wire = arrival.bytes

/-- The first byte of an answer. -/
def FromServer (bytes : List UInt8) : Prop :=
  bytes.head? = some MsgType.advertise.number ∨ bytes.head? = some MsgType.reply.number

/-! ## First bytes -/

theorem head?_wireOf (packet : Packet) : (wireOf packet).head? = some packet.msgType.number := rfl

theorem head?_of_fromBytes {bytes : List UInt8} {packet : Packet}
    (decoded : Packet.fromBytes bytes = .ok packet) :
    bytes.head? = some packet.msgType.number := by
  rcases fromBytes_eq_ok_iff.mp decoded with ⟨_, fields, _, _, rfl⟩
  rfl

theorem number_injective {left right : MsgType} (same : left.number = right.number) :
    left = right := by
  have read := MsgType.fromByte_eq_ok_iff.mpr (Eq.refl left.number)
  rw [MsgType.fromByte_eq_ok_iff.mpr same] at read
  exact (Except.ok.inj read).symm

/-- What begins like an answer is decoded to an answer, if at all. -/
theorem msgType_of_fromServer {bytes : List UInt8} {packet : Packet} (server : FromServer bytes)
    (decoded : Packet.fromBytes (bytes.take 1500) = .ok packet) :
    packet.msgType = .advertise ∨ packet.msgType = .reply := by
  have first := head?_of_fromBytes decoded
  rw [List.head?_take, if_neg (by decide)] at first
  rcases server with advertise | reply
  · rw [advertise, Option.some.injEq] at first
    exact .inl (number_injective first.symm)
  · rw [reply, Option.some.injEq] at first
    exact .inr (number_injective first.symm)

theorem fromServer_of_round (serves : Serves config pool)
    (done : Round config pool arrival next reaction) :
    ∀ datagram ∈ reaction.sent, FromServer datagram.wire := by
  intro datagram sent
  cases done with
  | malformed => cases sent
  | unanswered => cases sent
  | answered _ served =>
      rcases Sent.of_datagram (Option.mem_toList.mp sent) with ⟨_, rfl⟩
      rcases (handling_of_served serves served).upheld with ⟨_, _, asks, _⟩
      rw [FromServer, head?_wireOf]
      rcases asks.msgType with advertise | reply
      · exact .inl (by rw [advertise])
      · exact .inr (by rw [reply])

theorem serveV6_of_answer (received : Received)
    (answer : received.packet.msgType = .advertise ∨ received.packet.msgType = .reply) :
    serveV6 config pool received = .ok (pool, none) := by
  rw [serveV6]
  cases received.packet.clientDuid with
  | none => rfl
  | some duid =>
      rcases answer with advertise | reply
      · simp only [advertise]
      · simp only [reply]

/-- What begins like an answer changes nothing. -/
theorem round_of_fromServer (server : FromServer arrival.bytes) : ∃ reaction,
    round config pool arrival = .ok (pool, reaction) ∧ reaction.sent = [] := by
  rw [round]
  rcases fromBytes_returns arrival.received with ⟨packet, decoded⟩ | ⟨error, refused⟩
  · rw [decoded]
    simp only [serveV6_of_answer (arrival.carrying packet) (msgType_of_fromServer server decoded),
      Checked.bind_ok]
    exact ⟨_, rfl, rfl⟩
  · rw [refused]
    exact ⟨_, rfl, rfl⟩

/-! ## Networks -/

theorem lawful_machines : Machines.Lawful (@machines ι IoError configs)
    (fun id => Serves (configs id)) (fun datagram => FromServer datagram.wire) where
  keeps serves done := (round_of_round done).serves serves
  sends serves done := fromServer_of_round serves (round_of_round done)

theorem inert_machines : Machines.Inert (@machines ι IoError configs)
    (fun id => Serves (configs id)) (fun datagram => FromServer datagram.wire) := by
  intro id pool arrival datagram _ server echo
  have same : datagram.wire = arrival.bytes := of_decide_eq_true echo
  exact round_of_fromServer (same ▸ server)

theorem mute_machines : Machines.Mute (@machines ι IoError configs) (fun id => Serves (configs id))
    (fun datagram => FromServer datagram.wire) := by
  intro id pool arrival datagram next reaction serves server echo done
  rcases inert_machines serves server echo with ⟨output, unchanged, nothing⟩
  cases unchanged.symm.trans done
  exact nothing

theorem length_sent_le_one (done : Round config pool arrival next reaction) :
    reaction.sent.length ≤ 1 := by
  cases done with
  | malformed => exact Nat.zero_le _
  | unanswered => exact Nat.zero_le _
  | answered => exact length_sent_handled_le _

variable [DecidableEq ι] {pools : ι → V6Pool} {hashers : ι → Hasher Ipv6Addr V6Pool.Entry}
variable {files : ι → LeasesFile} {final : Network ι V6Pool Datagram}
variable {past : List (Delivered ι V6Pool (Arrival IoError) Reaction Datagram)}

/-- The servers get to the same states and send the same datagrams without the
echoes among what reaches them, and they send no more of them than clients have
sent. -/
theorem answers_erased
    (started : ∀ id, startPool (configs id) (hashers id) (files id) = .ok (pools id))
    (run : Run (machines configs).deliver (Machines.started pools) past final) :
    Run (machines configs).deliver (Machines.started pools)
        (past.filter fun delivered => !(machines configs).isEcho delivered) final ∧
      final.sent.length ≤
        (past.filter fun delivered => !(machines configs).isEcho delivered).length := by
  have serves : ∀ id, Serves (configs id) (pools id) := fun id => serves_of_started (started id)
  constructor
  · exact (Machines.run_without_echoes lawful_machines inert_machines
      (Machines.sound_started serves) run).1
  · have bound : final.sent.length ≤ (past.filter fun delivered =>
        !(machines configs).isEcho delivered).length * 1 := by
      refine Machines.length_sent_le_mul lawful_machines mute_machines serves ?_ run
      intro id pool arrival next reaction serves done
      exact length_sent_le_one (round_of_round done)
    rw [Nat.mul_one] at bound
    exact bound

/-! ## Two servers -/

def twinMachines : Machines Bool V6Pool (Arrival String) Reaction Datagram :=
  machines fun _ => twoAddressConfig

def twins : Network Bool V6Pool Datagram :=
  Machines.started fun _ => emptyPool twoAddressConfig Hasher.newestFirst

/-- The Advertise of one server reaches both of them. -/
def looped : List (Delivery Bool (Arrival String)) :=
  let solicits : Arrival String := .ofPacket solicitation 0
  let offered := (emptyPool twoAddressConfig Hasher.newestFirst).address 1
  let answer := success twoAddressConfig [7, 1] (solicits.carrying solicitation) .advertise
    offered
  let advertise := Arrival.ofPacket answer.packet 1
  [⟨true, solicits⟩, ⟨true, advertise⟩, ⟨false, advertise⟩]

theorem looped_passes : Checked.passes (simulate twinMachines.deliver (.ok twins) looped)
    (fun session => session.past.countP twinMachines.isEcho = 2) = true := by
  decide

theorem answers_erased_looped : ∃ session,
    simulate twinMachines.deliver (.ok twins) looped = .ok session ∧
      session.past.countP twinMachines.isEcho = 2 ∧ session.state.sent.length ≤
        (session.past.filter fun delivered => !twinMachines.isEcho delivered).length := by
  rcases Checked.exists_of_passes looped_passes with ⟨session, simulated, counted⟩
  rcases Run.of_simulate simulated with ⟨begun, run⟩
  rw [← Except.ok.inj begun] at run
  have started : ∀ _ : Bool, startPool twoAddressConfig Hasher.newestFirst none =
      .ok (emptyPool twoAddressConfig Hasher.newestFirst) := fun _ => rfl
  exact ⟨session, simulated, of_decide_eq_true counted, (answers_erased started run).2⟩

end RustyDhcp.Dhcpv6
