import RustyDhcp.Dhcpv6.Daemon
import RustyDhcp.Foundation.OpenAddress

/-! # Answers that the DHCPv6 server keeps to

Who asks is answered, and the leases are as the answer says. -/

namespace RustyDhcp.Dhcpv6

variable {config : Config} {pool next : V6Pool} {received : Received} {duid : Duid}

/-! ## What an answer says -/

/-- An answer against the packet that it answers, with the association in it. -/
structure Reflects (config : Config) (packet : Packet) (duid : Duid) (answer : Packet)
    (ia : IaNa) : Prop where
  transactionId : answer.transactionId = packet.transactionId
  server : isForServer config.serverDuid answer = true
  client : answer.clientDuid = some duid
  association : answer.firstIana = some ia
  iaid : ia.iaid = (packet.firstIana.map IaNa.iaid).getD 0
  times : ia.t1 ≤ ia.t2 ∧ ∀ leased ∈ ia.addrs, ia.t2 ≤ leased.preferred ∧
    leased.preferred = leased.valid ∧ leased.valid = config.ipv6LeaseDurationSecs

theorem defaultT1T2_ordered (leaseSecs : U32) :
    (defaultT1T2 leaseSecs).1 ≤ (defaultT1T2 leaseSecs).2 ∧
      (defaultT1T2 leaseSecs).2 ≤ leaseSecs := by
  have bound := leaseSecs.isLt
  have eighth : leaseSecs / 8 ≤ leaseSecs := by
    rw [BitVec.le_def, BitVec.toNat_udiv]
    exact Nat.div_le_self _ _
  have half : (leaseSecs / 2).toNat = leaseSecs.toNat / 2 := BitVec.toNat_udiv
  have part : (leaseSecs / 8).toNat = leaseSecs.toNat / 8 := BitVec.toNat_udiv
  rw [defaultT1T2, BitVec.le_def, BitVec.le_def, BitVec.toNat_sub_of_le eighth, half, part]
  omega

theorem reflects_success {msgType : MsgType} {ip : Ipv6Addr} : ∃ ia,
    ia.addrs = [⟨ip, config.ipv6LeaseDurationSecs, config.ipv6LeaseDurationSecs⟩] ∧
      Reflects config received.packet duid (success config duid received msgType ip).packet ia := by
  have ordered := defaultT1T2_ordered config.ipv6LeaseDurationSecs
  refine ⟨_, rfl, rfl, ?_, rfl, rfl, rfl, ordered.1, ?_⟩
  · exact decide_eq_true rfl
  · intro leased member
    rw [List.mem_singleton] at member
    rw [member]
    exact ⟨ordered.2, rfl, rfl⟩

theorem reflects_failure {msgType : MsgType} : ∃ ia, ia.addrs = [] ∧
    Reflects config received.packet duid (failure config duid received msgType).packet ia := by
  refine ⟨_, rfl, rfl, ?_, rfl, rfl, rfl, ?_, ?_⟩
  · exact decide_eq_true rfl
  · exact BitVec.le_refl _
  · intro leased member
    cases member

/-- What the answer says about a lease is so. -/
inductive Upheld (pool : V6Pool) (received : Received) (duid : Duid) (answer : Packet)
    (ia : IaNa) : V6Pool → Prop
  | lease {next leased} :
      ia.addrs = [leased] → ¬answer.Refuses → ¬Nothing pool received duid →
      (answer.msgType = .reply → next.HeldBy leased.addr duid) →
      (answer.msgType = .advertise → next.leases = pool.leases) →
      Upheld pool received duid answer ia next
  | refusal :
      ia.addrs = [] → answer.Refuses → Nothing pool received duid →
      Upheld pool received duid answer ia pool

theorem Handling.upheld {answer : Sent} (handling : Handling config pool received next
      (some answer)) : ∃ duid ia, Asks config received.packet duid answer.packet.msgType ∧
    Reflects config received.packet duid answer.packet ia ∧
      Upheld pool received duid answer.packet ia next ∧ answer.dst = received.src := by
  cases handling with
  | @granted next duid msgType ip event asks something happens shown granted =>
      rcases reflects_success with ⟨ia, addrs, reflects⟩
      refine ⟨_, ia, asks, reflects, .lease addrs not_refuses_success something ?_ ?_, rfl⟩
      · intro reply
        have kind : msgType = .reply := reply
        rw [if_pos kind] at granted
        exact V6Pool.leases_heldBy_iff.mp (happens.step.heldBy_of_granted granted)
      · intro advertise
        have kind : msgType ≠ .reply := by
          intro reply
          cases reply.symm.trans advertise
        rw [if_neg kind] at granted
        exact happens.step.eq_of_not_granted shown granted
  | refused asks nothing =>
      rcases reflects_failure with ⟨ia, addrs, reflects⟩
      exact ⟨_, ia, asks, reflects, .refusal addrs refuses_failure nothing, rfl⟩

theorem Handling.typed {answer : Sent} (handling : Handling config pool received next
      (some answer)) : ∀ option ∈ answer.packet.options, option.Typed := by
  cases handling with
  | granted => exact typed_success
  | refused => exact typed_failure

/-- A refusal can always be written. -/
theorem Handling.encodable_iff {answer : Sent} (handling : Handling config pool received next
      (some answer)) (accepted : config.validate = .ok config)
    (client : received.packet.clientDuid = some duid) (short : duid.length ≤ 0xFFFF) :
    Encodable answer.packet ↔ config.ipv6Dns.length ≤ 4095 ∨ Nothing pool received duid := by
  cases handling with
  | granted asks something =>
      cases client.symm.trans asks.clientDuid
      rw [encodable_success_iff accepted short, or_iff_left something]
  | refused asks nothing =>
      cases client.symm.trans asks.clientDuid
      exact iff_of_true (encodable_failure accepted short) (.inr nothing)

theorem length_sent_handled_le (sent : Option Datagram) :
    (Reaction.handled sent).sent.length ≤ 1 := by
  cases sent with
  | none => exact Nat.zero_le _
  | some => exact Nat.le_refl 1

theorem sent_datagram_ne_nil_iff {outcome : Except IoError Nat} {answer : Sent} :
    (Reaction.handled (answer.datagram outcome)).sent ≠ [] ↔
      Encodable answer.packet ∧ outcome.isOk := by
  rw [Sent.datagram]
  split
  · rename_i possible
    exact iff_of_true (List.cons_ne_nil _ _) possible
  · rename_i impossible
    exact iff_of_false (fun sent => sent rfl) impossible

/-! ## Whole runs -/

variable {hasher : Hasher Ipv6Addr V6Pool.Entry} {file : LeasesFile} {initial state : V6Pool}
variable {past : List (Handled V6Pool (Arrival IoError) Reaction)}

theorem serves_of_rounds (started : startPool config hasher file = .ok initial)
    (run : Run (round config) initial past state) : Serves config state :=
  run.invariant (serves_of_started started) fun before done => (round_of_round done).serves before

/-- The daemon goes on whatever arrives. A datagram gets one answer or none. It
gets one if it holds a packet that asks for it, unless the name servers do not fit
into a packet that announces a lease, or the socket does not send it. -/
theorem answered_iff_of_run (accepted : config.validate = .ok config)
    (started : startPool config hasher file = .ok initial)
    (run : Run (round config) initial past state) :
    (∀ arrival : Arrival IoError, ∃ result, round config state arrival = .ok result) ∧
      ∀ handled ∈ past, handled.output.sent.length ≤ 1 ∧
        (handled.output.sent ≠ [] ↔ handled.input.outcome.isOk ∧ ∃ packet duid msgType,
          Packet.fromBytes handled.input.received = .ok packet ∧
            Asks config packet duid msgType ∧ (config.ipv6Dns.length ≤ 4095 ∨
              Nothing handled.before (handled.input.carrying packet) duid)) := by
  refine ⟨round_ends (serves_of_rounds started run), ?_⟩
  intro handled member
  rcases run.of_mem member with ⟨earlier, before, stepped⟩
  have serves := serves_of_rounds started before
  have done := round_of_round stepped
  generalize handled.after = after at done
  generalize handled.output = output at done ⊢
  cases done with
  | malformed refused =>
      refine ⟨Nat.zero_le _, ?_⟩
      constructor
      · exact fun sent => absurd rfl sent
      · intro found
        rcases found with ⟨_, packet, _, _, decoded, _⟩
        cases refused.symm.trans decoded
  | @unanswered packet _ decoded served =>
      refine ⟨Nat.zero_le _, ?_⟩
      constructor
      · exact fun sent => absurd rfl sent
      · intro found
        rcases found with ⟨_, other, duid, msgType, same, asks, _⟩
        cases decoded.symm.trans same
        cases handling_of_served serves served with
        | unanswered unasked => exact absurd asks (unasked duid msgType)
  | @answered packet _ answer decoded served =>
      have handling := handling_of_served serves served
      rcases handling.upheld with ⟨duid, ia, asks, _⟩
      have written := handling.encodable_iff accepted asks.clientDuid
        (clientDuid_short decoded asks.clientDuid)
      refine ⟨length_sent_handled_le _, ?_⟩
      rw [sent_datagram_ne_nil_iff, written, and_comm]
      constructor
      · exact fun possible => ⟨possible.1, packet, duid, _, decoded, asks, possible.2⟩
      · intro found
        rcases found with ⟨delivered, other, owner, msgType, same, others, fits⟩
        cases decoded.symm.trans same
        cases asks.clientDuid.symm.trans others.clientDuid
        exact ⟨delivered, fits⟩

/-- A packet on its way to the daemon, which can answer it. -/
def Arrival.ofPacket (packet : Packet) (now : Reading) : Arrival IoError where
  bytes := wireOf packet
  src := .v6 .unspecified 546
  discovered := now
  requested := now
  ordered := Fin.le_refl now
  outcome := .ok 0

def solicitation : Packet :=
  ⟨.solicit, 0x070102, [.clientId [7, 1], .iaNa ⟨9, 0, 0, []⟩]⟩

/-- A Solicit, the same one cut off, and once more when the network is down. -/
def threeArrivals : List (Arrival String) :=
  let repeated : Arrival String := .ofPacket solicitation 5
  [.ofPacket solicitation 0, { repeated with bytes := [1, 7, 1] },
    { repeated with outcome := .error "unreachable" }]

theorem twoAddressConfig_accepted : twoAddressConfig.validate = .ok twoAddressConfig := by decide

theorem threeArrivals_pass : Checked.passes (simulate (round twoAddressConfig)
    (startPool twoAddressConfig Hasher.newestFirst none) threeArrivals)
    (fun session => session.past.map (fun handled => handled.output.sent.length) = [0, 0, 1]) =
    true := by decide

theorem answered_iff_of_run_solicitation : ∃ session, simulate (round twoAddressConfig)
    (startPool twoAddressConfig Hasher.newestFirst none) threeArrivals = .ok session ∧
      session.past.map (fun handled => handled.output.sent.length) = [0, 0, 1] ∧
        (∀ arrival : Arrival String, ∃ result,
          round twoAddressConfig session.state arrival = .ok result) ∧
        ∃ handled ∈ session.past, handled.input.outcome.isOk ∧ ∃ packet duid msgType,
          Packet.fromBytes handled.input.received = .ok packet ∧
            Asks twoAddressConfig packet duid msgType := by
  rcases Checked.exists_of_passes threeArrivals_pass with ⟨session, simulated, lengths⟩
  rcases Run.of_simulate simulated with ⟨started, run⟩
  rcases answered_iff_of_run twoAddressConfig_accepted started run with ⟨goesOn, answered⟩
  have some : 1 ∈ session.past.map fun handled => handled.output.sent.length := by
    rw [of_decide_eq_true lengths]
    decide
  rcases List.mem_map.mp some with ⟨handled, member, one⟩
  have sent : handled.output.sent ≠ [] := List.ne_nil_of_length_eq_add_one one
  rcases (answered handled member).2.mp sent with
    ⟨delivered, packet, duid, msgType, decoded, asks, _⟩
  exact ⟨session, simulated, of_decide_eq_true lengths, goesOn, handled, member, delivered,
    packet, duid, msgType, decoded, asks⟩

/-- What the client reads is an answer to what it sent, and the server keeps to
it. -/
theorem upheld_of_run (started : startPool config hasher file = .ok initial)
    (run : Run (round config) initial past state)
    {handled : Handled V6Pool (Arrival IoError) Reaction}
    (member : handled ∈ past) {datagram : Datagram} (sent : datagram ∈ handled.output.sent) :
    ∃ packet answer duid ia, Packet.fromBytes handled.input.received = .ok packet ∧
      Packet.fromBytes datagram.wire = .ok answer ∧ datagram.dst = handled.input.src ∧
        Asks config packet duid answer.msgType ∧ Reflects config packet duid answer ia ∧
          Upheld handled.before (handled.input.carrying packet) duid answer ia
            handled.after := by
  rcases run.of_mem member with ⟨earlier, before, stepped⟩
  have serves := serves_of_rounds started before
  have done := round_of_round stepped
  generalize handled.after = after at done ⊢
  generalize handled.output = output at done sent
  cases done with
  | malformed => cases sent
  | unanswered => cases sent
  | @answered packet _ answer decoded served =>
      have handling := handling_of_served serves served
      rcases Sent.of_datagram (Option.mem_toList.mp sent) with ⟨encodable, rfl⟩
      rcases handling.upheld with ⟨duid, ia, asks, reflects, upheld, src⟩
      have small := (fromBytes_eq_ok_iff.mp decoded).1
      have read := fromBytes_encode (reflects.transactionId ▸ small) handling.typed
        (encode_eq_ok_iff.mpr ⟨encodable, rfl⟩)
      exact ⟨packet, answer.packet, duid, ia, decoded, read, src, asks, reflects, upheld⟩

theorem upheld_of_run_solicitation : ∃ session, simulate (round twoAddressConfig)
    (startPool twoAddressConfig Hasher.newestFirst none) threeArrivals = .ok session ∧
      ∃ handled ∈ session.past, ∃ datagram ∈ handled.output.sent, ∃ packet answer duid ia,
        Packet.fromBytes handled.input.received = .ok packet ∧
          Packet.fromBytes datagram.wire = .ok answer ∧
            Reflects twoAddressConfig packet duid answer ia := by
  rcases Checked.exists_of_passes threeArrivals_pass with ⟨session, simulated, lengths⟩
  rcases Run.of_simulate simulated with ⟨started, run⟩
  have some : 1 ∈ session.past.map fun handled => handled.output.sent.length := by
    rw [of_decide_eq_true lengths]
    decide
  rcases List.mem_map.mp some with ⟨handled, member, one⟩
  rcases List.length_eq_one_iff.mp one with ⟨datagram, sent⟩
  have listed : datagram ∈ handled.output.sent := by rw [sent]; exact List.mem_cons_self
  rcases upheld_of_run started run member listed with
    ⟨packet, answer, duid, ia, decoded, read, _, _, reflects, _⟩
  exact ⟨session, simulated, handled, member, datagram, listed, packet, answer, duid, ia,
    decoded, read, reflects⟩

end RustyDhcp.Dhcpv6
