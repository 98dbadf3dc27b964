import RustyDhcp.Dhcpv6.Offers
import RustyDhcp.Dhcpv6.RoundTrip
import RustyDhcp.Server.Send

/-! # The DHCPv6 daemon

A round of the serving loop takes a datagram from the socket, serves the packet in
it and sends the answer back to where the datagram came from. -/

namespace RustyDhcp.Dhcpv6

/-- A datagram with its sender, the clock readings that a `discover` and a `request`
made for it take, and what the socket says to the attempt to send an answer. -/
structure Arrival (IoError : Type) where
  bytes : List UInt8
  src : SocketAddr
  discovered : Reading
  requested : Reading
  ordered : discovered ≤ requested
  outcome : Except IoError Nat

/-- What fits into the receive buffer. -/
def Arrival.received (arrival : Arrival IoError) : List UInt8 := arrival.bytes.take 1500

def Arrival.carrying (arrival : Arrival IoError) (packet : Packet) : Received :=
  { arrival with packet := packet }

/-- What is printed about a datagram that cannot be decoded. -/
def malformedNote (length : Nat) : String :=
  "v6 ignoring malformed datagram (" ++ toString length ++ " bytes)"

inductive Reaction where
  | noted (text : String)
  | handled (sent : Option Datagram)
deriving DecidableEq

/-- The datagram that is sent. -/
def Reaction.sent : Reaction → List Datagram
  | .noted _ => []
  | .handled sent => sent.toList

/-- The end of `send_v6` and `send_v6_nodata`. Their caller ignores that a packet
is too large for the encoder, or that the socket does not send it. -/
def transmit (outcome : Except IoError Nat) (answer : Sent) : Checked (Option Datagram) :=
  match answer.packet.encode with
  | .ok wire =>
      match outcome with
      | .ok _ => .ok (some ⟨wire, answer.dst⟩)
      | .error _ => .ok none
  | .error (.refused _) => .ok none
  | .error (.panic reason) => .error reason
  -- The encoder has no loop that could go on forever.
  | .error .endless => .error .assertionFailed

/-- A round of the loop of `serve_v6`. -/
def round (config : Config) (pool : V6Pool) (arrival : Arrival IoError) :
    Checked (V6Pool × Reaction) :=
  match Packet.fromBytes arrival.received with
  | .ok packet => do
      let (pool, answer) ← serveV6 config pool (arrival.carrying packet)
      match answer with
      | none => return (pool, .handled none)
      | some answer => return (pool, .handled (← transmit arrival.outcome answer))
  | .error (.refused _) => .ok (pool, .noted (malformedNote arrival.received.length))
  | .error (.panic reason) => .error reason
  -- The rounds of the decoder are always enough.
  | .error .endless => .error .assertionFailed

/-! ## Which packets are answered -/

/-- The client is answered with a packet of this type. -/
inductive Asks (config : Config) (packet : Packet) : Duid → MsgType → Prop
  | solicit {duid} : packet.clientDuid = some duid → packet.msgType = .solicit →
      Asks config packet duid (solicitType config packet)
  | request {duid addr} : packet.clientDuid = some duid →
      packet.msgType ∈ [.request, .renew, .rebind] → packet.wanted = some addr →
      Asks config packet duid .reply

/-- There is nothing to lease to the client: it has no address, and the one that
it names, or any one if it solicits, is not available. -/
def Nothing (pool : V6Pool) (received : Received) (duid : Duid) : Prop :=
  pool.current duid = none ∧
    if received.packet.msgType = .solicit then
      ∀ addr, pool.available duid addr received.discovered = false
    else ∀ addr, received.packet.wanted = some addr →
      pool.available duid addr received.requested = false

/-- What serving a packet does to the leases. -/
structure Happens (config : Config) (pool : V6Pool) (received : Received)
    (event : LeaseTable.Event Ipv6Addr Duid) (next : V6Pool) : Prop where
  step : LeaseTable.Step (V6Pool.Takeable received.requested)
    (received.requested + pool.leaseDuration) pool.leases event next.leases
  released : event.released = releases config received.packet
  inRange : next.inRange = pool.inRange

/-- How a packet is served. -/
inductive Handling (config : Config) (pool : V6Pool) (received : Received) :
    V6Pool → Option Sent → Prop
  | unanswered {next event} :
      (∀ duid msgType, ¬Asks config received.packet duid msgType) →
      Happens config pool received event next → event.shown = none →
      Handling config pool received next none
  | granted {next duid msgType ip event} :
      Asks config received.packet duid msgType → ¬Nothing pool received duid →
      Happens config pool received event next → event.shown = some (duid, ip) →
      (event.granted = if msgType = .reply then some (duid, ip) else none) →
      (pool.HeldBy ip duid ∨ pool.inRange ip = true) →
      Handling config pool received next (some (success config duid received msgType ip))
  | refused {duid msgType} :
      Asks config received.packet duid msgType → Nothing pool received duid →
      Handling config pool received pool (some (failure config duid received msgType))

variable {config : Config} {pool next : V6Pool} {received : Received} {duid : Duid}
variable {sent : Option Sent}

theorem Asks.clientDuid {packet : Packet} {msgType : MsgType}
    (asks : Asks config packet duid msgType) : packet.clientDuid = some duid := by
  cases asks with
  | solicit client => exact client
  | request client => exact client

theorem Asks.kind {packet : Packet} {msgType : MsgType} (asks : Asks config packet duid msgType) :
    packet.msgType ∈ [.solicit, .request, .renew, .rebind] := by
  cases asks with
  | solicit _ kind =>
      rw [kind]
      exact List.mem_cons_self
  | request _ kind => exact List.mem_cons_of_mem _ kind

theorem Asks.msgType {packet : Packet} {msgType : MsgType}
    (asks : Asks config packet duid msgType) : msgType = .advertise ∨ msgType = .reply := by
  cases asks with
  | solicit =>
      rw [solicitType]
      cases asksRapid config packet with
      | false => exact .inl rfl
      | true => exact .inr rfl
  | request => exact .inr rfl

theorem Asks.releases_eq_none {packet : Packet} {msgType : MsgType}
    (asks : Asks config packet duid msgType) : releases config packet = none := by
  have kind := asks.kind
  rw [releases, if_neg]
  intro accepted
  rcases accepted.1 with release | decline
  · rw [release] at kind
    simp at kind
  · rw [decline] at kind
    simp at kind

theorem handling_of_solicit (serves : Serves config pool)
    (client : received.packet.clientDuid = some duid)
    (kind : received.packet.msgType = .solicit) :
    ∃ next sent, solicit config pool duid received = .ok (next, sent) ∧
      Handling config pool received next sent := by
  have valid := serves.valid
  have asks : Asks config received.packet duid (solicitType config received.packet) :=
    .solicit client kind
  have unreleased := asks.releases_eq_none
  cases current : pool.current duid with
  | some addr =>
      have held := V6Pool.heldBy_of_current valid current
      have something : ¬Nothing pool received duid := by
        intro nothing
        cases nothing.1.symm.trans current
      rw [solicit_held valid current]
      cases rapid : solicitType config received.packet with
      | reply =>
          rw [rapid] at asks
          exact ⟨_, _, rfl, .granted asks something
            ⟨.confirm (V6Pool.leases_heldBy_iff.mpr held), unreleased.symm, rfl⟩ rfl rfl
            (.inl held)⟩
      | _ =>
          rw [rapid] at asks
          exact ⟨_, _, rfl, .granted asks something
            ⟨.offerHeld (V6Pool.leases_heldBy_iff.mpr held), unreleased.symm, rfl⟩ rfl rfl
            (.inl held)⟩
  | none =>
      rcases V6Pool.firstFree_or_full valid duid received.discovered with ⟨offset, first⟩ | full
      · have nothing := (V6Pool.current_eq_none_iff valid).mp current
        have nobody := V6Pool.not_heldBy_leases nothing
        have available : pool.available duid (pool.address offset) received.requested = true :=
          V6Pool.available_later received.ordered first.available
        have free := V6Pool.free_of_available nothing available
        have inside := (V6Pool.available_iff.mp available).1
        have something : ¬Nothing pool received duid := by
          intro nothing
          have unavailable := nothing.2
          rw [if_pos kind] at unavailable
          cases (unavailable _).symm.trans first.available
        rw [solicit_free serves current first]
        rw [solicitType] at asks ⊢
        cases rapid : asksRapid config received.packet with
        | true =>
            rw [rapid, if_pos rfl] at asks
            have happens : Happens config pool received (.commit duid (pool.address offset))
                ((pool.atOffset offset).leased duid (pool.address offset) received.requested) := by
              refine ⟨?_, unreleased.symm, rfl⟩
              rw [V6Pool.leases_leased (valid.atOffset first.lt)]
              exact .commit nobody free
            simp only [if_true]
            exact ⟨_, _, rfl, .granted asks something happens rfl rfl (.inr inside)⟩
        | false =>
            rw [rapid, if_neg (by decide)] at asks
            simp only [Bool.false_eq_true, if_false]
            exact ⟨_, _, rfl, .granted asks something
              ⟨.offerFree nobody free, unreleased.symm, rfl⟩ rfl rfl (.inr inside)⟩
      · refine ⟨_, _, solicit_exhausted valid current full, .refused asks ⟨current, ?_⟩⟩
        rw [if_pos kind]
        exact full

theorem handling_of_request (serves : Serves config pool)
    (client : received.packet.clientDuid = some duid)
    (kind : received.packet.msgType ∈ [.request, .renew, .rebind]) :
    ∃ next sent, request config pool duid received = .ok (next, sent) ∧
      Handling config pool received next sent := by
  have valid := serves.valid
  have different : received.packet.msgType ≠ .solicit := by
    intro same
    rw [same] at kind
    simp at kind
  have unreleased : releases config received.packet = none := by
    apply releases_of_not
    · intro same
      rw [same] at kind
      simp at kind
    · intro same
      rw [same] at kind
      simp at kind
  rw [request]
  cases wanted : received.packet.wanted with
  | none =>
      refine ⟨_, _, rfl, .unanswered ?_ ⟨.silent, unreleased.symm, rfl⟩ rfl⟩
      intro owner msgType asks
      cases asks with
      | solicit _ same => exact different same
      | request _ _ named => cases wanted.symm.trans named
  | some addr =>
      have asks : Asks config received.packet duid .reply := .request client kind wanted
      cases current : pool.current duid with
      | some held =>
          have holds := V6Pool.heldBy_of_current valid current
          have something : ¬Nothing pool received duid := by
            intro nothing
            cases nothing.1.symm.trans current
          simp only [V6Pool.request_held valid current, Checked.bind_ok]
          exact ⟨_, _, rfl, .granted asks something
            ⟨.confirm (V6Pool.leases_heldBy_iff.mpr holds), unreleased.symm, rfl⟩ rfl rfl
            (.inl holds)⟩
      | none =>
          cases free : pool.available duid addr received.requested with
          | true =>
              have nothing := (V6Pool.current_eq_none_iff valid).mp current
              have something : ¬Nothing pool received duid := by
                intro nothing
                have unavailable := nothing.2
                rw [if_neg different] at unavailable
                cases (unavailable addr wanted).symm.trans free
              have happens : Happens config pool received (.commit duid addr)
                  (pool.leased duid addr received.requested) := by
                refine ⟨?_, unreleased.symm, rfl⟩
                rw [V6Pool.leases_leased valid]
                exact .commit (V6Pool.not_heldBy_leases nothing)
                  (V6Pool.free_of_available nothing free)
              simp only [serves.request_free current free, Checked.bind_ok]
              exact ⟨_, _, rfl, .granted asks something happens rfl rfl
                (.inr (V6Pool.available_iff.mp free).1)⟩
          | false =>
              simp only [V6Pool.request_refused valid current free, Checked.bind_ok]
              refine ⟨_, _, rfl, .refused asks ⟨current, ?_⟩⟩
              rw [if_neg different]
              intro other named
              cases wanted.symm.trans named
              exact free

theorem handling_of_release (valid : pool.Valid)
    (client : received.packet.clientDuid = some duid)
    (kind : received.packet.msgType = .release ∨ received.packet.msgType = .decline) :
    ∃ next sent, release config pool duid received = .ok (next, sent) ∧
      Handling config pool received next sent := by
  have unasked : ∀ duid msgType, ¬Asks config received.packet duid msgType := by
    intro duid msgType asks
    have asked := asks.kind
    rcases kind with same | same
    · rw [same] at asked
      simp at asked
    · rw [same] at asked
      simp at asked
  rw [release]
  cases accepted : isForServer config.serverDuid received.packet with
  | true =>
      have released : releases config received.packet = some duid := by
        rw [releases, if_pos ⟨kind, accepted⟩, client]
      simp only [if_true]
      cases current : pool.current duid with
      | some addr =>
          have held := V6Pool.heldBy_of_current valid current
          have happens : Happens config pool received (.release duid addr)
              (pool.released duid addr) := by
            refine ⟨?_, released.symm, rfl⟩
            rw [V6Pool.leases_released valid]
            exact .release (V6Pool.leases_heldBy_iff.mpr held)
          simp only [V6Pool.release_held valid current, Checked.bind_ok]
          exact ⟨_, _, rfl, .unanswered unasked happens rfl⟩
      | none =>
          have nothing := (V6Pool.current_eq_none_iff valid).mp current
          simp only [V6Pool.release_nothing valid current, Checked.bind_ok]
          exact ⟨_, _, rfl, .unanswered unasked
            ⟨.releaseNothing (V6Pool.not_heldBy_leases nothing), released.symm, rfl⟩ rfl⟩
  | false =>
      have released : releases config received.packet = none := by
        rw [releases, if_neg]
        rw [accepted]
        simp
      exact ⟨_, _, rfl, .unanswered unasked ⟨.silent, released.symm, rfl⟩ rfl⟩

/-- Every packet is served, in one of these ways. -/
theorem handling_of_serving (serves : Serves config pool) (received : Received) :
    ∃ next sent, serveV6 config pool received = .ok (next, sent) ∧
      Handling config pool received next sent := by
  rw [serveV6]
  cases client : received.packet.clientDuid with
  | none =>
      have released : releases config received.packet = none := by rw [releases, client, ite_self]
      refine ⟨_, _, rfl, .unanswered ?_ ⟨.silent, released.symm, rfl⟩ rfl⟩
      intro duid msgType asks
      cases client.symm.trans asks.clientDuid
  | some duid =>
      dsimp only
      cases kind : received.packet.msgType with
      | solicit => exact handling_of_solicit serves client kind
      | request | renew | rebind =>
          exact handling_of_request serves client (by rw [kind]; decide)
      | release => exact handling_of_release serves.valid client (.inl kind)
      | decline => exact handling_of_release serves.valid client (.inr kind)
      | _ =>
          have released : releases config received.packet = none := by
            apply releases_of_not <;> rw [kind] <;> decide
          refine ⟨_, _, rfl, .unanswered ?_ ⟨.silent, released.symm, rfl⟩ rfl⟩
          intro owner msgType asks
          have asked := asks.kind
          rw [kind] at asked
          simp at asked

theorem handling_of_served (serves : Serves config pool)
    (served : serveV6 config pool received = .ok (next, sent)) :
    Handling config pool received next sent := by
  rcases handling_of_serving serves received with ⟨_, _, equal, handling⟩
  rw [served] at equal
  cases equal
  exact handling

/-! ## What is sent -/

/-- The datagram for an answer that can be written. -/
def wireOf (packet : Packet) : List UInt8 :=
  packet.header ++ Field.join 2 (packet.options.map Dhcpv6Option.field)

theorem encodeOptions_returns (options : List Dhcpv6Option) (out : List UInt8) :
    (encodeOptions options out).Returns := by
  induction options generalizing out with
  | nil => exact Fallible.returns_ok out
  | cons option options induction =>
      rw [encodeOptions, encodeInto_eq]
      by_cases large : 0xFFFF < option.toRaw.data.length
      · rw [if_pos large]
        exact Fallible.returns_refuse _
      · rw [if_neg large]
        exact induction _

instance (packet : Packet) : Decidable (Encodable packet) :=
  inferInstanceAs (Decidable (∀ option ∈ packet.options, option.toRaw.data.length ≤ 0xFFFF))

/-- The datagram for an answer, unless it is too large or the socket does not send it. -/
def Sent.datagram (outcome : Except IoError Nat) (answer : Sent) : Option Datagram :=
  if Encodable answer.packet ∧ outcome.isOk then some ⟨wireOf answer.packet, answer.dst⟩
  else none

theorem transmit_eq (outcome : Except IoError Nat) (answer : Sent) :
    transmit outcome answer = .ok (answer.datagram outcome) := by
  rw [transmit, Sent.datagram]
  by_cases encodable : Encodable answer.packet
  · have written : answer.packet.encode = .ok (wireOf answer.packet) :=
      encode_eq_ok_iff.mpr ⟨encodable, rfl⟩
    rw [written]
    cases outcome with
    | error error => rw [if_neg fun both => nomatch both.2]
    | ok count => rw [if_pos ⟨encodable, rfl⟩]
  · rw [if_neg fun both => encodable both.1]
    rcases encodeOptions_returns answer.packet.options answer.packet.header with
      ⟨wire, written⟩ | ⟨error, refused⟩
    · exact absurd (encode_eq_ok_iff.mp written).1 encodable
    · rw [Packet.encode, refused]
      rfl

theorem Sent.of_datagram {outcome : Except IoError Nat} {answer : Sent} {datagram : Datagram}
    (sent : datagram ∈ answer.datagram outcome) :
    Encodable answer.packet ∧ datagram = ⟨wireOf answer.packet, answer.dst⟩ := by
  rw [Sent.datagram] at sent
  split at sent
  · rename_i possible
    exact ⟨possible.1, (Option.some.inj sent).symm⟩
  · cases sent

theorem clientDuid_short {bytes : List UInt8} {packet : Packet}
    (decoded : Packet.fromBytes bytes = .ok packet) (client : packet.clientDuid = some duid) :
    duid.length ≤ 0xFFFF := by
  rcases fromBytes_eq_ok_iff.mp decoded with ⟨_, fields, fits, denoted, _⟩
  rw [Packet.clientDuid] at client
  split at client
  · rename_i found
    cases client
    exact denoted.small fits _ (List.mem_of_find?_eq_some found)
  · cases client

theorem serverDuid_short (accepted : config.validate = .ok config) :
    config.serverDuid.length ≤ 0xFFFF :=
  Nat.le_trans (Config.validate_eq_ok_iff.mp accepted).2.1.2 (by decide)

/-- Only the name servers of the configuration can make an answer too large. -/
theorem encodable_success_iff {msgType : MsgType} {ip : Ipv6Addr}
    (accepted : config.validate = .ok config) (short : duid.length ≤ 0xFFFF) :
    Encodable (success config duid received msgType ip).packet ↔
      config.ipv6Dns.length ≤ 4095 := by
  have dnsSize := wireLen_eq (.dnsServers config.ipv6Dns)
  simp only [Dhcpv6Option.wireLen] at dnsSize
  constructor
  · intro encodable
    cases dns : config.ipv6Dns with
    | nil => exact Nat.zero_le _
    | cons addr addrs =>
        have listed : .dnsServers config.ipv6Dns ∈
            (success config duid received msgType ip).packet.options := by
          simp [success, sendV6, dns]
        have small := encodable _ listed
        rw [← dns]
        omega
  · intro few option member
    have size := wireLen_eq option
    simp only [success, sendV6, List.cons_append, List.nil_append, List.mem_cons] at member
    rcases member with rfl | rfl | rfl | member
    · exact serverDuid_short accepted
    · exact short
    · simp only [Dhcpv6Option.wireLen, List.length_cons, List.length_nil] at size
      omega
    · split at member
      · cases member
      · rw [List.mem_singleton] at member
        subst member
        omega

theorem encodable_failure {msgType : MsgType} (accepted : config.validate = .ok config)
    (short : duid.length ≤ 0xFFFF) :
    Encodable (failure config duid received msgType).packet := by
  intro option member
  have size := wireLen_eq option
  simp only [failure, sendV6Nodata, List.mem_cons, List.not_mem_nil, or_false] at member
  rcases member with rfl | rfl | rfl | rfl
  · exact serverDuid_short accepted
  · exact short
  · simp only [Dhcpv6Option.wireLen, List.length_nil] at size
    omega
  · decide

theorem typed_success {msgType : MsgType} {ip : Ipv6Addr} :
    ∀ option ∈ (success config duid received msgType ip).packet.options, option.Typed := by
  intro option member
  simp only [success, sendV6, List.cons_append, List.nil_append, List.mem_cons] at member
  rcases member with rfl | rfl | rfl | member
  · trivial
  · trivial
  · trivial
  · split at member
    · cases member
    · rw [List.mem_singleton] at member
      subst member
      trivial

theorem typed_failure {msgType : MsgType} :
    ∀ option ∈ (failure config duid received msgType).packet.options, option.Typed := by
  intro option member
  simp only [failure, sendV6Nodata, List.mem_cons, List.not_mem_nil, or_false] at member
  rcases member with rfl | rfl | rfl | rfl <;> trivial

/-! ## Rounds -/

variable {arrival : Arrival IoError} {reaction : Reaction}

inductive Round (config : Config) (pool : V6Pool) (arrival : Arrival IoError) :
    V6Pool → Reaction → Prop
  | malformed {error} :
      Packet.fromBytes arrival.received = Fallible.refuse error →
      Round config pool arrival pool (.noted (malformedNote arrival.received.length))
  | unanswered {packet next} :
      Packet.fromBytes arrival.received = .ok packet →
      serveV6 config pool (arrival.carrying packet) = .ok (next, none) →
      Round config pool arrival next (.handled none)
  | answered {packet next answer} :
      Packet.fromBytes arrival.received = .ok packet →
      serveV6 config pool (arrival.carrying packet) = .ok (next, some answer) →
      Round config pool arrival next (.handled (answer.datagram arrival.outcome))

theorem round_of_round (done : round config pool arrival = .ok (next, reaction)) :
    Round config pool arrival next reaction := by
  rw [round] at done
  rcases decoded : Packet.fromBytes arrival.received with (reason | _ | error) | packet
  · rw [decoded] at done
    cases done
  · rw [decoded] at done
    cases done
  · rw [decoded] at done
    cases done
    exact .malformed decoded
  · rw [decoded] at done
    rcases Checked.bind_eq_ok_iff.mp done with ⟨⟨after, answer⟩, served, rest⟩
    cases answer with
    | none =>
        cases rest
        exact .unanswered decoded served
    | some answer =>
        simp only [transmit_eq, Checked.bind_ok, Checked.pure_eq_ok] at rest
        cases rest
        exact .answered decoded served

/-- Nothing that arrives stops the daemon. -/
theorem round_ends (serves : Serves config pool) (arrival : Arrival IoError) :
    ∃ result, round config pool arrival = .ok result := by
  rw [round]
  rcases fromBytes_returns arrival.received with ⟨packet, decoded⟩ | ⟨error, refused⟩
  · rcases handling_of_serving serves (arrival.carrying packet) with
      ⟨next, answer, served, _⟩
    rw [decoded]
    simp only [served, Checked.bind_ok]
    cases answer with
    | none => exact ⟨_, rfl⟩
    | some answer =>
        simp only [transmit_eq, Checked.bind_ok]
        exact ⟨_, rfl⟩
  · rw [refused]
    exact ⟨_, rfl⟩

theorem Round.serves (done : Round config pool arrival next reaction)
    (serves : Serves config pool) : Serves config next := by
  cases done with
  | malformed => exact serves
  | unanswered _ served => exact serves.step served
  | answered _ served => exact serves.step served

end RustyDhcp.Dhcpv6
