import RustyDhcp.Server.Console
import RustyDhcp.Server.Daemon
import RustyDhcp.Server.Leases

/-! # Handling a packet, with what is printed

`handleRequestLogged` is `handleRequest` with its notes. `Report` lists them beside
what handling a packet can do. -/

namespace RustyDhcp

/-- The server that calls the store, the broadcast destinations that the store knows,
and the seconds since 1970. -/
structure Scene where
  server : Endpoint
  broadcasts : List Ipv4Addr
  secs : U64

/-- Where `Server::send` would deliver a reply. -/
def Scene.dstsFor (scene : Scene) (packet : Packet) (yiaddr : Ipv4Addr) : List SocketAddr :=
  Server.routeDests scene.server.src packet.broadcast yiaddr scene.broadcasts

namespace Packet

def optionCodes (packet : Packet) : List UInt8 := packet.options.map DhcpOption.code

def prl (packet : Packet) : Option (List UInt8) :=
  match packet.option Options.parameterRequestList with
  | some (.parameterRequestList codes) => some codes
  | _ => none

def serverId (packet : Packet) : Option Ipv4Addr :=
  match packet.option Options.serverIdentifier with
  | some (.serverIdentifier ip) => some ip
  | _ => none

end Packet

namespace MyServer

/-- The note that a Discover begins with. -/
def discoverNote (scene : Scene) (store : MyServer) (packet : Packet) : Note :=
  .discover packet.chaddr packet.xid (store.rapid packet) packet.broadcast scene.server.src
    packet.optionCodes packet.prl

/-- How many entries there are, and how many addresses the pool has. -/
def exhaustedNote (store : MyServer) (packet : Packet) : Note :=
  .exhausted packet.chaddr packet.xid (store.rapid packet) (store.filled + store.overflow.size)
    store.leaseNum.toNat

def discoverLogged (scene : Scene) (store : MyServer) (packet : Packet) (now : Instant) :
    Checked (MyServer × List Note × Option Reply) := do
  let hostname := hostnameOf packet
  let asked := discoverNote scene store packet
  if store.rapid packet then
    match ← store.currentLease packet.chaddr with
    | some ip =>
        let store ← store.rememberHostname ip hostname
        return (store,
          [asked, .committed packet.chaddr packet.xid ip (scene.dstsFor packet ip) true],
          some (store.reply .ack packet ip))
    | none =>
        match ← scanFree packet.chaddr now store.leaseNum.toNat store with
        | (store, some cand) =>
            let expiry := now + store.leaseDuration
            let store ← store.insertLease cand packet.chaddr (some expiry) hostname
            return (store,
              [asked, .committed packet.chaddr packet.xid cand (scene.dstsFor packet cand) false],
              some (store.reply .ack packet cand))
        | (store, none) => return (store, [asked, exhaustedNote store packet], none)
  else
    match ← store.currentLease packet.chaddr with
    | some ip =>
        let store ← store.rememberHostname ip hostname
        return (store, [asked, .offered packet.chaddr packet.xid ip (scene.dstsFor packet ip) true],
          some (store.reply .offer packet ip))
    | none =>
        match ← scanFree packet.chaddr now store.leaseNum.toNat store with
        | (store, some cand) =>
            return (store,
              [asked, .offered packet.chaddr packet.xid cand (scene.dstsFor packet cand) false],
              some (store.reply .offer packet cand))
        | (store, none) => return (store, [asked, exhaustedNote store packet], none)

/-- The notes that a Request begins with. The last one is the line of the monitor. -/
def requestNotes (scene : Scene) (packet : Packet) (time : Text) : List Note :=
  [.request packet.chaddr packet.xid packet.requestedIp packet.ciaddr packet.serverId
    packet.broadcast scene.server.src packet.optionCodes] ++
    (if scene.server.forThisServer packet then []
      else [.mismatch packet.chaddr packet.xid]) ++
    [.online time packet.chaddr packet.requestedIp (hostnameOf packet)]

def requestLogged (scene : Scene) (store : MyServer) (packet : Packet) (now : Instant) :
    Checked (MyServer × List Note × Option Reply) := do
  let hostname := hostnameOf packet
  let reqIp := packet.requestedIp
  let asked := requestNotes scene packet (← utcNowIso scene.secs)
  match ← store.currentLease packet.chaddr with
  | some ip =>
      let store ← store.rememberHostname ip hostname
      return (store,
        asked ++ [.acked packet.chaddr packet.xid ip (scene.dstsFor packet ip) true],
        some (store.reply .ack packet ip))
  | none =>
      if ← store.availableAt packet.chaddr reqIp now then
        let expiry := now + store.leaseDuration
        let store ← store.insertLease reqIp packet.chaddr (some expiry) hostname
        return (store,
          asked ++ [.acked packet.chaddr packet.xid reqIp (scene.dstsFor packet reqIp) false],
          some (store.reply .ack packet reqIp))
      else
        return (store,
          asked ++ [.refused packet.chaddr packet.xid reqIp
            (scene.dstsFor packet .unspecified) (store.inPool reqIp)],
          some (nak packet "Requested IP not available"))

def releaseLogged (scene : Scene) (store : MyServer) (packet : Packet) (kind : MessageType) :
    Checked (MyServer × List Note × Option Reply) := do
  if scene.server.forThisServer packet then
    match ← store.currentLease packet.chaddr with
    | some ip =>
        return (← store.removeLease packet.chaddr,
          [.freed kind packet.chaddr packet.xid scene.server.src ip], none)
    | none => return (store, [.noLease kind packet.chaddr packet.xid scene.server.src], none)
  else
    return (store, [.ignored kind packet.chaddr packet.xid scene.server.src], none)

def handleRequestLogged (scene : Scene) (store : MyServer) (incoming : Incoming) :
    Checked (MyServer × List Note × Option Reply) :=
  let packet := incoming.packet
  match packet.messageType with
  | .ok .discover => discoverLogged scene store packet incoming.now
  | .ok .request => requestLogged scene store packet incoming.now
  | .ok .release => releaseLogged scene store packet .release
  | .ok .decline => releaseLogged scene store packet .decline
  | .ok kind =>
      .ok (store, [.unsupported kind packet.chaddr packet.xid scene.server.src], none)
  | .error error => .ok (store, [.untyped packet.chaddr packet.xid scene.server.src error], none)

/-- What handling a packet does and prints, as `Effect` lists it. -/
inductive Report (scene : Scene) (store : MyServer) (packet : Packet) (now : Instant) :
    MyServer → List Note → Option Reply → Prop
  | unsupported {kind} :
      packet.messageType = .ok kind → kind ≠ .discover → kind ≠ .request →
      kind ≠ .release → kind ≠ .decline →
      Report scene store packet now store
        [.unsupported kind packet.chaddr packet.xid scene.server.src] none
  | untyped {error} :
      packet.messageType = .error error →
      Report scene store packet now store
        [.untyped packet.chaddr packet.xid scene.server.src error] none
  | ignored {kind} :
      packet.messageType = .ok kind → kind = .release ∨ kind = .decline →
      scene.server.forThisServer packet = false →
      Report scene store packet now store
        [.ignored kind packet.chaddr packet.xid scene.server.src] none
  | heldOffered {addr} :
      packet.messageType = .ok .discover → store.rapid packet = false →
      store.current packet.chaddr = some addr →
      Report scene store packet now (store.renamed addr (hostnameOf packet))
        [discoverNote scene store packet,
          .offered packet.chaddr packet.xid addr (scene.dstsFor packet addr) true]
        (some (store.reply .offer packet addr))
  | freeOffered {offset} :
      packet.messageType = .ok .discover → store.rapid packet = false →
      (∀ held, ¬store.HeldBy held packet.chaddr) →
      store.FirstFree packet.chaddr now offset →
      Report scene store packet now (store.atOffset offset)
        [discoverNote scene store packet, .offered packet.chaddr packet.xid
          (store.address offset) (scene.dstsFor packet (store.address offset)) false]
        (some (store.reply .offer packet (store.address offset)))
  | exhausted :
      packet.messageType = .ok .discover →
      (∀ held, ¬store.HeldBy held packet.chaddr) →
      (∀ addr, store.available packet.chaddr addr now = false) →
      Report scene store packet now store
        [discoverNote scene store packet, exhaustedNote store packet] none
  | heldCommitted {addr} :
      packet.messageType = .ok .discover → store.rapid packet = true →
      store.current packet.chaddr = some addr →
      Report scene store packet now (store.renamed addr (hostnameOf packet))
        [discoverNote scene store packet,
          .committed packet.chaddr packet.xid addr (scene.dstsFor packet addr) true]
        (some (store.reply .ack packet addr))
  | freeCommitted {offset} :
      packet.messageType = .ok .discover → store.rapid packet = true →
      (∀ held, ¬store.HeldBy held packet.chaddr) →
      store.FirstFree packet.chaddr now offset →
      Report scene store packet now
        ((store.atOffset offset).leased (store.address offset) packet now)
        [discoverNote scene store packet, .committed packet.chaddr packet.xid
          (store.address offset) (scene.dstsFor packet (store.address offset)) false]
        (some (store.reply .ack packet (store.address offset)))
  | heldAcked {addr time} :
      utcNowIso scene.secs = .ok time →
      packet.messageType = .ok .request →
      store.current packet.chaddr = some addr →
      Report scene store packet now (store.renamed addr (hostnameOf packet))
        (requestNotes scene packet time ++
          [.acked packet.chaddr packet.xid addr (scene.dstsFor packet addr) true])
        (some (store.reply .ack packet addr))
  | requestAcked {time} :
      utcNowIso scene.secs = .ok time →
      packet.messageType = .ok .request →
      (∀ held, ¬store.HeldBy held packet.chaddr) →
      store.available packet.chaddr packet.requestedIp now = true →
      Report scene store packet now (store.leased packet.requestedIp packet now)
        (requestNotes scene packet time ++ [.acked packet.chaddr packet.xid packet.requestedIp
          (scene.dstsFor packet packet.requestedIp) false])
        (some (store.reply .ack packet packet.requestedIp))
  | requestRefused {time} :
      utcNowIso scene.secs = .ok time →
      packet.messageType = .ok .request →
      (∀ held, ¬store.HeldBy held packet.chaddr) →
      store.available packet.chaddr packet.requestedIp now = false →
      Report scene store packet now store
        (requestNotes scene packet time ++ [.refused packet.chaddr packet.xid
          packet.requestedIp (scene.dstsFor packet .unspecified)
          (store.inPool packet.requestedIp)])
        (some (nak packet "Requested IP not available"))
  | freed {kind addr} :
      packet.messageType = .ok kind → kind = .release ∨ kind = .decline →
      scene.server.forThisServer packet = true →
      store.current packet.chaddr = some addr →
      Report scene store packet now (store.released packet.chaddr addr)
        [.freed kind packet.chaddr packet.xid scene.server.src addr] none
  | nothingFreed {kind} :
      packet.messageType = .ok kind → kind = .release ∨ kind = .decline →
      scene.server.forThisServer packet = true →
      (∀ held, ¬store.HeldBy held packet.chaddr) →
      Report scene store packet now store
        [.noLease kind packet.chaddr packet.xid scene.server.src] none

variable {scene : Scene} {store next : MyServer} {packet : Packet} {now : Instant}
variable {notes : List Note} {reply : Option Reply}

/-- The time of day is always printed. -/
theorem exists_utcNowIso (secs : U64) : ∃ time, utcNowIso secs = .ok time := by
  have bound := secs.isLt
  have small : secs.toNat / 86400 < 2 ^ 63 := by omega
  have inside : InI64 (secs.toNat / 86400 : Nat) := ⟨by omega, by omega⟩
  have fits : InI64 ((secs.toNat / 86400 : Nat) + 719468) := ⟨by omega, by omega⟩
  rw [utcNowIso, asI64_eq small, ymdFromDays_eq inside fits, Checked.bind_ok]
  exact ⟨_, rfl⟩

theorem discoverLogged_report (valid : store.Valid)
    (kind : packet.messageType = .ok .discover) :
    ∃ next notes reply, discoverLogged scene store packet now = .ok (next, notes, reply) ∧
      Report scene store packet now next notes reply := by
  have searched : store.currentLease packet.chaddr = .ok (store.current packet.chaddr) :=
    currentLease_eq valid
  cases found : store.current packet.chaddr with
  | some addr =>
      simp only [discoverLogged, searched, found, Checked.bind_ok, rememberHostname_eq valid,
        Checked.pure_eq_ok, reply_renamed]
      cases rapid : store.rapid packet with
      | true => exact ⟨_, _, _, rfl, .heldCommitted kind rapid found⟩
      | false => exact ⟨_, _, _, rfl, .heldOffered kind rapid found⟩
  | none =>
      have nothing := (current_eq_none_iff valid).mp found
      rcases firstFree_or_full valid packet.chaddr now with ⟨offset, first⟩ | full
      · simp only [discoverLogged, searched, found, Checked.bind_ok, scanFree_found valid first,
          Checked.pure_eq_ok]
        cases rapid : store.rapid packet with
        | true =>
            simp only [if_true, insertLease_eq (valid.atOffset first.lt), Checked.bind_ok]
            exact ⟨_, _, _, rfl, .freeCommitted kind rapid nothing first⟩
        | false => exact ⟨_, _, _, rfl, .freeOffered kind rapid nothing first⟩
      · simp only [discoverLogged, searched, found, Checked.bind_ok,
          scanFree_exhausted valid full, Checked.pure_eq_ok, ite_self]
        exact ⟨_, _, _, rfl, .exhausted kind nothing full⟩

theorem requestLogged_report (valid : store.Valid)
    (kind : packet.messageType = .ok .request) :
    ∃ next notes reply, requestLogged scene store packet now = .ok (next, notes, reply) ∧
      Report scene store packet now next notes reply := by
  have searched : store.currentLease packet.chaddr = .ok (store.current packet.chaddr) :=
    currentLease_eq valid
  rcases exists_utcNowIso scene.secs with ⟨time, printed⟩
  cases found : store.current packet.chaddr with
  | some addr =>
      simp only [requestLogged, printed, searched, found, Checked.bind_ok,
        rememberHostname_eq valid, Checked.pure_eq_ok, reply_renamed]
      exact ⟨_, _, _, rfl, .heldAcked printed kind found⟩
  | none =>
      have nothing := (current_eq_none_iff valid).mp found
      cases free : store.available packet.chaddr packet.requestedIp now with
      | true =>
          simp only [requestLogged, printed, searched, found, Checked.bind_ok,
            availableAt_eq valid, free, if_true, insertLease_eq valid, Checked.pure_eq_ok]
          exact ⟨_, _, _, rfl, .requestAcked printed kind nothing free⟩
      | false =>
          simp only [requestLogged, printed, searched, found, Checked.bind_ok,
            availableAt_eq valid, free, Bool.false_eq_true, if_false, Checked.pure_eq_ok]
          exact ⟨_, _, _, rfl, .requestRefused printed kind nothing free⟩

theorem releaseLogged_report {kind : MessageType} (valid : store.Valid)
    (sent : packet.messageType = .ok kind) (gives : kind = .release ∨ kind = .decline) :
    ∃ next notes reply, releaseLogged scene store packet kind = .ok (next, notes, reply) ∧
      Report scene store packet now next notes reply := by
  have searched : store.currentLease packet.chaddr = .ok (store.current packet.chaddr) :=
    currentLease_eq valid
  cases accepted : scene.server.forThisServer packet with
  | false =>
      simp only [releaseLogged, accepted, Bool.false_eq_true, if_false, Checked.pure_eq_ok]
      exact ⟨_, _, _, rfl, .ignored sent gives accepted⟩
  | true =>
      cases found : store.current packet.chaddr with
      | some addr =>
          simp only [releaseLogged, accepted, if_true, searched, found, Checked.bind_ok,
            removeLease_eq valid found, Checked.pure_eq_ok]
          exact ⟨_, _, _, rfl, .freed sent gives accepted found⟩
      | none =>
          simp only [releaseLogged, accepted, if_true, searched, found, Checked.bind_ok,
            Checked.pure_eq_ok]
          exact ⟨_, _, _, rfl,
            .nothingFreed sent gives accepted ((current_eq_none_iff valid).mp found)⟩

/-- A valid store handles every packet and prints what it does. -/
theorem handleRequestLogged_report (valid : store.Valid) (scene : Scene) (incoming : Incoming) :
    ∃ next notes reply, handleRequestLogged scene store incoming = .ok (next, notes, reply) ∧
      Report scene store incoming.packet incoming.now next notes reply := by
  rw [handleRequestLogged]
  split
  · exact discoverLogged_report valid (by assumption)
  · exact requestLogged_report valid (by assumption)
  · exact releaseLogged_report valid (by assumption) (.inl rfl)
  · exact releaseLogged_report valid (by assumption) (.inr rfl)
  · rename_i kind notDiscover notRequest notRelease notDecline sent
    exact ⟨_, _, _, rfl, .unsupported sent notDiscover notRequest notRelease notDecline⟩
  · exact ⟨_, _, _, rfl, .untyped (by assumption)⟩

theorem handleRequest_release {kind : MessageType} {server : Server} {incoming : Incoming}
    (sent : incoming.packet.messageType = .ok kind) (gives : kind = .release ∨ kind = .decline) :
    handleRequest server store incoming = release server store incoming.packet := by
  rcases gives with rfl | rfl
  · simp only [handleRequest, sent]
  · simp only [handleRequest, sent]

/-- Printing changes nothing about what is done and answered. -/
theorem Report.handled (report : Report scene store packet now next notes reply)
    (valid : store.Valid) :
    handleRequest scene.server.toServer store ⟨packet, now⟩ = .ok (next, reply) := by
  have searched : store.currentLease packet.chaddr = .ok (store.current packet.chaddr) :=
    currentLease_eq valid
  cases report with
  | @unsupported kind sent notDiscover notRequest notRelease notDecline =>
      rw [handleRequest, sent]
      cases kind with
      | discover => exact absurd rfl notDiscover
      | request => exact absurd rfl notRequest
      | release => exact absurd rfl notRelease
      | decline => exact absurd rfl notDecline
      | _ => rfl
  | untyped sent =>
      rw [handleRequest, sent]
  | ignored sent gives refused =>
      rw [handleRequest_release sent gives, release, if_neg (by simp [refused])]
      rfl
  | heldOffered sent plain found =>
      rw [handleRequest_discover sent, discover_held valid found, discoverType, plain]
      rfl
  | freeOffered sent plain nothing first =>
      rw [handleRequest_discover sent,
        discover_free valid ((current_eq_none_iff valid).mpr nothing) first, discoverType, plain]
      rfl
  | exhausted sent nothing full =>
      rw [handleRequest_discover sent,
        discover_exhausted valid ((current_eq_none_iff valid).mpr nothing) full]
  | heldCommitted sent rapid found =>
      rw [handleRequest_discover sent, discover_held valid found, discoverType, rapid]
      rfl
  | freeCommitted sent rapid nothing first =>
      rw [handleRequest_discover sent,
        discover_free valid ((current_eq_none_iff valid).mpr nothing) first, discoverType, rapid]
      rfl
  | heldAcked _ sent found => rw [handleRequest_request sent, request_held valid found]
  | requestAcked _ sent nothing free =>
      rw [handleRequest_request sent,
        request_free valid ((current_eq_none_iff valid).mpr nothing) free]
  | requestRefused _ sent nothing taken =>
      rw [handleRequest_request sent,
        request_refused valid ((current_eq_none_iff valid).mpr nothing) taken]
  | freed sent gives accepted found =>
      rw [handleRequest_release sent gives, release, if_pos accepted, searched, found,
        Checked.bind_ok]
      simp only [removeLease_eq valid found]
      rfl
  | nothingFreed sent gives accepted nothing =>
      rw [handleRequest_release sent gives, release, if_pos accepted, searched,
        (current_eq_none_iff valid).mpr nothing]
      rfl

end MyServer

/-- A datagram, with the time of day at which it is handled. -/
structure Timed (IoError : Type) extends Arrival IoError where
  secs : U64

namespace Daemon

variable {daemon : Daemon} {broadcasts : List Ipv4Addr} {store next : MyServer}
variable {timed : Timed IoError} {notes : List Note} {reaction : Reaction}

def scene (daemon : Daemon) (broadcasts : List Ipv4Addr) (timed : Timed IoError) : Scene where
  server := daemon.endpoint timed.src
  broadcasts := broadcasts
  secs := timed.secs

/-- `Daemon.round` with the notes of the store, which knows the given broadcast
destinations. -/
def roundLogged (daemon : Daemon) (broadcasts : List Ipv4Addr) (store : MyServer)
    (timed : Timed IoError) : Checked (MyServer × List Note × Reaction) :=
  match Packet.fromBytes timed.received with
  | .ok packet => do
      let (store, notes, reply) ← MyServer.handleRequestLogged (daemon.scene broadcasts timed)
        store ⟨packet, timed.now⟩
      match reply with
      | none => return (store, notes, .handled [])
      | some reply => do
          let (sent, _) ← (daemon.endpoint timed.src).reply timed.outcome reply
          return (store, notes, .handled sent)
  | .error (.refused error) =>
      .ok (store, [], .noted (malformedNote timed.received.length error))
  | .error (.panic reason) => .error reason
  | .error .endless => .error .assertionFailed

/-- What a round does and prints. -/
inductive LoggedRound (daemon : Daemon) (broadcasts : List Ipv4Addr) (store : MyServer)
    (timed : Timed IoError) : MyServer → List Note → Reaction → Prop
  | refused {error} :
      Packet.fromBytes timed.received = Fallible.refuse error →
      LoggedRound daemon broadcasts store timed store []
        (.noted (malformedNote timed.received.length error))
  | silent {packet next notes} :
      Packet.fromBytes timed.received = .ok packet →
      MyServer.Report (daemon.scene broadcasts timed) store packet timed.now next notes none →
      LoggedRound daemon broadcasts store timed next notes (.handled [])
  | answered {packet next notes reply} :
      Packet.fromBytes timed.received = .ok packet →
      MyServer.Report (daemon.scene broadcasts timed) store packet timed.now next notes
        (some reply) →
      LoggedRound daemon broadcasts store timed next notes
        (.handled (daemon.delivery timed.toArrival reply))

theorem loggedRound_of_done (valid : store.Valid)
    (done : daemon.roundLogged broadcasts store timed = .ok (next, notes, reaction)) :
    LoggedRound daemon broadcasts store timed next notes reaction := by
  rw [roundLogged] at done
  split at done
  · rename_i packet decoded
    rcases MyServer.handleRequestLogged_report valid (daemon.scene broadcasts timed)
      ⟨packet, timed.now⟩ with ⟨after, told, reply, handled, report⟩
    rw [handled, Checked.bind_ok] at done
    cases reply with
    | none =>
        cases done
        exact .silent decoded report
    | some reply =>
        rcases reply_eq daemon timed.toArrival reply with ⟨result, sent⟩
        simp only [sent, Checked.bind_ok, Checked.pure_eq_ok] at done
        cases done
        exact .answered decoded report
  · rename_i error decoded
    cases done
    exact .refused decoded
  · cases done
  · cases done

/-- Without its notes, a round is one of the daemon. -/
theorem LoggedRound.round (logged : LoggedRound daemon broadcasts store timed next notes reaction)
    (valid : store.Valid) : daemon.round store timed.toArrival = .ok (next, reaction) := by
  cases logged with
  | refused decoded => exact round_refused decoded
  | silent decoded report => exact round_silent decoded (report.handled valid)
  | answered decoded report => exact round_answered decoded (report.handled valid)

end Daemon

end RustyDhcp
