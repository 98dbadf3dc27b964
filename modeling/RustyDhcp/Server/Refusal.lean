import RustyDhcp.Server.Mirroring

/-! # A refused Request, from datagram to datagram

A Nak is short, so whatever the client asks for, it arrives with its type and the
identifier of the server. -/

namespace RustyDhcp

variable {server : Server} {packet : Packet} {config : Config} {options : List DhcpOption}

/-- The text of every Nak. -/
def refusalText : Text := "Requested IP not available".toList

/-- The client lists what it asks for, and a message is not on the list. -/
def Packet.declinesMessage (packet : Packet) : Prop :=
  ∃ prl, packet.requestedCodes = some prl ∧ Options.message ∉ prl

theorem option_eq_of_unique {code : UInt8} {target : DhcpOption} (same : target.code = code)
    (present : target ∈ packet.options)
    (unique : ∀ option ∈ packet.options, option.code = code → option = target) :
    packet.option code = some target := by
  rw [Packet.option]
  cases found : packet.options.find? fun option => option.code = code with
  | none =>
      have absent := List.find?_eq_none.mp found target present
      simp [same] at absent
  | some option =>
      have isCode := List.find?_some found
      rw [unique option (List.mem_of_find?_eq_some found) (of_decide_eq_true isCode)]

theorem messageTypeOf_eq {kind : MessageType} (present : .dhcpMessageType kind ∈ options)
    (typed : ∀ raw, .unrecognized raw ∈ options → raw.code ≠ Options.dhcpMessageType)
    (unique : ∀ other, .dhcpMessageType other ∈ options → other = kind) :
    Packet.messageTypeOf options = .ok kind := by
  induction options with
  | nil => cases present
  | cons option options induction =>
      have others : option ≠ .dhcpMessageType kind → Packet.messageTypeOf options = .ok kind := by
        intro different
        apply induction ((List.mem_cons.mp present).resolve_left different.symm)
        · exact fun raw listed => typed raw (List.mem_cons_of_mem _ listed)
        · exact fun other listed => unique other (List.mem_cons_of_mem _ listed)
      cases option with
      | dhcpMessageType other =>
          rw [unique other List.mem_cons_self]
          rfl
      | unrecognized raw =>
          rw [Packet.messageTypeOf, if_neg (typed raw List.mem_cons_self)]
          exact others (by simp)
      | _ => exact others (by simp)

/-- The options of a Nak are its type, the server and its text. -/
theorem mem_replyOptions_nak {option : DhcpOption}
    (member : option ∈ server.replyOptions (MyServer.nak packet "Requested IP not available")) :
    option = .dhcpMessageType .nak ∨ option = .serverIdentifier server.serverIp ∨
      option = .message refusalText := by
  have listed := mem_allOptions_of_mem_replyOptions member
  rw [Server.allOptions, MyServer.nak, List.mem_cons, List.mem_cons, List.mem_singleton] at listed
  exact listed

theorem length_optionBytes_replyOptions_le (server : Server) (reply : Reply) :
    (optionBytes (server.replyOptions reply)).length ≤
      (optionBytes (server.allOptions reply)).length := by
  rw [Server.replyOptions]
  split
  · rename_i prl _
    have perm := selectOptions_perm (prl ++ keptCodes) (server.allOptions reply)
    rw [optionBytes_eq_flatMap, optionBytes_eq_flatMap, (perm.flatMap_right _).length_eq,
      List.flatMap_append, List.length_append]
    exact Nat.le_add_right _ _
  · exact Nat.le_refl _

/-- A Nak with all its options, as the client reads it. -/
def Server.refusal (server : Server) (packet : Packet) : Packet :=
  { server.answer (MyServer.nak packet "Requested IP not available") with broadcast := false }

theorem fromBytes_nak (server : Server) (packet : Packet) :
    Packet.fromBytes (server.answer (MyServer.nak packet "Requested IP not available")).wire =
      .ok (server.refusal packet) := by
  apply fromBytes_whole
  · intro option member
    rcases mem_replyOptions_nak member with rfl | rfl | rfl <;> trivial
  · exact replyOptions_ne_nil _ _
  · refine Nat.le_trans (length_optionBytes_replyOptions_le server _) ?_
    exact Nat.le_of_ble_eq_true rfl

theorem mem_replyOptions_of_kept {reply : Reply} {option : DhcpOption}
    (member : option ∈ server.allOptions reply) (kept : option.code ∈ keptCodes) :
    ∃ other ∈ server.replyOptions reply, other.code = option.code := by
  rw [Server.replyOptions]
  split
  · exact Selection.exists_selected (List.mem_append_right _ kept) ⟨option, member, rfl⟩
  · exact ⟨option, member, rfl⟩

/-- The text is left out exactly if the client does not ask for it. -/
theorem message_mem_nak_iff : .message refusalText ∈
    server.replyOptions (MyServer.nak packet "Requested IP not available") ↔
      ¬packet.declinesMessage := by
  have present : DhcpOption.message refusalText ∈
      server.allOptions (MyServer.nak packet "Requested IP not available") :=
    List.mem_cons_of_mem _ (List.mem_cons_of_mem _ List.mem_cons_self)
  have request : (MyServer.nak packet "Requested IP not available").reqPacket = packet := rfl
  rw [Packet.declinesMessage, Server.replyOptions, request]
  cases asked : packet.requestedCodes with
  | none => simpa using present
  | some prl =>
      simp only [Option.some.injEq, exists_eq_left', not_not]
      constructor
      · intro chosen
        by_contra unasked
        have missing : Options.message ∉ prl ++ keptCodes := by
          rw [List.mem_append, not_or]
          exact ⟨unasked, by decide⟩
        have code : Options.message ∈ (selectOptions (prl ++ keptCodes) (server.allOptions
            (MyServer.nak packet "Requested IP not available"))).1.map DhcpOption.code :=
          List.mem_map_of_mem chosen
        have counted := List.count_pos_iff.mpr code
        rw [selectOptions, Selection.map_key_select, Selection.count_keepPresent,
          List.count_eq_zero.mpr missing, Nat.min_zero] at counted
        exact absurd counted (Nat.lt_irrefl 0)
      · intro asks
        have there : ∃ option ∈ server.allOptions
            (MyServer.nak packet "Requested IP not available"),
              option.code = Options.message := ⟨_, present, rfl⟩
        rcases Selection.exists_selected (List.mem_append_left keptCodes asks) there with
          ⟨option, chosen, isCode⟩
        have member : option ∈ server.replyOptions
            (MyServer.nak packet "Requested IP not available") := by
          rw [Server.replyOptions, request, asked]
          exact chosen
        rcases mem_replyOptions_nak member with rfl | rfl | rfl
        · cases isCode
        · cases isCode
        · exact chosen

/-- What a client finds in a Nak that answers its request. -/
structure Refuses (server : Server) (request packet : Packet) : Prop where
  reply : packet.reply = true
  messageType : packet.messageType = .ok .nak
  serverIdentifier : packet.option Options.serverIdentifier =
    some (.serverIdentifier server.serverIp)
  message : packet.option Options.message = some (.message refusalText) ↔
    ¬request.declinesMessage
  addresses : packet.ciaddr = .unspecified ∧ packet.yiaddr = .unspecified
  transaction : packet.xid = request.xid ∧ packet.giaddr = request.giaddr ∧
    packet.chaddr = request.chaddr

theorem refuses_refusal (server : Server) (packet : Packet) :
    Refuses server packet (server.refusal packet) where
  reply := rfl
  messageType := by
    have typed : DhcpOption.dhcpMessageType .nak ∈
        server.allOptions (MyServer.nak packet "Requested IP not available") := List.mem_cons_self
    apply messageTypeOf_eq
    · rcases mem_replyOptions_of_kept typed List.mem_cons_self with ⟨option, chosen, isCode⟩
      rcases mem_replyOptions_nak chosen with rfl | rfl | rfl
      · exact chosen
      · cases isCode
      · cases isCode
    · intro raw listed
      rcases mem_replyOptions_nak listed with same | same | same <;> cases same
    · intro other listed
      rcases mem_replyOptions_nak listed with same | same | same <;> cases same
      rfl
  serverIdentifier := by
    have identified : DhcpOption.serverIdentifier server.serverIp ∈
        server.allOptions (MyServer.nak packet "Requested IP not available") :=
      List.mem_cons_of_mem _ List.mem_cons_self
    have kept : Options.serverIdentifier ∈ keptCodes := List.mem_cons_of_mem _ List.mem_cons_self
    have unique : ∀ option ∈ (server.refusal packet).options,
        option.code = Options.serverIdentifier → option = .serverIdentifier server.serverIp := by
      intro option listed isCode
      rcases mem_replyOptions_nak listed with rfl | rfl | rfl
      · cases isCode
      · rfl
      · cases isCode
    rcases mem_replyOptions_of_kept identified kept with ⟨option, chosen, isCode⟩
    rw [unique option chosen isCode] at chosen
    exact option_eq_of_unique rfl chosen unique
  message := by
    have unique : ∀ option ∈ (server.refusal packet).options,
        option.code = Options.message → option = .message refusalText := by
      intro option listed isCode
      rcases mem_replyOptions_nak listed with rfl | rfl | rfl
      · cases isCode
      · cases isCode
      · rfl
    have listed := @message_mem_nak_iff server packet
    rw [← listed]
    constructor
    · exact fun found => List.mem_of_find?_eq_some found
    · exact fun listed => option_eq_of_unique rfl listed unique
  addresses := ⟨rfl, rfl⟩
  transaction := ⟨rfl, rfl, rfl⟩

namespace Daemon

variable {daemon : Daemon} {initial state : MyServer} {hasher : Hasher Ipv4Addr MyServer.Entry}
variable {file : LeasesFile} {past : List (Handled MyServer (Arrival IoError) Reaction)}
variable {arrival : Arrival IoError}

/-- In every state that a run gets to, a Request of a client without a lease for
an address that it cannot have is refused, and each copy of the answer decodes to
the whole Nak. -/
theorem refusal_of_run (accepted : config.validate = .ok config)
    (loaded : MyServer.main config hasher file = .ok initial)
    (run : Run daemon.round initial past state)
    (decoded : Packet.fromBytes arrival.received = .ok packet)
    (kind : packet.messageType = .ok .request)
    (nothing : ∀ held, ¬state.HeldBy held packet.chaddr)
    (taken : state.availableAt packet.chaddr packet.requestedIp arrival.now = .ok false) :
    ∃ sent, daemon.round state arrival = .ok (state, .handled sent) ∧
      sent.map Datagram.dst = attempted arrival.outcome 0 (Server.routeDests arrival.src
        packet.broadcast .unspecified daemon.broadcasts) ∧
      ∀ datagram ∈ sent, ∃ told, Packet.fromBytes datagram.wire = .ok told ∧
        Refuses daemon.toServer packet told := by
  have valid := (offers_of_run accepted loaded run).valid
  have missing := (MyServer.current_eq_none_iff valid).mpr nothing
  rw [MyServer.availableAt_eq valid, Except.ok.injEq] at taken
  have handled : MyServer.handleRequest daemon.toServer state ⟨packet, arrival.now⟩ =
      .ok (state, some (MyServer.nak packet "Requested IP not available")) := by
    rw [MyServer.handleRequest_request kind, MyServer.request_refused valid missing taken]
  refine ⟨_, round_answered decoded handled, ?_, ?_⟩
  · rw [delivery, List.map_map]
    exact List.map_id _
  · intro datagram member
    rcases List.mem_map.mp member with ⟨dst, _, rfl⟩
    exact ⟨_, fromBytes_nak _ _, refuses_refusal _ _⟩

/-- A client that wants the first address of the pool. -/
def stranger : Packet := MyServer.requestFor #v[2, 0, 0, 0, 7, 2] (.new 192 168 2 2)

theorem fromBytes_stranger : Packet.fromBytes stranger.wire = .ok stranger := by
  apply fromBytes_whole _ (List.cons_ne_nil _ _) (by decide)
  simp [stranger, MyServer.requestFor, Packet.ofClient, DhcpOption.Readable]

set_option maxRecDepth 10000 in
/-- Somebody else has leased the address. -/
theorem refusal_of_run_stranger : ∃ session,
    simulate (serveWithBroadcasts (.new 192 168 2 1) []).round
        (MyServer.main MyServer.twoLeases Hasher.newestFirst none)
        [fromClient (MyServer.requestFor #v[2, 0, 0, 0, 7, 1] (.new 192 168 2 2)).wire] =
      .ok session ∧
      session.state.HeldBy (.new 192 168 2 2) #v[2, 0, 0, 0, 7, 1] ∧ ∃ sent,
        (serveWithBroadcasts (.new 192 168 2 1) []).round session.state
            (fromClient stranger.wire) = .ok (session.state, .handled sent) ∧
          ∀ datagram ∈ sent, ∃ told, Packet.fromBytes datagram.wire = .ok told ∧
            Refuses ⟨.new 192 168 2 1⟩ stranger told := by
  have computed : Checked.passes (simulate (serveWithBroadcasts (.new 192 168 2 1) []).round
      (MyServer.main MyServer.twoLeases Hasher.newestFirst none)
      [fromClient (MyServer.requestFor #v[2, 0, 0, 0, 7, 1] (.new 192 168 2 2)).wire])
      (fun session => session.state.current #v[2, 0, 0, 0, 7, 1] = some (.new 192 168 2 2) &&
        session.state.current stranger.chaddr = none &&
        session.state.availableAt stranger.chaddr stranger.requestedIp 5 = .ok false) = true := by
    decide
  rcases Checked.exists_of_passes computed with ⟨session, simulated, tested⟩
  rw [Bool.and_eq_true, Bool.and_eq_true, decide_eq_true_eq, decide_eq_true_eq,
    decide_eq_true_eq] at tested
  rcases tested with ⟨⟨held, missing⟩, taken⟩
  rcases Run.of_simulate simulated with ⟨loaded, run⟩
  have valid := (offers_of_run rfl loaded run).valid
  have nothing := (MyServer.current_eq_none_iff valid).mp missing
  have decoded : Packet.fromBytes (fromClient stranger.wire).received = .ok stranger := by
    rw [received_wire rfl, fromBytes_stranger]
  rcases refusal_of_run rfl loaded run decoded rfl nothing taken with ⟨sent, done, _, told⟩
  exact ⟨session, simulated, MyServer.heldBy_of_current valid held, sent, done, told⟩

end Daemon

end RustyDhcp
