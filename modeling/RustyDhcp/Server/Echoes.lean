import RustyDhcp.Packet.Legible
import RustyDhcp.Server.Daemon
import RustyDhcp.Server.MandatoryOptions

/-! # Datagrams of one server that reach another one

An answer is no request: a server that receives an answer of its own or of
another server does nothing with it. An answer without options stops it. -/

namespace RustyDhcp

/-- An option that a server may add to the message type of an answer. -/
structure DhcpOption.Additional (option : DhcpOption) : Prop where
  plain : option.Plain
  untyped : ∀ kind, option ≠ .dhcpMessageType kind

/-- What the answers of a server of the given configuration consist of. -/
structure Reply.Composed (config : Config) (reply : Reply) : Prop where
  kind : reply.msgType = .offer ∨ reply.msgType = .ack ∨ reply.msgType = .nak
  options : if reply.msgType = .nak then
      reply.additionalOptions = [.message "Requested IP not available".toList]
    else reply.additionalOptions = offerOptions config

variable {config : Config} {server : Server} {reply : Reply} {packet : Packet}

theorem additional_of_mem_offerOptions :
    ∀ option ∈ offerOptions config, option.Additional := by
  have ntp : (42 : UInt8).toNat ∉ [1, 3, 6, 12, 50, 51, 53, 54, 55, 56, 255] := by decide
  intro option member
  rw [offerOptions, buildOfferOptions, List.mem_append] at member
  rcases member with always | ntpServers
  · simp only [List.mem_cons, List.not_mem_nil, or_false] at always
    rcases always with rfl | rfl | rfl | rfl
    · exact ⟨fun _ => trivial, by simp⟩
    · exact ⟨fun _ => trivial, by simp⟩
    · exact ⟨fun legible => absurd legible Bool.false_ne_true, by simp⟩
    · exact ⟨fun legible => absurd legible Bool.false_ne_true, by simp⟩
  · split at ntpServers
    · rw [List.mem_singleton.mp ntpServers]
      exact ⟨fun _ => ntp, by simp⟩
    · cases ntpServers

theorem Reply.Composed.additional (composed : reply.Composed config) :
    ∀ option ∈ reply.additionalOptions, option.Additional := by
  have options := composed.options
  split at options
  · rw [options]
    intro option member
    rw [List.mem_singleton.mp member]
    exact ⟨fun _ => trivial, by simp⟩
  · rw [options]
    exact additional_of_mem_offerOptions

theorem mem_allOptions_of_mem_replyOptions {option : DhcpOption}
    (member : option ∈ server.replyOptions reply) : option ∈ server.allOptions reply := by
  rw [Server.replyOptions] at member
  split at member
  · exact (selectOptions_perm _ _).mem_iff.mpr (List.mem_append_left _ member)
  · exact member

/-- All options of an answer are plain, and only its own message type is one. -/
theorem Reply.Composed.of_mem (composed : reply.Composed config) {option : DhcpOption}
    (member : option ∈ server.replyOptions reply) :
    option.Plain ∧ ∀ kind, option = .dhcpMessageType kind → kind = reply.msgType := by
  rcases List.mem_cons.mp (mem_allOptions_of_mem_replyOptions member) with rfl | others
  · refine ⟨fun _ => trivial, ?_⟩
    intro kind same
    cases same
    rfl
  · rcases List.mem_cons.mp others with rfl | additional
    · refine ⟨fun _ => trivial, ?_⟩
      intro kind same
      cases same
    · have added := composed.additional option additional
      exact ⟨added.plain, fun kind same => absurd same (added.untyped kind)⟩

theorem replyOptions_ne_nil (server : Server) (reply : Reply) : server.replyOptions reply ≠ [] := by
  have typed : ∃ option ∈ server.allOptions reply, option.code = Options.dhcpMessageType :=
    ⟨.dhcpMessageType reply.msgType, List.mem_cons_self, rfl⟩
  rw [Server.replyOptions]
  split
  · rename_i prl _
    have kept : Options.dhcpMessageType ∈ prl ++ keptCodes :=
      List.mem_append_right _ List.mem_cons_self
    rcases Selection.exists_selected kept typed with ⟨option, chosen, _⟩
    exact List.ne_nil_of_mem chosen
  · exact List.cons_ne_nil _ _

/-- What a server answers consists of its options, or of the text of a Nak. -/
theorem composed_of_handled {store next : MyServer} {incoming : Incoming}
    (offers : MyServer.Offers config store)
    (handled : MyServer.handleRequest server store incoming = .ok (next, some reply)) :
    reply.Composed config ∧ reply.reqPacket = incoming.packet := by
  have offered : ∀ kind addr, (store.reply kind incoming.packet addr).additionalOptions =
      offerOptions config := fun _ _ => offers.cachedOffer
  cases MyServer.effect_of_handled offers.valid handled with
  | heldOffered => exact ⟨⟨.inl rfl, offered _ _⟩, rfl⟩
  | freeOffered => exact ⟨⟨.inl rfl, offered _ _⟩, rfl⟩
  | heldAcked => exact ⟨⟨.inr (.inl rfl), offered _ _⟩, rfl⟩
  | freeAcked => exact ⟨⟨.inr (.inl rfl), offered _ _⟩, rfl⟩
  | requestAcked => exact ⟨⟨.inr (.inl rfl), offered _ _⟩, rfl⟩
  | requestRefused => exact ⟨⟨.inr (.inr rfl), rfl⟩, rfl⟩

/-! ## What the answer is to a server -/

/-- Packets that a server does nothing with. -/
theorem handleRequest_ignored {store : MyServer} {now : Instant}
    (ignored : ∀ kind, packet.messageType = .ok kind →
      kind = .offer ∨ kind = .ack ∨ kind = .nak) :
    MyServer.handleRequest server store ⟨packet, now⟩ = .ok (store, none) := by
  rw [MyServer.handleRequest]
  split
  case h_5 => rfl
  all_goals
    rename_i asked
    rcases ignored _ asked with offer | ack | nak <;> contradiction

/-- The wire of an answer shows whether it carries an option. -/
theorem Reply.Composed.bare_iff (composed : reply.Composed config) (server : Server) :
    (server.answer reply).wire[240]? = some endByte ↔
      fitting 240 (server.replyOptions reply) = [] := by
  have first : (server.answer reply).wire[240]? =
      (optionBytes (fitting 240 (server.replyOptions reply)) ++ [endByte]).head? := by
    rw [← List.head?_drop, Packet.wire, List.append_assoc, drop_head]
    rfl
  rw [first]
  constructor
  · intro ends
    by_contra more
    refine head?_optionBytes ?_ (fun option written => fits_of_fitting written) more _ ends
    intro option written
    exact (composed.of_mem ((fitting_prefix_self _ _).subset written)).1
  · intro nothing
    rw [nothing]
    rfl

variable {daemon : Daemon} {store : MyServer} {arrival : Arrival IoError}

/-- An answer that reaches a server. -/
theorem round_of_answer (composed : reply.Composed config)
    (bytes : arrival.bytes = (server.answer reply).wire) :
    daemon.round store arrival =
      if fitting 240 (server.replyOptions reply) = [] then .error .assertionFailed
      else .ok (store, .handled []) := by
  have whole := received_wire bytes
  by_cases bare : fitting 240 (server.replyOptions reply) = []
  · rw [if_pos bare, Daemon.round, whole, fromBytes_wire_bare bare]
  · rw [if_neg bare]
    have plain : ∀ option ∈ (server.answer reply).options, option.Plain :=
      fun option member => (composed.of_mem member).1
    apply Daemon.round_silent (whole ▸ fromBytes_wire_legible plain bare)
    apply handleRequest_ignored
    intro kind typed
    have read := (List.takeWhile_sublist _).subset (messageType_mem typed)
    have listed := (fitting_prefix_self 240 (server.replyOptions reply)).subset read
    rw [(composed.of_mem listed).2 kind rfl]
    exact composed.kind

theorem fitting_eq_nil_iff {options : List DhcpOption} : fitting 240 options = [] ↔
    ∀ option, options.head? = some option → 59 < option.size := by
  cases options with
  | nil => simp [fitting]
  | cons option options =>
      have small : wireMax = 300 := rfl
      rw [fitting]
      split
      · rename_i fits
        simp only [reduceCtorEq, List.head?_cons, Option.some.injEq, forall_eq', false_iff,
          DhcpOption.size]
        omega
      · rename_i tooLong
        simp only [List.head?_cons, Option.some.injEq, forall_eq', DhcpOption.size, true_iff]
        omega

/-! ## The answers of a run -/

namespace Daemon

variable {initial state : MyServer} {hasher : Hasher Ipv4Addr MyServer.Entry} {file : LeasesFile}
variable {past : List (Handled MyServer (Arrival IoError) Reaction)}

theorem offers_of_run (accepted : config.validate = .ok config)
    (loaded : MyServer.main config hasher file = .ok initial)
    (run : Run daemon.round initial past state) : MyServer.Offers config state := by
  have start : MyServer.Offers config initial :=
    ⟨MyServer.valid_main accepted loaded, MyServer.cachedOffer_of_main accepted loaded⟩
  refine run.invariant start ?_
  intro before arrival after reaction offers done
  cases round_eq_ok_iff.mp done with
  | refused => exact offers
  | silent _ handled => exact offers.step handled
  | answered _ handled => exact offers.step handled

/-- What reaches a server from a running one changes nothing there, or it carries
no option and stops that server. -/
theorem round_of_sent (accepted : config.validate = .ok config)
    (loaded : MyServer.main config hasher file = .ok initial)
    (run : Run daemon.round initial past state)
    {handled : Handled MyServer (Arrival IoError) Reaction} (member : handled ∈ past)
    {datagram : Datagram} (sent : datagram ∈ handled.output.sent) {OtherError : Type}
    (other : Daemon) (store : MyServer) (arrival : Arrival OtherError)
    (bytes : arrival.bytes = datagram.wire) :
    other.round store arrival =
      if datagram.wire[240]? = some endByte then .error .assertionFailed
      else .ok (store, .handled []) := by
  rcases run.of_mem member with ⟨earlier, before, stepped⟩
  have offers := offers_of_run accepted loaded before
  have round := round_eq_ok_iff.mp stepped
  generalize handled.after = after at round
  generalize handled.output = output at round sent
  cases round with
  | refused => cases sent
  | silent => cases sent
  | @answered packet _ reply decoded served =>
      rcases List.mem_map.mp sent with ⟨dst, _, rfl⟩
      have composed := (composed_of_handled offers served).1
      have bare := composed.bare_iff daemon.toServer
      rw [round_of_answer composed bytes]
      simp only [bare]

def newcomer : Packet := .ofClient #v[2, 0, 0, 0, 7, 1] [.dhcpMessageType .discover]

/-- From a client that has no address yet. -/
def fromClient (bytes : List UInt8) : Arrival String :=
  ⟨bytes, .v4 .unspecified 68, 5, fun _ => .ok wireMax⟩

set_option maxRecDepth 10000 in
/-- The name servers that a client asks for leave no room for anything, and the
Offer stops a second server. -/
theorem round_of_sent_bare : ∃ session,
    simulate (serveWithBroadcasts (.new 192 168 2 1) []).round
        (MyServer.main MyServer.manyNameServers Hasher.newestFirst none)
        [fromClient MyServer.asksForDns.wire] = .ok session ∧
      ∃ handled ∈ session.past, ∃ datagram ∈ handled.output.sent,
        (serveWithBroadcasts (.new 192 168 2 254) []).round session.initial
          (fromClient datagram.wire) = .error .assertionFailed := by
  have computed : Checked.passes (simulate (serveWithBroadcasts (.new 192 168 2 1) []).round
      (MyServer.main MyServer.manyNameServers Hasher.newestFirst none)
      [fromClient MyServer.asksForDns.wire]) (fun session => session.past.any fun handled =>
        handled.output.sent.any fun datagram => datagram.wire[240]? = some endByte) = true := by
    decide
  rcases Checked.exists_of_passes computed with ⟨session, simulated, bare⟩
  rcases Run.of_simulate simulated with ⟨loaded, run⟩
  rcases List.any_eq_true.mp bare with ⟨handled, member, some⟩
  rcases List.any_eq_true.mp some with ⟨datagram, sent, ends⟩
  refine ⟨session, simulated, handled, member, datagram, sent, ?_⟩
  rw [round_of_sent rfl loaded run member sent _ _ _ rfl, if_pos (of_decide_eq_true ends)]

end Daemon

end RustyDhcp
