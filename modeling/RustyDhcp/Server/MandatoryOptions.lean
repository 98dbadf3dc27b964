import RustyDhcp.Packet.RoundTrip
import RustyDhcp.Server.Invariant
import RustyDhcp.Server.Send

/-! # Which options of an answer are on the wire

An Offer or Ack has to carry its message type, the server identifier and the
lease time. What the client asks for comes first, and the encoder stops at the
first option for which there is no room. -/

namespace RustyDhcp

/-- The options that every Offer and every Ack has to carry. -/
def mandatoryCodes : List UInt8 :=
  [Options.dhcpMessageType, Options.serverIdentifier, Options.ipAddressLeaseTime]

/-- Behind the cookie and complete options, none of them END, stands a complete
option with this code. -/
def Carries (wire : List UInt8) (code : UInt8) : Prop :=
  ∃ before field after, (∀ other ∈ before, Field.Fits 1 other ∧ other.code ≠ 255) ∧
    Field.Fits 1 field ∧ field.code = code.toNat ∧
      wire.drop 240 = Field.join 1 before ++ (field.bytes 1 ++ after)

/-- The codes of the options that the server has for an Offer or Ack. -/
def offeredCodes : List UInt8 := [53, 54, 51, 1, 3, 6, 42]

/-- The bytes that the option with this code takes in an Offer or Ack. -/
def offeredSize (config : Config) : (code : UInt8) → Nat
  | 53 => 3
  | 54 | 51 | 1 | 3 => 6
  | 6 => 2 + 4 * config.dnsIps.length
  | 42 => if config.enableNtp ∧ config.ntpIps ≠ [] then 2 + 4 * config.ntpIps.length else 0
  | _ => 0

/-- The bytes of the options that come not later than the given code in an order
of codes. -/
def sizeUpTo (config : Config) (order : List UInt8) (code : UInt8) : Nat :=
  ((offeredCodes.filter fun other => order.idxOf other ≤ order.idxOf code).map
    (offeredSize config)).sum

/-- There is room for the mandatory options and all that the client asks for
before them. Without a list of what it asks for there is always room. -/
def LeavesRoom (config : Config) (packet : Packet) : Prop :=
  ∀ prl, packet.requestedCodes = some prl →
    ∀ code ∈ mandatoryCodes, sizeUpTo config (prl ++ keptCodes) code ≤ 59

/-! ## On the wire -/

theorem drop_wire (packet : Packet) : packet.wire.drop 240 =
    Field.join 1 ((fitting 240 packet.options).map DhcpOption.field) ++ [endByte] := by
  rw [Packet.wire, List.append_assoc, drop_head]
  rfl

theorem carries_wire_iff {packet : Packet} {code : UInt8}
    (notEnd : ∀ option ∈ packet.options, option.code ≠ endByte) :
    Carries packet.wire code ↔ ∃ option ∈ fitting 240 packet.options, option.code = code := by
  have fits : ∀ field ∈ (fitting 240 packet.options).map DhcpOption.field, field.Fits 1 := by
    intro field member
    rcases List.mem_map.mp member with ⟨option, written, rfl⟩
    exact fits_of_fitting written
  rw [Carries, drop_wire]
  constructor
  · intro found
    rcases found with ⟨before, field, after, beforeFits, fieldFits, isCode, equal⟩
    have othersFit : ∀ other ∈ before ++ [field], Field.Fits 1 other := by
      intro other member
      rcases List.mem_append.mp member with earlier | last
      · exact (beforeFits other earlier).1
      · rw [List.mem_singleton.mp last]
        exact fieldFits
    have joined : Field.join 1 ((fitting 240 packet.options).map DhcpOption.field) ++ [endByte] =
        Field.join 1 (before ++ [field]) ++ after := by
      rw [equal, Field.join_append, Field.join_cons, Field.join_nil, List.append_nil,
        List.append_assoc]
    have first := Field.prefix_of_join_append_eq fits othersFit (by rfl) joined
    have member := first.subset (List.mem_append_right before (List.mem_singleton_self field))
    rcases List.mem_map.mp member with ⟨option, written, rfl⟩
    exact ⟨option, written, UInt8.toNat_inj.mp isCode⟩
  · intro found
    rcases found with ⟨option, written, rfl⟩
    rcases List.append_of_mem written with ⟨before, after, split⟩
    refine ⟨before.map DhcpOption.field, option.field,
      Field.join 1 (after.map DhcpOption.field) ++ [endByte], ?_, fits_of_fitting written, rfl, ?_⟩
    · intro field member
      rcases List.mem_map.mp member with ⟨other, earlier, rfl⟩
      have otherWritten : other ∈ fitting 240 packet.options := by
        rw [split]
        exact List.mem_append_left _ earlier
      have there := (fitting_prefix_self _ _).subset otherWritten
      exact ⟨fits_of_fitting otherWritten,
        fun isEnd => notEnd other there (UInt8.toNat_inj.mp isEnd)⟩
    · rw [split, List.map_append, List.map_cons, Field.join_append, Field.join_cons,
        List.append_assoc, List.append_assoc]

/-! ## What is offered -/

/-- The options that the server has for an Offer or Ack under a configuration. -/
def offerOptions (config : Config) : List DhcpOption :=
  buildOfferOptions config.subnetMask config.routerIp config.dnsIps config.ntpIps
    config.enableNtp config.leaseDurationSecs

variable {config : Config} {server : Server} {reply : Reply}

theorem size_eq (option : DhcpOption) : option.size = 2 + option.dataLen := by
  rw [dataLen_eq, DhcpOption.size]

theorem allOptions_codes (offered : reply.additionalOptions = offerOptions config) :
    ∃ unused, offeredCodes = (server.allOptions reply).map DhcpOption.code ++ unused ∧
      ∀ code ∈ unused, offeredSize config code = 0 := by
  rw [Server.allOptions, offered, offerOptions, buildOfferOptions]
  by_cases enabled : (config.enableNtp && !config.ntpIps.isEmpty) = true
  · rw [if_pos enabled]
    exact ⟨[], rfl, by simp⟩
  · rw [if_neg enabled]
    refine ⟨[42], rfl, ?_⟩
    intro code member
    rw [List.mem_singleton.mp member]
    exact if_neg (by simpa using enabled)

theorem allOptions_sizes (offered : reply.additionalOptions = offerOptions config) :
    ∀ option ∈ server.allOptions reply, option.size = offeredSize config option.code := by
  have dns : 2 + config.dnsIps.length * 4 = 2 + 4 * config.dnsIps.length := by omega
  have ntp : 2 + config.ntpIps.length * 4 = 2 + 4 * config.ntpIps.length := by omega
  rw [Server.allOptions, offered, offerOptions, buildOfferOptions]
  simp only [List.cons_append, List.nil_append, List.forall_mem_cons, size_eq]
  refine ⟨rfl, rfl, rfl, rfl, rfl, dns, ?_⟩
  by_cases enabled : (config.enableNtp && !config.ntpIps.isEmpty) = true
  · have sends : config.enableNtp = true ∧ config.ntpIps ≠ [] := by simpa using enabled
    intro option member
    rw [if_pos enabled, List.mem_singleton] at member
    rw [member, DhcpOption.dataLen, length_flatMap_octets, ntp]
    exact (if_pos sends).symm
  · rw [if_neg enabled]
    simp

theorem allOptions_distinct (offered : reply.additionalOptions = offerOptions config) :
    ((server.allOptions reply).map DhcpOption.code).Nodup := by
  rcases @allOptions_codes config server reply offered with ⟨unused, codes, _⟩
  have distinct : offeredCodes.Nodup := by decide
  rw [codes] at distinct
  exact distinct.of_append_left

theorem exists_mandatory (offered : reply.additionalOptions = offerOptions config) {code : UInt8}
    (mandatory : code ∈ mandatoryCodes) :
    ∃ option ∈ server.allOptions reply, option.code = code := by
  rw [Server.allOptions, offered, offerOptions, buildOfferOptions]
  simp only [mandatoryCodes, List.mem_cons, List.not_mem_nil, or_false] at mandatory
  rcases mandatory with rfl | rfl | rfl
  · exact ⟨.dhcpMessageType reply.msgType, by simp, rfl⟩
  · exact ⟨.serverIdentifier server.serverIp, by simp, rfl⟩
  · exact ⟨.ipAddressLeaseTime config.leaseDurationSecs, by simp, rfl⟩

/-- What is asked for not later than a code takes the bytes that the
configuration makes it take. -/
theorem sum_askedUpTo (offered : reply.additionalOptions = offerOptions config)
    (order : List UInt8) (code : UInt8) :
    ((Selection.askedUpTo DhcpOption.code order code (server.allOptions reply)).map
      DhcpOption.size).sum = sizeUpTo config order code := by
  rcases @allOptions_codes config server reply offered with ⟨unused, codes, absent⟩
  let early := fun other : UInt8 => decide (order.idxOf other ≤ order.idxOf code)
  have sizes : (Selection.askedUpTo DhcpOption.code order code (server.allOptions reply)).map
      DhcpOption.size = (((server.allOptions reply).map DhcpOption.code).filter early).map
        (offeredSize config) := by
    rw [List.filter_map, List.map_map]
    apply List.map_congr_left
    intro option asked
    exact allOptions_sizes offered option (List.mem_of_mem_filter asked)
  have nothing : ((unused.filter early).map (offeredSize config)).sum = 0 := by
    apply List.sum_eq_zero
    intro size member
    rcases List.mem_map.mp member with ⟨other, kept, rfl⟩
    exact absent other (List.mem_of_mem_filter kept)
  rw [sizes, sizeUpTo, codes, List.filter_append, List.map_append, List.sum_append, nothing,
    Nat.add_zero]

/-! ## What has room -/

theorem notEnd_of_mem_replyOptions (offered : reply.additionalOptions = offerOptions config) :
    ∀ option ∈ server.replyOptions reply, option.code ≠ endByte := by
  have allowed : ∀ option ∈ server.allOptions reply, option.code ≠ endByte := by
    intro option member
    rcases @allOptions_codes config server reply offered with ⟨unused, codes, _⟩
    have code : option.code ∈ offeredCodes := by
      rw [codes]
      exact List.mem_append_left _ (List.mem_map_of_mem member)
    intro isEnd
    rw [isEnd] at code
    revert code
    decide
  intro option member
  rw [Server.replyOptions] at member
  split at member
  · rename_i prl _
    apply allowed
    exact (selectOptions_perm _ _).mem_iff.mpr (List.mem_append_left _ member)
  · exact allowed option member

/-- A mandatory option is written if all that is asked for up to it has room. -/
theorem exists_written_iff (offered : reply.additionalOptions = offerOptions config)
    {prl : List UInt8} (asked : reply.reqPacket.requestedCodes = some prl) {code : UInt8}
    (mandatory : code ∈ mandatoryCodes) :
    (∃ option ∈ fitting 240 (server.replyOptions reply), option.code = code) ↔
      sizeUpTo config (prl ++ keptCodes) code ≤ 59 := by
  have alwaysKept : mandatoryCodes ⊆ keptCodes := by decide
  have kept : code ∈ prl ++ keptCodes := List.mem_append_right _ (alwaysKept mandatory)
  have present := @exists_mandatory config server reply offered code mandatory
  have chosen := Selection.exists_selected kept present
  have order : server.replyOptions reply =
      (Selection.select DhcpOption.code (prl ++ keptCodes) (server.allOptions reply)).1 := by
    rw [Server.replyOptions, asked]
    rfl
  have room : 240 + sizeUpTo config (prl ++ keptCodes) code < wireMax ↔
      sizeUpTo config (prl ++ keptCodes) code ≤ 59 := by
    rw [wireMax]
    omega
  rw [order, exists_fitting_iff chosen,
    Selection.weightUpTo_select (allOptions_distinct offered) kept present,
    sum_askedUpTo offered, room]

/-- In their own order, the mandatory options come first. -/
theorem exists_written_of_unordered (offered : reply.additionalOptions = offerOptions config)
    (asked : reply.reqPacket.requestedCodes = none) {code : UInt8}
    (mandatory : code ∈ mandatoryCodes) :
    ∃ option ∈ fitting 240 (server.replyOptions reply), option.code = code := by
  have order : server.replyOptions reply = server.allOptions reply := by
    rw [Server.replyOptions, asked]
  rw [order, exists_fitting_iff (exists_mandatory offered mandatory), Server.allOptions, offered]
  simp only [mandatoryCodes, List.mem_cons, List.not_mem_nil, or_false] at mandatory
  rcases mandatory with rfl | rfl | rfl
  · exact show 240 + 3 < 300 by decide
  · exact show 240 + (3 + 6) < 300 by decide
  · exact show 240 + (3 + (6 + 6)) < 300 by decide

theorem carriesMandatory_iff_leavesRoom (offered : reply.additionalOptions = offerOptions config)
    {buffer : List UInt8} (room : wireMax ≤ buffer.length) :
    ∃ packet wire after, server.replyPacket reply = .ok packet ∧
      packet.encode buffer = .ok (wire, after) ∧
        ((∀ code ∈ mandatoryCodes, Carries wire code) ↔ LeavesRoom config reply.reqPacket) := by
  rcases replyPacket_eq server reply with ⟨packet, built, options, _⟩
  have notEnd := @notEnd_of_mem_replyOptions config server reply offered
  rw [← options] at notEnd
  refine ⟨packet, _, _, built, encode_eq packet room, ?_⟩
  simp only [carries_wire_iff notEnd, options, LeavesRoom]
  cases asked : reply.reqPacket.requestedCodes with
  | none =>
      exact iff_of_true (fun code => exists_written_of_unordered offered asked) (by simp)
  | some prl =>
      constructor
      · intro written other same code mandatory
        cases same
        exact (exists_written_iff offered asked mandatory).mp (written code mandatory)
      · intro leaves code mandatory
        exact (exists_written_iff offered asked mandatory).mpr (leaves prl rfl code mandatory)

namespace MyServer

variable {initial store next state : MyServer} {past : List Handling}
variable {hasher : Hasher Ipv4Addr Entry} {file : LeasesFile}

theorem cachedOffer_of_loadLeases {lines : List (Option Text)} (valid : store.Valid)
    (loaded : store.loadLeases lines = .ok next) : next.cachedOffer = store.cachedOffer := by
  induction lines generalizing store with
  | nil =>
      cases loaded
      rfl
  | cons line lines induction =>
      rcases Checked.bind_eq_ok_iff.mp loaded with ⟨middle, first, rest⟩
      rcases loadLine_cases valid first with ⟨_, rfl⟩ | ⟨_, _, _, rfl⟩
      · exact induction valid rest
      · have kept := induction (valid_inserted valid) rest
        exact kept

theorem cachedOffer_of_main (accepted : config.validate = .ok config)
    (loaded : main config hasher file = .ok initial) :
    initial.cachedOffer = offerOptions config := by
  cases file with
  | none =>
      cases loaded
      rfl
  | some lines => exact cachedOffer_of_loadLeases (valid_ofConfig accepted hasher) loaded

/-- A server of the given configuration, which its answers follow. -/
structure Offers (config : Config) (store : MyServer) : Prop where
  valid : store.Valid
  cachedOffer : store.cachedOffer = offerOptions config

theorem Offers.step {incoming : Incoming} {output : Option Reply} (before : Offers config store)
    (handled : handleRequest server store incoming = .ok (next, output)) : Offers config next := by
  have effect := effect_of_handled before.valid handled
  exact ⟨effect.valid before.valid, effect.sameSettings.cachedOffer.trans before.cachedOffer⟩

theorem Offers.of_lease {packet : Packet} {now : Instant} (before : Offers config store)
    (effect : Effect server store packet now next (some reply))
    (kind : reply.msgType = .offer ∨ reply.msgType = .ack) :
    reply.additionalOptions = offerOptions config ∧ reply.reqPacket = packet := by
  have lease : reply.msgType ≠ .nak := by
    rcases kind with offer | ack
    · rw [offer]
      decide
    · rw [ack]
      decide
  rcases effect.exists_reply_eq lease with ⟨addr, equal⟩
  rw [equal, ← before.cachedOffer]
  exact ⟨rfl, rfl⟩

/-- In every run, an Offer or Ack carries its mandatory options exactly when the
configuration and the request leave room for them. -/
theorem carriesMandatory_iff (accepted : config.validate = .ok config)
    (loaded : main config hasher file = .ok initial)
    (run : Run (handleRequest server) initial past state) {handled : Handling}
    (member : handled ∈ past) {reply : Reply} (answered : handled.output = some reply)
    (kind : reply.msgType = .offer ∨ reply.msgType = .ack) {buffer : List UInt8}
    (room : wireMax ≤ buffer.length) :
    ∃ packet wire after, server.replyPacket reply = .ok packet ∧
      packet.encode buffer = .ok (wire, after) ∧
        ((∀ code ∈ mandatoryCodes, Carries wire code) ↔
          LeavesRoom config handled.input.packet) := by
  have start : Offers config initial :=
    ⟨valid_main accepted loaded, cachedOffer_of_main accepted loaded⟩
  rcases run.of_mem member with ⟨earlier, run, stepped⟩
  have before : Offers config handled.before := run.invariant start Offers.step
  have effect := effect_of_handled before.valid stepped
  rw [answered] at effect
  rcases before.of_lease effect kind with ⟨offered, request⟩
  rw [← request]
  exact carriesMandatory_iff_leavesRoom offered room

/-- A client that renews its address and lists what it wants to know. -/
def listsOptions : Packet :=
  .ofClient #v[1, 2, 3, 4, 5, 6] [.dhcpMessageType .request,
    .requestedIpAddress (.new 192 168 2 3), .parameterRequestList [1, 3, 6]]

set_option maxRecDepth 10000 in
theorem leavesRoom_listsOptions : LeavesRoom twoLeases listsOptions := by
  intro prl asked
  cases asked
  decide

/-- A list that leaves room for the mandatory options. -/
theorem carriesMandatory_iff_renewal :
    ∃ session, simulate (handleRequest ⟨.new 192 168 2 1⟩) (main twoLeases Hasher.newestFirst none)
        [⟨listsOptions, 0⟩] = .ok session ∧
      ∃ handled ∈ session.past, ∃ reply, handled.output = some reply ∧
        handled.input.packet.requestedCodes = some [1, 3, 6] ∧ ∃ packet wire after,
          Server.replyPacket ⟨.new 192 168 2 1⟩ reply = .ok packet ∧
            packet.encode (List.replicate wireMax 0) = .ok (wire, after) ∧
              ∀ code ∈ mandatoryCodes, Carries wire code := by
  have computed : Checked.passes (simulate (handleRequest ⟨.new 192 168 2 1⟩)
      (main twoLeases Hasher.newestFirst none) [⟨listsOptions, 0⟩])
      (fun session => session.past.any fun handled => handled.input.packet = listsOptions &&
        handled.output.any fun reply => reply.msgType = .ack) = true := by decide
  rcases Checked.exists_of_passes computed with ⟨session, simulated, answers⟩
  rcases Run.of_simulate simulated with ⟨loaded, run⟩
  rcases List.any_eq_true.mp answers with ⟨handled, member, answer⟩
  rw [Bool.and_eq_true, decide_eq_true_eq] at answer
  rcases (Option.any_eq_true _ _).mp answer.2 with ⟨reply, answered, isAck⟩
  have leaves : LeavesRoom twoLeases handled.input.packet := by
    rw [answer.1]
    exact leavesRoom_listsOptions
  have room : wireMax ≤ (List.replicate wireMax (0 : UInt8)).length := by rw [List.length_replicate]
  rcases carriesMandatory_iff rfl loaded run member answered (.inr (of_decide_eq_true isAck)) room
    with ⟨packet, wire, after, built, encoded, exactly⟩
  exact ⟨session, simulated, handled, member, reply, answered, by rw [answer.1]; rfl, packet, wire,
    after, built, encoded, exactly.mpr leaves⟩

/-- Fifteen name servers. -/
def manyNameServers : Config :=
  { twoLeases with dnsIps := List.replicate 15 (.new 8 8 8 8) }

/-- A client that asks for the name servers. -/
def asksForDns : Packet :=
  .ofClient #v[1, 2, 3, 4, 6, 1] [.dhcpMessageType .discover, .parameterRequestList [6]]

theorem fromBytes_asksForDns : Packet.fromBytes asksForDns.wire = .ok asksForDns := by
  apply fromBytes_whole _ (List.cons_ne_nil _ _) (by decide)
  simp [asksForDns, Packet.ofClient, DhcpOption.Readable]

/-- The name servers come first and leave no room for anything. -/
theorem offer_lacks_mandatory : manyNameServers.validate = .ok manyNameServers ∧
    Packet.fromBytes asksForDns.wire = .ok asksForDns ∧
      ∃ session, simulate (handleRequest ⟨.new 192 168 2 1⟩)
          (main manyNameServers Hasher.newestFirst none) [⟨asksForDns, 0⟩] = .ok session ∧
        ∃ handled ∈ session.past, ∃ reply, handled.output = some reply ∧ reply.msgType = .offer ∧
          ∃ packet wire after, Server.replyPacket ⟨.new 192 168 2 1⟩ reply = .ok packet ∧
            packet.encode (List.replicate wireMax 0) = .ok (wire, after) ∧
              ¬∀ code ∈ mandatoryCodes, Carries wire code := by
  have computed : Checked.passes (simulate (handleRequest ⟨.new 192 168 2 1⟩)
      (main manyNameServers Hasher.newestFirst none) [⟨asksForDns, 0⟩])
      (fun session => session.past.any fun handled => handled.output.any fun reply =>
        reply.msgType = .offer ∧ reply.additionalOptions = offerOptions manyNameServers ∧
          reply.reqPacket = asksForDns) = true := by decide
  rcases Checked.exists_of_passes computed with ⟨session, simulated, answers⟩
  rcases List.any_eq_true.mp answers with ⟨handled, member, answer⟩
  rcases (Option.any_eq_true _ _).mp answer with ⟨reply, answered, facts⟩
  rcases of_decide_eq_true facts with ⟨isOffer, offered, request⟩
  have room : wireMax ≤ (List.replicate wireMax (0 : UInt8)).length := by rw [List.length_replicate]
  rcases @carriesMandatory_iff_leavesRoom _ ⟨.new 192 168 2 1⟩ _ offered _ room with
    ⟨packet, wire, after, built, encoded, exactly⟩
  refine ⟨rfl, fromBytes_asksForDns, session, simulated, handled, member, reply, answered, isOffer,
    packet, wire, after, built, encoded, ?_⟩
  rw [exactly, request]
  intro leaves
  have tooLong := leaves [6] rfl 53 (by decide)
  revert tooLong
  decide

end MyServer

end RustyDhcp
