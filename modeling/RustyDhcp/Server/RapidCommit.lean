import RustyDhcp.Server.Invariant

/-! # Rapid commit

A Discover that asks for rapid commit is answered at once with what the client
would have got by way of an Offer and a Request. -/

namespace RustyDhcp

/-! ## The Discover that does not ask for it -/

namespace Packet

def withoutRapidCommit (packet : Packet) : Packet :=
  { packet with options := packet.options.filter fun option => option.code ≠ Options.rapidCommit }

variable {packet : Packet} {code : UInt8}

theorem option_withoutRapidCommit (other : code ≠ Options.rapidCommit) :
    packet.withoutRapidCommit.option code = packet.option code := by
  rw [option, option, withoutRapidCommit, List.find?_filter]
  congr 1
  funext option
  by_cases same : option.code = code
  · simp [same, other]
  · simp [same]

theorem rapidCommit_withoutRapidCommit :
    packet.withoutRapidCommit.option Options.rapidCommit = none := by
  rw [option, List.find?_eq_none]
  intro option listed
  simpa using (List.mem_filter.mp listed).2

theorem messageType_withoutRapidCommit :
    packet.withoutRapidCommit.messageType = packet.messageType := by
  have filtered : ∀ options : List DhcpOption,
      messageTypeOf (options.filter fun option => option.code ≠ Options.rapidCommit) =
        messageTypeOf options := by
    intro options
    induction options with
    | nil => rfl
    | cons option options induction =>
        cases option with
        | unrecognized raw =>
            by_cases asks : raw.code = Options.rapidCommit
            · have other : raw.code ≠ Options.dhcpMessageType := by
                rw [asks]
                decide
              rw [List.filter_cons_of_neg (by simp [DhcpOption.code, asks]), messageTypeOf,
                if_neg other, induction]
            · rw [List.filter_cons_of_pos (by simp [DhcpOption.code, asks]), messageTypeOf,
                messageTypeOf, induction]
        | dhcpMessageType => rfl
        | _ => exact induction
  exact filtered packet.options

end Packet

theorem hostnameOf_withoutRapidCommit {packet : Packet} :
    hostnameOf packet.withoutRapidCommit = hostnameOf packet := by
  rw [hostnameOf, hostnameOf, Packet.option_withoutRapidCommit (by decide)]

namespace MyServer

variable {server : Server} {store next initial state : MyServer} {past : List Handling}
variable {config : Config} {hasher : Hasher Ipv4Addr Entry} {file : LeasesFile}
variable {packet : Packet} {now : Instant} {addr : Ipv4Addr} {mac : Mac}

/-- The Request accepts the offer of an address that its sender got for the
Discover. -/
structure AcceptsOffer (discover : Packet) (addr : Ipv4Addr) (request : Packet) : Prop where
  kind : request.messageType = .ok .request
  chaddr : request.chaddr = discover.chaddr
  requested : request.option Options.requestedIpAddress = some (.requestedIpAddress addr)
  hostname : hostnameOf request = hostnameOf discover

theorem AcceptsOffer.requestedIp {discover request : Packet}
    (accepts : AcceptsOffer discover addr request) : request.requestedIp = addr := by
  rw [Packet.requestedIp, accepts.requested]

/-! ## Learning a host name twice -/

theorem current_renamed (hostname : Option Text) :
    (store.renamed addr hostname).current mac = store.current mac := by
  cases hostname with
  | none => rfl
  | some name =>
      have sameOwner : ∀ entry, store.layout.owner (Entry.rename name entry) =
          store.layout.owner entry := fun _ => rfl
      exact SlotTable.current_amend sameOwner

/-- Announcing the stored name again changes nothing. -/
theorem renamed_eq_self {hostname : Option Text}
    (named : ∀ entry name, store.entry addr = some entry → hostname = some name →
      entry.hostname = some name) : store.renamed addr hostname = store := by
  cases hostname with
  | none => rfl
  | some name =>
      have same : store.table.amend store.layout addr (Entry.rename name) = store.table := by
        apply SlotTable.amend_eq_self
        intro entry found
        have stored := named entry name found rfl
        rw [Entry.rename, ← stored]
      exact congrArg store.withTable same

theorem renamed_renamed (hostname : Option Text) :
    (store.renamed addr hostname).renamed addr hostname = store.renamed addr hostname := by
  apply renamed_eq_self
  intro entry name found announced
  subst announced
  have read : (store.renamed addr (some name)).entry addr =
      if addr = addr then (store.entry addr).map (Entry.rename name) else store.entry addr :=
    SlotTable.lookup_amend (Entry.rename name)
  rw [found, if_pos rfl] at read
  rcases Option.map_eq_some_iff.mp read.symm with ⟨old, _, rfl⟩
  rfl

/-! ## The exchange -/

/-- Where the client holds an address the Request learns its host name once
more, which changes nothing. -/
theorem request_after_held {discover request : Packet} (valid : store.Valid)
    (found : store.current discover.chaddr = some addr)
    (accepts : AcceptsOffer discover addr request) :
    (store.renamed addr (hostnameOf discover)).request request now =
      .ok (store.renamed addr (hostnameOf discover),
        some (store.reply .ack request addr)) := by
  have again : (store.renamed addr (hostnameOf discover)).current request.chaddr =
      some addr := by
    rw [current_renamed, accepts.chaddr, found]
  rw [request_held (valid_renamed valid _) again, accepts.hostname, renamed_renamed,
    reply_renamed]

/-- Where it holds none the Request commits the offered address. -/
theorem request_after_free {discover request : Packet} {offset : Nat} (valid : store.Valid)
    (missing : store.current discover.chaddr = none)
    (first : store.FirstFree discover.chaddr now offset)
    (accepts : AcceptsOffer discover (store.address offset) request) :
    (store.atOffset offset).request request now =
      .ok ((store.atOffset offset).leased (store.address offset) discover now,
        some (store.reply .ack request (store.address offset))) := by
  have still : (store.atOffset offset).current request.chaddr = none := by
    rw [accepts.chaddr]
    exact missing
  have free : (store.atOffset offset).available request.chaddr request.requestedIp now =
      true := by
    rw [accepts.chaddr, accepts.requestedIp]
    exact first.available
  have sameLease : (store.atOffset offset).leased (store.address offset) request now =
      (store.atOffset offset).leased (store.address offset) discover now := by
    rw [leased, leased, accepts.chaddr, accepts.hostname]
  rw [request_free (valid.atOffset first.lt) still free, accepts.requestedIp, sameLease]
  rfl

/-- Rapid commit is the four-message exchange. The Discover without option 80 is
offered an address, and the Request for it leads to the same store and is
acknowledged with the same address as the Discover; or there is nothing to
offer, and neither is the Discover answered nor does it change anything. -/
theorem rapid_eq_exchange (accepted : config.validate = .ok config)
    (loaded : main config hasher file = .ok initial)
    (run : Run (handleRequest server) initial past state)
    (enabled : state.enableRapidCommit = true)
    (kind : packet.messageType = .ok .discover)
    (asks : (packet.option Options.rapidCommit).isSome) (now : Instant) :
    (∃ offered offer,
      handleRequest server state ⟨packet.withoutRapidCommit, now⟩ = .ok (offered, some offer) ∧
      offer.msgType = .offer ∧ ∀ request, AcceptsOffer packet offer.yiaddr request →
        ∃ next committed acked,
          handleRequest server offered ⟨request, now⟩ = .ok (next, some committed) ∧
          handleRequest server state ⟨packet, now⟩ = .ok (next, some acked) ∧
          committed.msgType = .ack ∧ acked.msgType = .ack ∧
          acked.chaddr = committed.chaddr ∧ acked.yiaddr = committed.yiaddr) ∨
    handleRequest server state ⟨packet.withoutRapidCommit, now⟩ = .ok (state, none) ∧
      handleRequest server state ⟨packet, now⟩ = .ok (state, none) := by
  have valid := valid_reached accepted loaded run
  have rapid : state.rapid packet = true := by
    rw [MyServer.rapid, enabled, asks]
    rfl
  have plain : state.rapid packet.withoutRapidCommit = false := by
    rw [MyServer.rapid, Packet.rapidCommit_withoutRapidCommit]
    exact Bool.and_false _
  have plainKind : packet.withoutRapidCommit.messageType = .ok .discover :=
    Packet.messageType_withoutRapidCommit.trans kind
  rw [handleRequest_discover kind, handleRequest_discover plainKind]
  cases found : state.current packet.chaddr with
  | some addr =>
      have plainFound : state.current packet.withoutRapidCommit.chaddr = some addr := found
      rw [discover_held valid found, discover_held valid plainFound,
        hostnameOf_withoutRapidCommit, discoverType, discoverType, rapid, plain]
      refine .inl ⟨_, _, rfl, rfl, ?_⟩
      intro request accepts
      rw [handleRequest_request accepts.kind, request_after_held valid found accepts]
      exact ⟨_, _, _, rfl, rfl, rfl, rfl, accepts.chaddr.symm, rfl⟩
  | none =>
      have plainMissing : state.current packet.withoutRapidCommit.chaddr = none := found
      rcases firstFree_or_full valid packet.chaddr now with ⟨offset, first⟩ | full
      · have plainFirst : state.FirstFree packet.withoutRapidCommit.chaddr now offset := first
        rw [discover_free valid found first, discover_free valid plainMissing plainFirst,
          discoverType, discoverType, rapid, plain]
        refine .inl ⟨_, _, rfl, rfl, ?_⟩
        intro request accepts
        rw [handleRequest_request accepts.kind]
        refine ⟨_, _, _, request_after_free valid found first accepts, rfl, rfl, rfl,
          accepts.chaddr.symm, rfl⟩
      · exact .inr ⟨discover_exhausted valid plainMissing full,
          discover_exhausted valid found full⟩

def rapidLeases : Config := { twoLeases with enableRapidCommit := true }

/-- A Discover that asks for rapid commit. -/
def rapidDiscover : Packet :=
  .ofClient #v[1, 2, 3, 4, 5, 8] [.dhcpMessageType .discover, .unrecognized ⟨80, []⟩]

/-- A newcomer to a server that has leased one of its two addresses. -/
theorem rapid_eq_exchange_newcomer :
    ∃ session offered offer next committed acked,
      simulate (handleRequest ⟨.new 192 168 2 1⟩) (main rapidLeases Hasher.newestFirst none)
        [⟨requestFor #v[1, 2, 3, 4, 5, 7] (.new 192 168 2 3), 5⟩] = .ok session ∧
      handleRequest ⟨.new 192 168 2 1⟩ session.state ⟨rapidDiscover.withoutRapidCommit, 6⟩ =
        .ok (offered, some offer) ∧
      handleRequest ⟨.new 192 168 2 1⟩ offered
        ⟨requestFor #v[1, 2, 3, 4, 5, 8] offer.yiaddr, 6⟩ = .ok (next, some committed) ∧
      handleRequest ⟨.new 192 168 2 1⟩ session.state ⟨rapidDiscover, 6⟩ =
        .ok (next, some acked) ∧
      acked.yiaddr = committed.yiaddr := by
  have computed : Checked.passes (simulate (handleRequest ⟨.new 192 168 2 1⟩)
      (main rapidLeases Hasher.newestFirst none)
      [⟨requestFor #v[1, 2, 3, 4, 5, 7] (.new 192 168 2 3), 5⟩])
      (fun session => session.state.enableRapidCommit &&
        Checked.passes (handleRequest ⟨.new 192 168 2 1⟩ session.state ⟨rapidDiscover, 6⟩)
          fun result => result.2.isSome) = true := by decide
  rcases Checked.exists_of_passes computed with ⟨session, simulated, tested⟩
  rcases Run.of_simulate simulated with ⟨loaded, run⟩
  rw [Bool.and_eq_true] at tested
  rcases Checked.exists_of_passes tested.2 with ⟨_, answered, some⟩
  have kind : rapidDiscover.messageType = .ok .discover := rfl
  rcases rapid_eq_exchange rfl loaded run tested.1 kind rfl 6 with
    ⟨offered, offer, plain, _, exchanged⟩ | ⟨_, silent⟩
  · rcases exchanged (requestFor #v[1, 2, 3, 4, 5, 8] offer.yiaddr) ⟨rfl, rfl, rfl, rfl⟩ with
      ⟨next, committed, acked, requested, rapid, _, _, _, same⟩
    exact ⟨session, offered, offer, next, committed, acked, simulated, plain, requested, rapid,
      same⟩
  · rw [silent] at answered
    cases answered
    cases some

end MyServer

end RustyDhcp
