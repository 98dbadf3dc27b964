import RustyDhcp.Dhcpv6.Offers
import RustyDhcp.Dhcpv6.Reservations
import RustyDhcp.Server.Isolation
import RustyDhcp.Server.Reservations

/-! # Answers and the leases behind them

What a client is told agrees with the lease table: an address that it is given
is its own afterwards, one that it is refused could not be given to it, and one
that it is offered is its own or free. -/

namespace RustyDhcp

namespace MyServer

variable {server : Server} {store next initial state : MyServer} {reply : Option Reply}
variable {packet : Packet} {now : Instant} {addr : Ipv4Addr} {mac : Mac} {sent : Reply}
variable {config : Config} {hasher : Hasher Ipv4Addr Entry} {file : LeasesFile}
variable {past : List Handling}

/-! ## Where entries come from -/

/-- The address is one of the pool, or the file reserves it for the client. -/
def Accountable (file : LeasesFile) (store : MyServer) (mac : Mac) (addr : Ipv4Addr) : Prop :=
  store.inPool addr = true ∨ (mac, addr) ∈ reservations file

/-- A valid store of which every entry is accounted for. -/
structure Accounted (file : LeasesFile) (store : MyServer) : Prop where
  valid : store.Valid
  entries : ∀ addr mac, store.HeldBy addr mac → Accountable file store mac addr

/-- Whoever has an entry after a packet had it before, or has an address of the
pool. -/
theorem Change.heldBy {entries : Ipv4Addr → Option Entry} {entry : Entry}
    (change : Change server store packet now entries) (found : entries addr = some entry) :
    store.HeldBy addr entry.mac ∨ store.inPool addr = true := by
  cases change with
  | unchanged => exact .inl ⟨entry, found, rfl⟩
  | @write written _ _ inside _ =>
      by_cases same : addr = written
      · rw [same]
        exact .inr inside
      · rw [Function.update_of_ne same] at found
        exact .inl ⟨entry, found, rfl⟩
  | @rename renamed old _ _ _ read _ =>
      by_cases same : addr = renamed
      · subst same
        rw [Function.update_self] at found
        cases found
        exact .inl ⟨old, read, rfl⟩
      · rw [Function.update_of_ne same] at found
        exact .inl ⟨entry, found, rfl⟩
  | @remove removed _ _ =>
      by_cases same : addr = removed
      · rw [same, Function.update_self] at found
        cases found
      · rw [Function.update_of_ne same] at found
        exact .inl ⟨entry, found, rfl⟩

theorem Accounted.step {incoming : Incoming} (before : Accounted file store)
    (handled : handleRequest server store incoming = .ok (next, reply)) :
    Accounted file next := by
  have effect := effect_of_handled before.valid handled
  refine ⟨effect.valid before.valid, ?_⟩
  intro addr mac held
  rcases held with ⟨entry, found, owner⟩
  rw [Accountable, effect.sameSettings.inPool]
  rcases (effect.change before.valid).heldBy found with earlier | inside
  · rw [← owner]
    exact before.entries addr entry.mac earlier
  · exact .inl inside

theorem accounted_main (accepted : config.validate = .ok config)
    (loaded : main config hasher file = .ok initial) : Accounted file initial := by
  refine ⟨valid_main accepted loaded, ?_⟩
  intro addr mac held
  rcases leases_heldBy_iff.mpr held with ⟨lease, found, owner⟩
  rw [leases_main accepted loaded] at found
  rcases LeaseTable.reserve_cases found with nothing | listed
  · cases nothing
  · rw [owner] at listed
    exact .inr listed

/-! ## What the answers say -/

/-- The client holds the address, or it is one of the pool that is available to
the client. -/
def Offerable (store : MyServer) (mac : Mac) (addr : Ipv4Addr) (now : Instant) : Prop :=
  store.HeldBy addr mac ∨
    store.inPool addr = true ∧ store.availableAt mac addr now = .ok true

/-- The answer goes to the sender of the packet and is true of the stores before
and after it. -/
structure Truthful (file : LeasesFile) (store : MyServer) (packet : Packet) (now : Instant)
    (next : MyServer) (sent : Reply) : Prop where
  chaddr : sent.chaddr = packet.chaddr
  kind : sent.msgType = .ack ∨ sent.msgType = .nak ∨ sent.msgType = .offer
  ack : sent.msgType = .ack →
    next.HeldBy sent.yiaddr packet.chaddr ∧ Accountable file next packet.chaddr sent.yiaddr
  nak : sent.msgType = .nak → (∀ held, ¬store.HeldBy held packet.chaddr) ∧
    store.availableAt packet.chaddr packet.requestedIp now = .ok false ∧ next = store
  offer : sent.msgType = .offer →
    store.Offerable packet.chaddr sent.yiaddr now ∧ next.Offerable packet.chaddr sent.yiaddr now

theorem heldBy_renamed_iff {other : Ipv4Addr} (hostname : Option Text) :
    (store.renamed addr hostname).HeldBy other mac ↔ store.HeldBy other mac := by
  cases hostname with
  | none => exact Iff.rfl
  | some name =>
      have sameOwner : ∀ entry, store.layout.owner (Entry.rename name entry) =
          store.layout.owner entry := fun _ => rfl
      exact SlotTable.heldBy_amend_iff sameOwner

theorem heldBy_leased (valid : store.Valid) :
    (store.leased addr packet now).HeldBy addr packet.chaddr := by
  have found : (store.leased addr packet now).entry addr =
      some ⟨packet.chaddr, some (now + store.leaseDuration), hostnameOf packet⟩ := by
    rw [entry_leased valid, Function.update_self]
  exact ⟨_, found, rfl⟩

/-- An Ack is backed by an entry. -/
theorem Effect.heldBy_of_ack (effect : Effect server store packet now next (some sent))
    (valid : store.Valid) (kind : sent.msgType = .ack) :
    next.HeldBy sent.yiaddr packet.chaddr := by
  cases effect with
  | heldOffered => cases kind
  | freeOffered => cases kind
  | heldAcked _ current =>
      exact (heldBy_renamed_iff _).mpr (heldBy_of_current valid current)
  | freeAcked _ _ _ first => exact heldBy_leased (valid.atOffset first.lt)
  | requestAcked => exact heldBy_leased valid
  | requestRefused => cases kind

theorem Effect.refused_of_nak (effect : Effect server store packet now next (some sent))
    (valid : store.Valid) (kind : sent.msgType = .nak) :
    (∀ held, ¬store.HeldBy held packet.chaddr) ∧
      store.availableAt packet.chaddr packet.requestedIp now = .ok false ∧ next = store := by
  cases effect with
  | heldOffered => cases kind
  | freeOffered => cases kind
  | heldAcked => cases kind
  | freeAcked => cases kind
  | requestAcked => cases kind
  | requestRefused _ nothing taken =>
      exact ⟨nothing, by rw [availableAt_eq valid, taken], rfl⟩

theorem FirstFree.offerable {offset : Nat} (first : store.FirstFree mac now offset)
    (valid : store.Valid) : store.Offerable mac (store.address offset) now := by
  right
  rw [availableAt_eq valid, first.available]
  exact ⟨(available_iff.mp first.available).1, rfl⟩

theorem Effect.offerable_of_offer (effect : Effect server store packet now next (some sent))
    (valid : store.Valid) (kind : sent.msgType = .offer) :
    store.Offerable packet.chaddr sent.yiaddr now ∧
      next.Offerable packet.chaddr sent.yiaddr now := by
  cases effect with
  | heldOffered _ _ current =>
      have held := heldBy_of_current valid current
      exact ⟨.inl held, .inl ((heldBy_renamed_iff _).mpr held)⟩
  | freeOffered _ _ _ first =>
      have before := first.offerable valid
      have moved := valid.atOffset first.lt
      refine ⟨before, .inr ⟨?_, ?_⟩⟩
      · exact (available_iff.mp first.available).1
      · rw [availableAt_eq moved]
        exact congrArg Except.ok first.available
  | heldAcked => cases kind
  | freeAcked => cases kind
  | requestAcked => cases kind
  | requestRefused => cases kind

theorem Effect.answers_sender (effect : Effect server store packet now next (some sent)) :
    sent.chaddr = packet.chaddr ∧
      (sent.msgType = .ack ∨ sent.msgType = .nak ∨ sent.msgType = .offer) := by
  cases effect with
  | heldOffered => exact ⟨rfl, .inr (.inr rfl)⟩
  | freeOffered => exact ⟨rfl, .inr (.inr rfl)⟩
  | heldAcked => exact ⟨rfl, .inl rfl⟩
  | freeAcked => exact ⟨rfl, .inl rfl⟩
  | requestAcked => exact ⟨rfl, .inl rfl⟩
  | requestRefused => exact ⟨rfl, .inr (.inl rfl)⟩

theorem truthful_of_handled {incoming : Incoming} (before : Accounted file store)
    (handled : handleRequest server store incoming = .ok (next, some sent)) :
    Truthful file store incoming.packet incoming.now next sent := by
  have effect := effect_of_handled before.valid handled
  have after : Accounted file next := before.step handled
  refine ⟨effect.answers_sender.1, effect.answers_sender.2, ?_,
    effect.refused_of_nak before.valid, effect.offerable_of_offer before.valid⟩
  intro kind
  have held := effect.heldBy_of_ack before.valid kind
  exact ⟨held, after.entries _ _ held⟩

end MyServer

namespace Dhcpv6

variable {config : Config} {pool next initial state : V6Pool} {received : Received}
variable {duid : Duid} {addr : Ipv6Addr} {now : Instant} {sent : Sent} {msgType : MsgType}

/-- The client holds the address, or it is one of the pool that is available to
the client. -/
def V6Pool.Offerable (pool : V6Pool) (duid : Duid) (addr : Ipv6Addr) (now : Instant) : Prop :=
  pool.HeldBy addr duid ∨
    pool.inRange addr = true ∧ pool.availableAt duid addr now = .ok true

/-- The addresses that a packet carries. -/
def Packet.addresses (packet : Packet) : List Ipv6Addr := packet.iaAddrs.map IaAddr.addr

/-- Request, Renew and Rebind ask for an address. -/
def MsgType.Asks (msgType : MsgType) : Prop :=
  msgType = .request ∨ msgType = .renew ∨ msgType = .rebind

/-- The answer goes to the sender of the packet, carries an address or says that
there is none, and is true of the pools before and after it. -/
structure Truthful (config : Config) (pool : V6Pool) (received : Received) (duid : Duid)
    (next : V6Pool) (sent : Sent) : Prop where
  client : received.packet.clientDuid = some duid
  sender : sent.packet.clientDuid = some duid ∧ sent.dst = received.src
  kind : sent.packet.msgType = .reply ∨ sent.packet.msgType = .advertise
  content : (∃ addr, sent.packet.addresses = [addr]) ∧ ¬sent.packet.Refuses ∨
    sent.packet.addresses = [] ∧ sent.packet.Refuses
  reply : sent.packet.msgType = .reply → ∀ addr ∈ sent.packet.addresses, next.HeldBy addr duid
  advertise : sent.packet.msgType = .advertise → ∀ addr ∈ sent.packet.addresses,
    pool.Offerable duid addr received.discovered ∧ next.Offerable duid addr received.discovered
  refusal : sent.packet.Refuses → received.packet.msgType.Asks →
    (∀ held, ¬pool.HeldBy held duid) ∧
      (∃ addr, received.packet.wanted = some addr ∧
        pool.availableAt duid addr received.requested = .ok false) ∧ next = pool
  exhausted : sent.packet.Refuses → ¬received.packet.msgType.Asks →
    received.packet.msgType = .solicit ∧
      sent.packet.msgType = solicitType config received.packet ∧
      (∀ held, ¬pool.HeldBy held duid) ∧
      ∀ addr, pool.availableAt duid addr received.discovered = .ok false

theorem addresses_success :
    (success config duid received msgType addr).packet.addresses = [addr] := by
  rw [Packet.addresses, iaAddrs_success]
  rfl

theorem solicitType_cases (config : Config) (packet : Packet) :
    solicitType config packet = .reply ∨ solicitType config packet = .advertise := by
  rw [solicitType]
  split
  · exact .inl rfl
  · exact .inr rfl

/-- An answer with an address is true if the address is the one of the client
where the answer is a Reply, and can be offered where it is an Advertise. -/
theorem truthful_success (client : received.packet.clientDuid = some duid)
    (kind : msgType = .reply ∨ msgType = .advertise)
    (reply : msgType = .reply → next.HeldBy addr duid)
    (advertise : msgType = .advertise → pool.Offerable duid addr received.discovered ∧
      next.Offerable duid addr received.discovered) :
    Truthful config pool received duid next (success config duid received msgType addr) where
  client := client
  sender := ⟨rfl, rfl⟩
  kind := kind
  content := .inl ⟨⟨addr, addresses_success⟩, not_refuses_success⟩
  reply isReply carried listed := by
    rw [addresses_success, List.mem_singleton] at listed
    rw [listed]
    exact reply isReply
  advertise isAdvertise carried listed := by
    rw [addresses_success, List.mem_singleton] at listed
    rw [listed]
    exact advertise isAdvertise
  refusal refuses := absurd refuses not_refuses_success
  exhausted refuses := absurd refuses not_refuses_success

theorem truthful_reply (client : received.packet.clientDuid = some duid)
    (held : next.HeldBy addr duid) :
    Truthful config pool received duid next (success config duid received .reply addr) := by
  apply truthful_success client (.inl rfl)
  · intro _
    exact held
  · intro isAdvertise
    cases isAdvertise

/-- An answer without an address is true if there was none for the client. -/
theorem truthful_failure (client : received.packet.clientDuid = some duid)
    (kind : msgType = .reply ∨ msgType = .advertise)
    (nothing : ∀ held, ¬pool.HeldBy held duid)
    (refusal : received.packet.msgType.Asks → (∃ addr, received.packet.wanted = some addr ∧
      pool.availableAt duid addr received.requested = .ok false) ∧ next = pool)
    (exhausted : ¬received.packet.msgType.Asks → received.packet.msgType = .solicit ∧
      msgType = solicitType config received.packet ∧
      ∀ addr, pool.availableAt duid addr received.discovered = .ok false) :
    Truthful config pool received duid next (failure config duid received msgType) where
  client := client
  sender := ⟨rfl, rfl⟩
  kind := kind
  content := .inr ⟨rfl, refuses_failure⟩
  reply _ _ listed := by cases listed
  advertise _ _ listed := by cases listed
  refusal _ asks := ⟨nothing, refusal asks⟩
  exhausted _ other := by
    rcases exhausted other with ⟨solicits, type, full⟩
    exact ⟨solicits, type, nothing, full⟩

theorem heldBy_leased (valid : pool.Valid) : (pool.leased duid addr now).HeldBy addr duid :=
  V6Pool.heldBy_of_current (V6Pool.valid_leased valid) (V6Pool.current_leased valid)

theorem truthful_of_solicit (serves : Serves config pool)
    (client : received.packet.clientDuid = some duid) (kind : received.packet.msgType = .solicit)
    (served : solicit config pool duid received = .ok (next, some sent)) :
    Truthful config pool received duid next sent := by
  have valid := serves.valid
  have types := solicitType_cases config received.packet
  cases current : pool.current duid with
  | some addr =>
      have held := V6Pool.heldBy_of_current valid current
      rw [solicit_held valid current] at served
      cases served
      exact truthful_success client types (fun _ => held) fun _ => ⟨.inl held, .inl held⟩
  | none =>
      have nothing := (V6Pool.current_eq_none_iff valid).mp current
      rcases V6Pool.firstFree_or_full valid duid received.discovered with ⟨offset, first⟩ | full
      · have moved : (pool.atOffset offset).Valid := valid.atOffset first.lt
        have inside := (V6Pool.available_iff.mp first.available).1
        have before : pool.Offerable duid (pool.address offset) received.discovered :=
          .inr ⟨inside, by rw [V6Pool.availableAt_eq valid, first.available]⟩
        have after : (pool.atOffset offset).Offerable duid (pool.address offset)
            received.discovered :=
          .inr ⟨inside, (V6Pool.availableAt_eq moved).trans (congrArg Except.ok first.available)⟩
        rw [solicit_free serves current first] at served
        cases served
        apply truthful_success client types
        · intro isReply
          cases rapid : asksRapid config received.packet with
          | false => simp [solicitType, rapid] at isReply
          | true => exact heldBy_leased moved
        · intro isAdvertise
          cases rapid : asksRapid config received.packet with
          | false => exact ⟨before, after⟩
          | true => simp [solicitType, rapid] at isAdvertise
      · rw [solicit_exhausted valid current full] at served
        cases served
        apply truthful_failure client types nothing
        · intro asks
          rcases asks with asks | asks | asks <;> rw [kind] at asks <;> cases asks
        · intro _
          refine ⟨kind, rfl, ?_⟩
          intro addr
          rw [V6Pool.availableAt_eq valid, full addr]

theorem truthful_of_request (serves : Serves config pool)
    (client : received.packet.clientDuid = some duid) (kind : received.packet.msgType.Asks)
    (served : request config pool duid received = .ok (next, some sent)) :
    Truthful config pool received duid next sent := by
  have valid := serves.valid
  rw [request] at served
  cases wanted : received.packet.wanted with
  | none =>
      rw [wanted] at served
      cases served
  | some addr =>
      simp only [wanted] at served
      cases current : pool.current duid with
      | some held =>
          simp only [V6Pool.request_held valid current, Checked.bind_ok] at served
          cases served
          exact truthful_reply client (V6Pool.heldBy_of_current valid current)
      | none =>
          cases free : pool.available duid addr received.requested with
          | true =>
              simp only [serves.request_free current free, Checked.bind_ok] at served
              cases served
              exact truthful_reply client (heldBy_leased valid)
          | false =>
              simp only [V6Pool.request_refused valid current free, Checked.bind_ok] at served
              cases served
              have nothing := (V6Pool.current_eq_none_iff valid).mp current
              have refused : pool.availableAt duid addr received.requested = .ok false := by
                rw [V6Pool.availableAt_eq valid, free]
              apply truthful_failure client (.inl rfl) nothing
              · intro _
                exact ⟨⟨addr, wanted, refused⟩, rfl⟩
              · intro other
                exact absurd kind other

theorem release_unanswered : release config pool duid received ≠ .ok (next, some sent) := by
  intro served
  rw [release] at served
  split at served
  · rcases Checked.bind_eq_ok_iff.mp served with ⟨_, _, finish⟩
    cases finish
  · cases served

theorem truthful_of_served (serves : Serves config pool)
    (served : serveV6 config pool received = .ok (next, some sent)) :
    ∃ duid, Truthful config pool received duid next sent := by
  rw [serveV6] at served
  split at served
  · cases served
  · rename_i duid client
    refine ⟨duid, ?_⟩
    split at served
    · exact truthful_of_solicit serves client (by assumption) served
    · exact truthful_of_request serves client (.inl (by assumption)) served
    · exact truthful_of_request serves client (.inr (.inl (by assumption))) served
    · exact truthful_of_request serves client (.inr (.inr (by assumption))) served
    · exact absurd served release_unanswered
    · exact absurd served release_unanswered
    · cases served

end Dhcpv6

/-- Every answer of either server, to any packet at any time in any state that
the server can reach, agrees with the leases. -/
theorem truthful_of_run :
    (∀ {config hasher file server initial past state}, config.validate = .ok config →
      MyServer.main config hasher file = .ok initial →
      Run (MyServer.handleRequest server) initial past state →
      ∀ {incoming next sent},
        MyServer.handleRequest server state incoming = .ok (next, some sent) →
        MyServer.Truthful file state incoming.packet incoming.now next sent) ∧
    ∀ {config hasher file initial past state},
      Dhcpv6.startPool config hasher file = .ok initial →
      Run (Dhcpv6.serveV6 config) initial past state →
      ∀ {received next sent}, Dhcpv6.serveV6 config state received = .ok (next, some sent) →
        ∃ duid, Dhcpv6.Truthful config state received duid next sent := by
  refine ⟨?_, ?_⟩
  · intro config hasher file server initial past state accepted loaded run incoming next sent
      handled
    have before : MyServer.Accounted file state :=
      run.invariant (MyServer.accounted_main accepted loaded) MyServer.Accounted.step
    exact MyServer.truthful_of_handled before handled
  · intro config hasher file initial past state started run received next sent served
    rcases Dhcpv6.startPool_reserves config hasher file with ⟨pool, equal, serves, _⟩
    rw [started] at equal
    cases equal
    exact Dhcpv6.truthful_of_served (Dhcpv6.serves_of_run serves run) served

/-- A stranger is given a reservation by the DHCPv4 server, and refused it by the
DHCPv6 server. -/
theorem truthful_of_run_stranger :
    (∃ session next sent, simulate (MyServer.handleRequest ⟨.new 192 168 2 1⟩)
        (MyServer.main MyServer.twoLeases Hasher.newestFirst MyServer.oneReservation) [] =
          .ok session ∧
      MyServer.handleRequest ⟨.new 192 168 2 1⟩ session.state
          ⟨MyServer.requestFor #v[1, 2, 3, 4, 5, 7] (.new 192 168 2 3), 5⟩ =
        .ok (next, some sent) ∧
      MyServer.Truthful MyServer.oneReservation session.state
        (MyServer.requestFor #v[1, 2, 3, 4, 5, 7] (.new 192 168 2 3)) 5 next sent) ∧
    ∃ session next sent duid, simulate (Dhcpv6.serveV6 Dhcpv6.twoAddressConfig)
        (Dhcpv6.startPool Dhcpv6.twoAddressConfig Hasher.newestFirst Dhcpv6.oneReservation) [] =
          .ok session ∧
      Dhcpv6.serveV6 Dhcpv6.twoAddressConfig session.state
          (.fromClient .request [2] Dhcpv6.V6Pool.firstAddress 5) = .ok (next, some sent) ∧
      Dhcpv6.Truthful Dhcpv6.twoAddressConfig session.state
        (.fromClient .request [2] Dhcpv6.V6Pool.firstAddress 5) duid next sent := by
  refine ⟨?_, ?_⟩
  · have computed : Checked.passes (simulate (MyServer.handleRequest ⟨.new 192 168 2 1⟩)
        (MyServer.main MyServer.twoLeases Hasher.newestFirst MyServer.oneReservation) [])
        (fun session => Checked.passes (MyServer.handleRequest ⟨.new 192 168 2 1⟩ session.state
          ⟨MyServer.requestFor #v[1, 2, 3, 4, 5, 7] (.new 192 168 2 3), 5⟩)
          fun result => result.2.isSome) = true := by decide
    rcases Checked.exists_of_passes computed with ⟨session, simulated, tested⟩
    rcases Checked.exists_some_of_passes tested with ⟨next, sent, handled⟩
    rcases Run.of_simulate simulated with ⟨loaded, run⟩
    exact ⟨session, next, sent, simulated, handled, truthful_of_run.1 rfl loaded run handled⟩
  · have computed : Checked.passes (simulate (Dhcpv6.serveV6 Dhcpv6.twoAddressConfig)
        (Dhcpv6.startPool Dhcpv6.twoAddressConfig Hasher.newestFirst Dhcpv6.oneReservation) [])
        (fun session => Checked.passes (Dhcpv6.serveV6 Dhcpv6.twoAddressConfig session.state
          (.fromClient .request [2] Dhcpv6.V6Pool.firstAddress 5))
          fun result => result.2.isSome) = true := by decide
    rcases Checked.exists_of_passes computed with ⟨session, simulated, tested⟩
    rcases Checked.exists_some_of_passes tested with ⟨next, sent, served⟩
    rcases Run.of_simulate simulated with ⟨started, run⟩
    rcases truthful_of_run.2 started run served with ⟨duid, truthful⟩
    exact ⟨session, next, sent, duid, simulated, served, truthful⟩

end RustyDhcp
