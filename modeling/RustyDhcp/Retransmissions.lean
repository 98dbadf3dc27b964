import RustyDhcp.Dhcpv6.Offers
import RustyDhcp.Server.RapidCommit

/-! # Retransmissions

A client that repeats itself after it was given an address is given the same
address again, however late, and nothing changes. -/

namespace RustyDhcp

namespace MyServer

variable {server : Server} {store next : MyServer} {packet : Packet} {addr : Ipv4Addr}
variable {now later : Instant} {sent : Reply}

/-- The client has the address, under the host name that it announces. -/
structure Committed (store : MyServer) (packet : Packet) (addr : Ipv4Addr) : Prop where
  valid : store.Valid
  current : store.current packet.chaddr = some addr
  named : store.renamed addr (hostnameOf packet) = store

theorem committed_renamed (valid : store.Valid)
    (current : store.current packet.chaddr = some addr) :
    (store.renamed addr (hostnameOf packet)).Committed packet addr where
  valid := valid_renamed valid _
  current := by rw [current_renamed, current]
  named := renamed_renamed _

theorem committed_leased (valid : store.Valid) :
    (store.leased addr packet now).Committed packet addr := by
  have found : (store.leased addr packet now).entry addr =
      some ⟨packet.chaddr, some (now + store.leaseDuration), hostnameOf packet⟩ := by
    rw [entry_leased valid, Function.update_self]
  refine ⟨valid_leased valid, ?_, ?_⟩
  · have hint : (store.leased addr packet now).table.hints.get? packet.chaddr = some addr :=
      (SlotTable.get?_hints_insert valid.hints packet.chaddr).trans (if_pos rfl)
    exact SlotTable.current_of_hint (valid_leased valid).table hint ⟨_, found, rfl⟩
  · apply renamed_eq_self
    intro entry name read announced
    rw [found] at read
    cases read
    exact announced

/-- A client that was sent an Ack asked for it and has the address. -/
theorem Effect.committed (effect : Effect server store packet now next (some sent))
    (valid : store.Valid) (acked : sent.msgType = .ack) :
    next.Committed packet sent.yiaddr ∧ (packet.messageType = .ok .request ∨
      packet.messageType = .ok .discover ∧ next.rapid packet = true) := by
  have sameRapid : next.rapid packet = store.rapid packet := by
    rw [rapid, rapid, effect.sameSettings.enableRapidCommit]
  rw [sameRapid]
  cases effect with
  | heldOffered => cases acked
  | freeOffered => cases acked
  | heldAcked kind current => exact ⟨committed_renamed valid current, kind⟩
  | freeAcked kind rapid _ first =>
      exact ⟨committed_leased (valid.atOffset first.lt), .inr ⟨kind, rapid⟩⟩
  | requestAcked kind => exact ⟨committed_leased valid, .inl kind⟩
  | requestRefused => cases acked

/-- Asking again gives the same answer and leaves the store as it is. -/
theorem Committed.again (committed : store.Committed packet addr)
    (kind : packet.messageType = .ok .request ∨
      packet.messageType = .ok .discover ∧ store.rapid packet = true) :
    handleRequest server store ⟨packet, now⟩ =
      .ok (store, some (store.reply .ack packet addr)) := by
  rcases kind with requested | ⟨discovered, rapid⟩
  · rw [handleRequest_request requested, request_held committed.valid committed.current,
      committed.named]
  · rw [handleRequest_discover discovered, discover_held committed.valid committed.current,
      committed.named, discoverType, if_pos rapid]

end MyServer

namespace Dhcpv6.V6Pool

variable {pool next : V6Pool} {duid : Duid} {addr given : Ipv6Addr} {now : Instant}

/-- A client whose request was accepted has the address. -/
theorem current_of_request (valid : pool.Valid)
    (requested : pool.request duid addr now = .ok (next, .ok given)) :
    next.Valid ∧ next.current duid = some given := by
  cases found : pool.current duid with
  | some held =>
      rw [request_held valid found] at requested
      cases requested
      exact ⟨valid, found⟩
  | none =>
      cases free : pool.available duid addr now with
      | true =>
          by_cases fits : Instant.Fits now pool.leaseDuration
          · rw [request_free valid found free fits] at requested
            cases requested
            exact ⟨valid_leased valid, current_leased valid⟩
          · rw [request_late valid found free fits] at requested
            cases requested
      | false =>
          rw [request_refused valid found free] at requested
          cases requested

end Dhcpv6.V6Pool

/-- Retransmissions are idempotent. Whoever got an Ack from the DHCPv4 server, or
an address from the DHCPv6 pool, gets the same again and nothing changes. -/
theorem retransmission_of_run :
    (∀ {config hasher file server initial past state},
      config.validate = .ok config → MyServer.main config hasher file = .ok initial →
      Run (MyServer.handleRequest server) initial past state →
      ∀ {packet earlier next sent},
        MyServer.handleRequest server state ⟨packet, earlier⟩ = .ok (next, some sent) →
        sent.msgType = .ack →
        ∀ later, earlier ≤ later → ∃ again,
          MyServer.handleRequest server next ⟨packet, later⟩ = .ok (next, some again) ∧
            again.msgType = .ack ∧ again.yiaddr = sent.yiaddr) ∧
    ∀ {hasher start count leaseDuration past state},
      Run Dhcpv6.V6Pool.call (Dhcpv6.V6Pool.new hasher start count leaseDuration) past state →
      ∀ {duid addr earlier next given},
        state.request duid addr earlier = .ok (next, .ok given) →
        ∀ other later, earlier ≤ later →
          next.request duid other later = .ok (next, .ok given) ∧
            next.discover duid later = .ok (next, some given) := by
  refine ⟨?_, ?_⟩
  · intro config hasher file server initial past state accepted loaded run packet earlier next
      sent handled acked later _
    have valid := MyServer.valid_reached accepted loaded run
    have effect := MyServer.effect_of_handled valid handled
    rcases effect.committed valid acked with ⟨committed, kind⟩
    exact ⟨_, committed.again kind, rfl, rfl⟩
  · intro hasher start count leaseDuration past state run duid addr earlier next given requested
      other later _
    have valid := Dhcpv6.V6Pool.valid_reached run
    rcases Dhcpv6.V6Pool.current_of_request valid requested with ⟨nextValid, current⟩
    exact ⟨Dhcpv6.V6Pool.request_held nextValid current,
      Dhcpv6.V6Pool.discover_held nextValid current⟩

/-- Two newcomers, who come back long after their leases expired. -/
theorem retransmission_of_run_expired :
    (∃ session next sent, simulate (MyServer.handleRequest ⟨.new 192 168 2 1⟩)
        (MyServer.main MyServer.twoLeases Hasher.newestFirst none) [] = .ok session ∧
      MyServer.handleRequest ⟨.new 192 168 2 1⟩ session.state
          ⟨MyServer.requestFor #v[2, 2, 3, 4, 5, 6] (.new 192 168 2 2), 5⟩ =
        .ok (next, some sent) ∧
      ∃ again, MyServer.handleRequest ⟨.new 192 168 2 1⟩ next
          ⟨MyServer.requestFor #v[2, 2, 3, 4, 5, 6] (.new 192 168 2 2), 100000000000000⟩ =
        .ok (next, some again) ∧ again.msgType = .ack ∧ again.yiaddr = sent.yiaddr) ∧
    ∃ session next given, simulate Dhcpv6.V6Pool.call (.ok Dhcpv6.V6Pool.twoAddresses) [] =
        .ok session ∧
      session.state.request [1] Dhcpv6.V6Pool.firstAddress 5 = .ok (next, .ok given) ∧
      next.request [1] (.new 0xfd00 0 0 0 0 0 0 0x101) 20000000000 = .ok (next, .ok given) ∧
      next.discover [1] 20000000000 = .ok (next, some given) := by
  refine ⟨?_, ?_⟩
  · have computed : Checked.passes (simulate (MyServer.handleRequest ⟨.new 192 168 2 1⟩)
        (MyServer.main MyServer.twoLeases Hasher.newestFirst none) [])
        (fun session => Checked.passes (MyServer.handleRequest ⟨.new 192 168 2 1⟩ session.state
          ⟨MyServer.requestFor #v[2, 2, 3, 4, 5, 6] (.new 192 168 2 2), 5⟩)
          fun result => result.2.map Reply.msgType = some .ack) = true := by decide
    rcases Checked.exists_of_passes computed with ⟨session, simulated, tested⟩
    rcases Checked.exists_of_passes tested with ⟨⟨next, reply⟩, handled, kind⟩
    rcases Option.map_eq_some_iff.mp (of_decide_eq_true kind) with ⟨sent, rfl, acked⟩
    rcases Run.of_simulate simulated with ⟨loaded, run⟩
    exact ⟨session, next, sent, simulated, handled,
      retransmission_of_run.1 rfl loaded run handled acked _ (by decide)⟩
  · have computed : Checked.passes (simulate Dhcpv6.V6Pool.call
        (.ok Dhcpv6.V6Pool.twoAddresses) [])
        (fun session => Checked.passes (session.state.request [1] Dhcpv6.V6Pool.firstAddress 5)
          fun result => result.2.toOption.isSome) = true := by decide
    rcases Checked.exists_of_passes computed with ⟨session, simulated, tested⟩
    rcases Checked.exists_of_passes tested with ⟨⟨next, result⟩, requested, accepted⟩
    cases result with
    | error message => cases accepted
    | ok given =>
        rcases Run.of_simulate simulated with ⟨started, run⟩
        rw [← Except.ok.inj started] at run
        exact ⟨session, next, given, simulated, requested,
          retransmission_of_run.2 run requested _ _ (by decide)⟩

end RustyDhcp
