import RustyDhcp.Dhcpv6.Serving

/-! # No DHCPv6 address is granted twice

A Reply promises its address for the valid lifetime in it. A Reply that
repeats a timed lease repeats the lifetime and leaves the expiry where it is,
so it makes no promise that the pool keeps; every other Reply does. -/

namespace RustyDhcp.Dhcpv6

/-- The promise that an answer makes at `now`, if it is a Reply with an
address. -/
def promise (now : Instant) (sent : Sent) : Option (LeaseTable.Grant Ipv6Addr Duid) :=
  if sent.packet.msgType = .reply then
    sent.packet.clientDuid.bind fun duid =>
      sent.packet.iaAddrs.head?.map fun leased =>
        ⟨duid, leased.addr, now + Duration.ofSecs leased.valid⟩
  else none

/-- The grant of any Reply. -/
def promised (served : Serving) : Option (LeaseTable.Grant Ipv6Addr Duid) :=
  served.output.bind (promise served.input.requested)

/-- The grant is for an address that its holder has a timed lease of. -/
def renews (pool : V6Pool) (grant : LeaseTable.Grant Ipv6Addr Duid) : Bool :=
  (pool.entry grant.address).any fun entry =>
    entry.duid = grant.holder && entry.expiry.isSome

/-- The grant of a Reply that does not repeat a timed lease. -/
def committed (served : Serving) : Option (LeaseTable.Grant Ipv6Addr Duid) :=
  (promised served).filter fun grant => !renews served.before grant

/-- The grants that are recorded in a history and not released by it. -/
def outstanding (config : Config)
    (recorded : Serving → Option (LeaseTable.Grant Ipv6Addr Duid)) (past : List Serving) :
    List (LeaseTable.Grant Ipv6Addr Duid) :=
  LeaseTable.ledger (fun served => releases config served.input.packet) recorded past

/-- When the newest packet of a history is answered with a Reply, nobody else
has a grant of an address in it that runs until then. -/
def NoDoubleGrant (config : Config)
    (recorded : Serving → Option (LeaseTable.Grant Ipv6Addr Duid)) : List Serving → Prop
  | [] => True
  | latest :: past =>
      ∀ sent ∈ latest.output, sent.packet.msgType = .reply →
        ∀ leased ∈ sent.packet.iaAddrs, ∀ grant ∈ outstanding config recorded past,
          grant.address = leased.addr → latest.input.requested ≤ grant.limit →
            sent.packet.clientDuid = some grant.holder

instance (config : Config) (recorded : Serving → Option (LeaseTable.Grant Ipv6Addr Duid)) :
    (past : List Serving) → Decidable (NoDoubleGrant config recorded past)
  | [] => isTrue trivial
  | latest :: past => inferInstanceAs (Decidable (∀ sent ∈ latest.output,
      sent.packet.msgType = .reply → ∀ leased ∈ sent.packet.iaAddrs,
        ∀ grant ∈ outstanding config recorded past, grant.address = leased.addr →
          latest.input.requested ≤ grant.limit → sent.packet.clientDuid = some grant.holder))

variable {config : Config} {pool next initial state : V6Pool} {received : Received}
variable {event : LeaseTable.Event Ipv6Addr Duid} {past : List Serving}
variable {hasher : Hasher Ipv6Addr V6Pool.Entry} {file : LeasesFile}
variable {grant : LeaseTable.Grant Ipv6Addr Duid}

theorem takeable_onlyExpired {now : Instant} (table : LeaseTable Ipv6Addr Duid) :
    table.OnlyExpired (V6Pool.Takeable now) now := by
  intro address lease found takeable
  exact takeable

/-- A Reply promises what the event of its packet grants, for the lease time of
the configuration. -/
theorem promise_granted {answer : Sent} {now : Instant}
    (answers : Answers config event (some answer))
    (promises : promise now answer = some grant) :
    event.granted = some (grant.holder, grant.address) ∧
      grant.limit = now + Duration.ofSecs config.ipv6LeaseDurationSecs := by
  rw [promise] at promises
  split at promises
  · rename_i reply
    rcases Option.bind_eq_some_iff.mp promises with ⟨duid, sender, rest⟩
    rcases Option.map_eq_some_iff.mp rest with ⟨leased, first, same⟩
    subst same
    rcases answers answer rfl leased (List.mem_of_head? first) with
      ⟨client, identified, _, lifetime, grants⟩
    rw [sender, Option.some.injEq] at identified
    subst identified
    exact ⟨grants reply, by rw [lifetime]⟩
  · cases promises

/-- The lease of a grant that does not repeat a timed lease never runs out. -/
theorem permanent_of_not_renews (fresh : renews pool grant = false) :
    ∀ lease, pool.leases grant.address = some lease → lease.holder = grant.holder →
      lease.expiry = none := by
  intro lease found held
  rcases LeaseTable.ofEntries_eq_some_iff.mp found with ⟨entry, read, same⟩
  subst same
  rw [renews, read, Option.any_some] at fresh
  have owner : entry.duid = grant.holder := held
  cases runsOut : entry.expiry with
  | none => rfl
  | some limit => simp [owner, runsOut] at fresh

/-- A grant that a history leaves outstanding is backed by the leases of the
pool it led to. -/
theorem outstanding_backed (start : Serves config initial)
    (run : Run (serveV6 config) initial past state)
    (ordered : Chronological (fun served => served.input.requested) past) :
    ∀ grant ∈ outstanding config committed past,
      state.leases.Backed (newest (fun served => served.input.requested) past) grant := by
  refine LeaseTable.ledger_backed V6Pool.leases _ _ _ ?_ run ordered
  intro past state served run
  rcases run.latest with ⟨earlier, stepped, _⟩
  have before := serves_of_run start earlier
  rcases outcome_of_served before stepped with ⟨event, outcome⟩
  refine ⟨_, _, event, outcome.step, takeable_onlyExpired _, outcome.released, ?_⟩
  intro grant commits
  rcases Option.filter_eq_some_iff.mp commits with ⟨promises, fresh⟩
  rcases Option.bind_eq_some_iff.mp promises with ⟨answer, sent, promised⟩
  have answers := outcome.answers
  rw [sent] at answers
  rcases promise_granted answers promised with ⟨granted, limit⟩
  apply outcome.step.supports granted
  · rw [limit, before.leaseDuration]
  · apply permanent_of_not_renews
    simpa using fresh

/-- No double grant, for the Replies that do not repeat a timed lease. -/
theorem noDoubleGrant_of_serving (started : startPool config hasher file = .ok initial)
    (run : Run (serveV6 config) initial past state)
    (ordered : Chronological (fun served => served.input.requested) past) :
    NoDoubleGrant config committed past := by
  rcases startPool_reserves config hasher file with ⟨_, loaded, start, _⟩
  rw [started] at loaded
  cases loaded
  cases past with
  | nil => trivial
  | cons latest past =>
      intro answer sent reply leased carried grant member sameAddress running
      rcases run.latest with ⟨earlier, stepped, _⟩
      have before := serves_of_run start earlier
      rcases outcome_of_served before stepped with ⟨event, outcome⟩
      rcases outcome.answers answer sent leased carried with
        ⟨duid, client, _, _, grants⟩
      have granted : event.granted = some (duid, grant.address) := by
        rw [sameAddress]
        exact grants reply
      have holder : grant.holder = duid :=
        (outstanding_backed start earlier ordered.tail grant member).holder_eq
          ordered.newest_le (takeable_onlyExpired _) outcome.step granted running
      rw [client, holder]

/-- A lease that ran out goes to somebody else. -/
theorem noDoubleGrant_of_serving_expired :
    ∃ session, simulate (serveV6 twoAddressConfig)
        (startPool twoAddressConfig Hasher.newestFirst none)
        [.fromClient .request [1] V6Pool.firstAddress 0,
          .fromClient .request [2] V6Pool.firstAddress 11000000000] = .ok session ∧
      NoDoubleGrant twoAddressConfig committed session.past := by
  have computed : Checked.passes (simulate (serveV6 twoAddressConfig)
      (startPool twoAddressConfig Hasher.newestFirst none)
      [.fromClient .request [1] V6Pool.firstAddress 0,
        .fromClient .request [2] V6Pool.firstAddress 11000000000])
      (fun session => Chronological (fun served => served.input.requested) session.past) =
      true := by decide
  rcases Checked.exists_of_passes computed with ⟨session, simulated, ordered⟩
  rcases Run.of_simulate simulated with ⟨started, run⟩
  exact ⟨session, simulated,
    noDoubleGrant_of_serving started run (of_decide_eq_true ordered)⟩

/-- Were the Reply to a Renew a promise too, the same address would be promised
to two clients: the first one renews after five seconds. -/
theorem doubleGrant_of_renew :
    ∃ session, simulate (serveV6 twoAddressConfig)
        (startPool twoAddressConfig Hasher.newestFirst none)
        [.fromClient .request [1] V6Pool.firstAddress 0,
          .fromClient .renew [1] V6Pool.firstAddress 5000000000,
          .fromClient .request [2] V6Pool.firstAddress 11000000000] = .ok session ∧
      Chronological (fun served => served.input.requested) session.past ∧
      ¬NoDoubleGrant twoAddressConfig promised session.past := by
  have computed : Checked.passes (simulate (serveV6 twoAddressConfig)
      (startPool twoAddressConfig Hasher.newestFirst none)
      [.fromClient .request [1] V6Pool.firstAddress 0,
        .fromClient .renew [1] V6Pool.firstAddress 5000000000,
        .fromClient .request [2] V6Pool.firstAddress 11000000000])
      (fun session => Chronological (fun served => served.input.requested) session.past ∧
        ¬NoDoubleGrant twoAddressConfig promised session.past) = true := by decide
  rcases Checked.exists_of_passes computed with ⟨session, simulated, violated⟩
  exact ⟨session, simulated, of_decide_eq_true violated⟩

end RustyDhcp.Dhcpv6
