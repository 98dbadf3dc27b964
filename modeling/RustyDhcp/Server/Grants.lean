import RustyDhcp.Server.Leases

/-! # No address is granted twice

An Ack promises its address until the advertised lease time is over. Only the
Ack that commits a lease makes such a promise: an Ack that confirms a lease
repeats the lease time and leaves the expiry where it is. -/

namespace RustyDhcp

/-- The lease time that an answer advertises. -/
def leaseTimeOf : List DhcpOption → Option U32
  | [] => none
  | .ipAddressLeaseTime secs :: _ => some secs
  | _ :: rest => leaseTimeOf rest

namespace MyServer

/-- The promise that an answer makes at `now`, if it is an Ack. -/
def promise (now : Instant) (reply : Reply) : Option (LeaseTable.Grant Ipv4Addr Mac) :=
  if reply.msgType = .ack then
    (leaseTimeOf reply.additionalOptions).map fun secs =>
      ⟨reply.chaddr, reply.yiaddr, now + Duration.ofSecs secs⟩
  else none

/-- The grant of any Ack. -/
def promised (handled : Handling) : Option (LeaseTable.Grant Ipv4Addr Mac) :=
  handled.output.bind (promise handled.input.now)

/-- The grant of an Ack for an address that its client did not hold before. -/
def committed (handled : Handling) : Option (LeaseTable.Grant Ipv4Addr Mac) :=
  handled.output.bind fun reply =>
    if (handled.before.entry reply.yiaddr).map Entry.mac = some reply.chaddr then none
    else promise handled.input.now reply

/-- The grants that are recorded in a history and not released by it. -/
def outstanding (server : Server) (recorded : Handling → Option (LeaseTable.Grant Ipv4Addr Mac))
    (past : List Handling) : List (LeaseTable.Grant Ipv4Addr Mac) :=
  LeaseTable.ledger (fun handled => server.releases handled.input.packet) recorded past

/-- When the newest packet of a history is answered with an Ack, nobody else
has a grant of that address that runs until then. -/
def NoDoubleGrant (server : Server)
    (recorded : Handling → Option (LeaseTable.Grant Ipv4Addr Mac)) : List Handling → Prop
  | [] => True
  | latest :: past =>
      ∀ reply ∈ latest.output, reply.msgType = .ack →
        ∀ grant ∈ outstanding server recorded past, grant.address = reply.yiaddr →
          latest.input.now ≤ grant.limit → grant.holder = reply.chaddr

instance (server : Server) (recorded : Handling → Option (LeaseTable.Grant Ipv4Addr Mac)) :
    (past : List Handling) → Decidable (NoDoubleGrant server recorded past)
  | [] => isTrue trivial
  | latest :: past => inferInstanceAs (Decidable (∀ reply ∈ latest.output,
      reply.msgType = .ack → ∀ grant ∈ outstanding server recorded past,
        grant.address = reply.yiaddr → latest.input.now ≤ grant.limit →
          grant.holder = reply.chaddr))

variable {server : Server} {store initial state : MyServer} {past : List Handling}
variable {config : Config} {hasher : Hasher Ipv4Addr Entry}

/-- The lease time on the wire is the one that the store works with. -/
def Advertises (store : MyServer) : Prop :=
  ∀ secs, leaseTimeOf store.cachedOffer = some secs →
    store.leaseDuration = Duration.ofSecs secs

theorem advertises_ofConfig : (ofConfig config hasher).Advertises := by
  intro secs found
  cases found
  rfl

theorem timed_ofConfig : (ofConfig config hasher).leases.Timed := by
  intro addr lease found
  rw [ofConfig_eq, leases_withStorage] at found
  cases found

theorem SameSettings.advertises {next : MyServer} (same : SameSettings store next)
    (advertises : store.Advertises) : next.Advertises := by
  intro secs found
  rw [same.cachedOffer] at found
  rw [same.leaseDuration]
  exact advertises secs found

/-- An Ack carries the options that the store advertises. -/
theorem Effect.additionalOptions_of_ack {next : MyServer} {packet : Packet} {now : Instant}
    {sent : Reply} (effect : Effect server store packet now next (some sent))
    (ack : sent.msgType = .ack) : sent.additionalOptions = store.cachedOffer := by
  have lease : sent.msgType ≠ .nak := by
    rw [ack]
    decide
  rcases effect.exists_reply_eq lease with ⟨addr, equal⟩
  rw [equal]
  rfl

/-- An Ack promises its address for the lease time of the store. -/
theorem Effect.promise_eq {next : MyServer} {packet : Packet} {now : Instant}
    {sent : Reply} {grant : LeaseTable.Grant Ipv4Addr Mac}
    (effect : Effect server store packet now next (some sent)) (advertises : store.Advertises)
    (promises : promise now sent = some grant) :
    sent.msgType = .ack ∧
      grant = ⟨sent.chaddr, sent.yiaddr, now + store.leaseDuration⟩ := by
  rw [promise] at promises
  split at promises
  · rename_i ack
    rw [effect.additionalOptions_of_ack ack] at promises
    rcases Option.map_eq_some_iff.mp promises with ⟨secs, advertised, same⟩
    subst same
    exact ⟨ack, by rw [advertises secs advertised]⟩
  · cases promises

/-- The invariant of a server that started without reservations. -/
structure OnlyTimed (store : MyServer) : Prop where
  valid : store.Valid
  advertises : store.Advertises
  timed : store.leases.Timed

theorem onlyTimed_ofConfig (accepted : config.validate = .ok config) :
    (ofConfig config hasher).OnlyTimed :=
  ⟨valid_ofConfig accepted hasher, advertises_ofConfig, timed_ofConfig⟩

theorem OnlyTimed.step {next : MyServer} {incoming : Incoming} {reply : Option Reply}
    (before : store.OnlyTimed)
    (handled : handleRequest server store incoming = .ok (next, reply)) :
    next.OnlyTimed := by
  have effect := effect_of_handled before.valid handled
  rcases effect.event before.valid with ⟨event, stepped, _⟩
  exact ⟨effect.valid before.valid, effect.sameSettings.advertises before.advertises,
    before.timed.step stepped⟩

/-- A grant that a history leaves outstanding is backed by the leases of the
state it led to. -/
theorem outstanding_backed (start : initial.OnlyTimed)
    (run : Run (handleRequest server) initial past state)
    (ordered : Chronological (fun handled => handled.input.now) past) :
    ∀ grant ∈ outstanding server committed past,
      state.leases.Backed (newest (fun handled => handled.input.now) past) grant := by
  refine LeaseTable.ledger_backed leases _ _ _ ?_ run ordered
  intro past state handled run
  rcases run.latest with ⟨earlier, stepped, _⟩
  have before : handled.before.OnlyTimed := earlier.invariant start OnlyTimed.step
  have effect := effect_of_handled before.valid stepped
  rcases effect.event before.valid with ⟨event, moved, releases, granted, _⟩
  refine ⟨_, _, event, moved, before.timed.onlyExpired ?_, releases, ?_⟩
  · intro limit takeable
    exact takeable limit rfl
  · intro grant commits
    rcases Option.bind_eq_some_iff.mp commits with ⟨reply, answered, promised⟩
    rw [answered] at effect granted
    split at promised
    · cases promised
    · rename_i fresh
      rcases effect.promise_eq before.advertises promised with ⟨ack, same⟩
      subst same
      have grants : event.granted = some (reply.chaddr, reply.yiaddr) := by
        rw [granted]
        exact if_pos ack
      apply moved.supports grants (Nat.le_refl _)
      intro lease found held
      rcases LeaseTable.ofEntries_eq_some_iff.mp found with ⟨entry, read, same⟩
      subst same
      exact absurd (Option.map_eq_some_iff.mpr ⟨entry, read, held⟩) fresh

/-- No double grant, for the Acks that commit a lease. -/
theorem noDoubleGrant_of_run (accepted : config.validate = .ok config)
    (loaded : main config hasher (some []) = .ok initial)
    (run : Run (handleRequest server) initial past state)
    (ordered : Chronological (fun handled => handled.input.now) past) :
    NoDoubleGrant server committed past := by
  have start : initial.OnlyTimed := by
    rw [← Except.ok.inj loaded]
    exact onlyTimed_ofConfig accepted
  cases past with
  | nil => trivial
  | cons latest past =>
      intro reply answered ack grant member sameAddress running
      rcases run.latest with ⟨earlier, stepped, _⟩
      have before : latest.before.OnlyTimed := earlier.invariant start OnlyTimed.step
      have effect := effect_of_handled before.valid stepped
      rcases effect.event before.valid with ⟨event, moved, _, granted, _⟩
      have grants : event.granted = some (reply.chaddr, grant.address) := by
        rw [granted, answered, sameAddress]
        exact if_pos ack
      have expired : latest.before.leases.OnlyExpired (Takeable latest.input.now)
          latest.input.now := before.timed.onlyExpired fun limit takeable => takeable limit rfl
      exact (outstanding_backed start earlier ordered.tail grant member).holder_eq
        ordered.newest_le expired moved grants running

/-- Two leases of ten seconds. -/
def tenSeconds : Config := { twoLeases with leaseDurationSecs := 10 }

/-- A lease that ran out goes to somebody else. -/
theorem noDoubleGrant_of_run_expired :
    ∃ session, simulate (handleRequest ⟨.new 192 168 2 1⟩)
        (main tenSeconds Hasher.newestFirst (some []))
        [⟨requestFor #v[1, 2, 3, 4, 5, 6] (.new 192 168 2 3), 0⟩,
          ⟨requestFor #v[1, 2, 3, 4, 5, 7] (.new 192 168 2 3), 11000000000⟩] = .ok session ∧
      NoDoubleGrant ⟨.new 192 168 2 1⟩ committed session.past := by
  have computed : Checked.passes (simulate (handleRequest ⟨.new 192 168 2 1⟩)
      (main tenSeconds Hasher.newestFirst (some []))
      [⟨requestFor #v[1, 2, 3, 4, 5, 6] (.new 192 168 2 3), 0⟩,
        ⟨requestFor #v[1, 2, 3, 4, 5, 7] (.new 192 168 2 3), 11000000000⟩])
      (fun session => Chronological (fun handled => handled.input.now) session.past) =
      true := by decide
  rcases Checked.exists_of_passes computed with ⟨session, simulated, ordered⟩
  rcases Run.of_simulate simulated with ⟨loaded, run⟩
  exact ⟨session, simulated, noDoubleGrant_of_run rfl loaded run (of_decide_eq_true ordered)⟩

/-- Were the confirmation of a lease a promise too, the same address would be
promised to two clients: the first one renews after five seconds. -/
theorem doubleGrant_of_renewal : tenSeconds.validate = .ok tenSeconds ∧
    ∃ session, simulate (handleRequest ⟨.new 192 168 2 1⟩)
        (main tenSeconds Hasher.newestFirst (some []))
        [⟨requestFor #v[1, 2, 3, 4, 5, 6] (.new 192 168 2 3), 0⟩,
          ⟨requestFor #v[1, 2, 3, 4, 5, 6] (.new 192 168 2 3), 5000000000⟩,
          ⟨requestFor #v[1, 2, 3, 4, 5, 7] (.new 192 168 2 3), 11000000000⟩] = .ok session ∧
      Chronological (fun handled => handled.input.now) session.past ∧
      ¬NoDoubleGrant ⟨.new 192 168 2 1⟩ promised session.past := by
  have computed : Checked.passes (simulate (handleRequest ⟨.new 192 168 2 1⟩)
      (main tenSeconds Hasher.newestFirst (some []))
      [⟨requestFor #v[1, 2, 3, 4, 5, 6] (.new 192 168 2 3), 0⟩,
        ⟨requestFor #v[1, 2, 3, 4, 5, 6] (.new 192 168 2 3), 5000000000⟩,
        ⟨requestFor #v[1, 2, 3, 4, 5, 7] (.new 192 168 2 3), 11000000000⟩])
      (fun session => Chronological (fun handled => handled.input.now) session.past ∧
        ¬NoDoubleGrant ⟨.new 192 168 2 1⟩ promised session.past) = true := by decide
  rcases Checked.exists_of_passes computed with ⟨session, simulated, violated⟩
  exact ⟨rfl, session, simulated, of_decide_eq_true violated⟩

end MyServer

end RustyDhcp
