import RustyDhcp.Dhcpv6.Upheld

/-! # A DHCPv6 offer is only broken by granting it to somebody else -/

namespace RustyDhcp.Dhcpv6

/-- The address in an answer, and whose it is. -/
def Sent.shown (answer : Sent) : Option (Duid × Ipv6Addr) :=
  answer.packet.clientDuid.bind fun duid =>
    answer.packet.iaAddrs.head?.map fun leased => (duid, leased.addr)

/-- Only a Reply grants an address. -/
def Sent.granted (answer : Sent) : Option (Duid × Ipv6Addr) :=
  if answer.packet.msgType = .reply then answer.shown else none

/-- The client goes without an address: it is told that there is none, for its
Solicit, or for its Request, Renew or Rebind that names this one. -/
structure TurnedAway (duid : Duid) (addr : Ipv6Addr) (packet : Packet) (answer : Sent) : Prop where
  client : packet.clientDuid = some duid
  wants : packet.msgType = .solicit ∨ packet.wanted = some addr
  refuses : answer.packet.Refuses

variable {config : Config} {pool next initial state : V6Pool} {received : Received}
variable {sent : Option Sent} {duid : Duid} {addr : Ipv6Addr} {now later : Instant}
variable {hasher : Hasher Ipv6Addr V6Pool.Entry} {file : LeasesFile}

/-- The address is kept for the client. -/
def V6Pool.KeptFor (pool : V6Pool) (duid : Duid) (addr : Ipv6Addr) (now : Instant) : Prop :=
  pool.leases.Kept (pool.inRange addr = true) (V6Pool.Takeable now) addr duid

theorem V6Pool.Takeable.mono {expiry : Option Instant} (ordered : now ≤ later)
    (takeable : V6Pool.Takeable now expiry) : V6Pool.Takeable later expiry := by
  rcases takeable with ⟨limit, runsOut, past⟩
  exact ⟨limit, runsOut, Nat.lt_of_lt_of_le past ordered⟩

/-! ## One packet -/

theorem shown_success {msgType : MsgType} {ip : Ipv6Addr} :
    (success config duid received msgType ip).shown = some (duid, ip) := by
  have client : (success config duid received msgType ip).packet.clientDuid = some duid := rfl
  rw [Sent.shown, client, iaAddrs_success]
  rfl

theorem shown_failure {msgType : MsgType} :
    (failure config duid received msgType).shown = none := rfl

/-- An answer shows and grants what its event does. -/
theorem Handling.happens (handling : Handling config pool received next sent) :
    ∃ event, Happens config pool received event next ∧ event.shown = sent.bind Sent.shown ∧
      event.granted = sent.bind Sent.granted := by
  cases handling with
  | @unanswered next event _ happens shown =>
      refine ⟨event, happens, shown, ?_⟩
      cases event with
      | silent => rfl
      | offer => cases shown
      | confirm => cases shown
      | commit => cases shown
      | release => rfl
      | releaseNothing => rfl
  | @granted next duid msgType ip event _ _ happens shown granted =>
      refine ⟨event, happens, ?_, ?_⟩
      · rw [Option.bind_some, shown_success, shown]
      · rw [Option.bind_some, Sent.granted, shown_success, granted]
        rfl
  | refused asks =>
      refine ⟨.silent, ⟨.silent, asks.releases_eq_none.symm, rfl⟩, rfl, ?_⟩
      rw [Option.bind_some, Sent.granted, shown_failure, ite_self]
      rfl

/-- What is shown to a client is kept for it. -/
theorem Handling.keptFor (handling : Handling config pool received next sent)
    (shown : sent.bind Sent.shown = some (duid, addr)) (ordered : received.requested ≤ later) :
    next.KeptFor duid addr later := by
  cases handling with
  | unanswered => cases shown
  | refused => cases shown
  | @granted next owner msgType ip event asks something happens shows granted obtainable =>
      rw [Option.bind_some, shown_success] at shown
      cases shown
      refine ⟨(happens.step.open_of_shown shows).mono (V6Pool.Takeable.mono ordered), ?_⟩
      rw [happens.inRange]
      rcases obtainable with held | inside
      · right
        have others : ∀ other, event.granted = some (other, addr) → other = duid := by
          intro other mine
          rw [granted] at mine
          split at mine
          · cases mine
            rfl
          · cases mine
        refine (V6Pool.leases_heldBy_iff.mpr held).step happens.step others ?_
        rw [happens.released, asks.releases_eq_none]
        intro same
        cases same
      · exact .inl inside

theorem Handling.keeps (handling : Handling config pool received next sent)
    (kept : pool.KeptFor duid addr later)
    (others : ∀ other, sent.bind Sent.granted = some (other, addr) → other = duid)
    (lasts : pool.inRange addr = true ∨ releases config received.packet ≠ some duid) :
    next.KeptFor duid addr later := by
  rcases handling.happens with ⟨event, happens, _, granted⟩
  rw [V6Pool.KeptFor, happens.inRange]
  refine LeaseTable.Kept.step kept happens.step ?_ ?_
  · rw [granted]
    exact others
  · rw [happens.released]
    exact lasts

/-- A client is not turned away from what is kept for it. -/
theorem Handling.not_turnedAway {answer : Sent} (valid : pool.Valid)
    (handling : Handling config pool received next (some answer))
    (kept : pool.KeptFor duid addr received.discovered) :
    ¬TurnedAway duid addr received.packet answer := by
  intro away
  cases handling with
  | granted => exact not_refuses_success away.refuses
  | refused asks nothing =>
      cases asks.clientDuid.symm.trans away.client
      have without := (V6Pool.current_eq_none_iff valid).mp nothing.1
      have available : pool.available duid addr received.discovered = true := by
        rw [V6Pool.available_iff]
        refine ⟨kept.lasting.resolve_right (V6Pool.not_heldBy_leases without addr), ?_⟩
        intro old found
        exact kept.opened ⟨old.duid, old.expiry⟩
          (LeaseTable.ofEntries_eq_some_iff.mpr ⟨old, found, rfl⟩)
      have unavailable := nothing.2
      split at unavailable
      · cases (unavailable addr).symm.trans available
      · rename_i other
        cases (unavailable addr (away.wants.resolve_left other)).symm.trans
          (V6Pool.available_later received.ordered available)

/-! ## Whole runs -/

theorem keptFor_of_run {past : List Serving} (serves : Serves config initial)
    (kept : initial.KeptFor duid addr later) (run : Run (serveV6 config) initial past state)
    (others : ∀ served ∈ past, ∀ other,
      served.output.bind Sent.granted = some (other, addr) → other = duid)
    (lasts : ∀ served ∈ past, served.before.inRange addr = true ∨
      releases config served.input.packet ≠ some duid) :
    Serves config state ∧ state.KeptFor duid addr later := by
  induction run with
  | start => exact ⟨serves, kept⟩
  | next _ served induction =>
      rcases List.forall_mem_cons.mp others with ⟨here, others⟩
      rcases List.forall_mem_cons.mp lasts with ⟨lastsHere, lasts⟩
      rcases induction others lasts with ⟨serves, kept⟩
      exact ⟨serves.step served, (handling_of_served serves served).keeps kept here lastsHere⟩

/-- A client that was shown an address and is turned away from it later lost it
to somebody who was granted it in between, or gave it up itself where nobody
could obtain it. -/
theorem promised_to_another (started : startPool config hasher file = .ok initial)
    {turned shown : Serving} {between earlier : List Serving}
    (run : Run (serveV6 config) initial (turned :: (between ++ shown :: earlier)) state)
    (shows : shown.output.bind Sent.shown = some (duid, addr))
    (ordered : shown.input.requested ≤ turned.input.discovered) {answer : Sent}
    (answered : turned.output = some answer)
    (away : TurnedAway duid addr turned.input.packet answer) :
    ∃ served ∈ between,
      (∃ other, other ≠ duid ∧ served.output.bind Sent.granted = some (other, addr)) ∨
        served.before.inRange addr = false ∧ releases config served.input.packet = some duid := by
  rcases run.latest with ⟨before, refused, _⟩
  rcases before.of_append with ⟨middle, first, second⟩
  rcases first.latest with ⟨begun, offered, rfl⟩
  have serves := serves_of_run (serves_of_started started) begun
  have offer := handling_of_served serves offered
  by_contra none
  have others : ∀ served ∈ between, ∀ other,
      served.output.bind Sent.granted = some (other, addr) → other = duid := by
    intro served member other granted
    by_contra different
    exact none ⟨served, member, .inl ⟨other, different, granted⟩⟩
  have lasts : ∀ served ∈ between, served.before.inRange addr = true ∨
      releases config served.input.packet ≠ some duid := by
    intro served member
    by_contra lost
    rw [not_or, Bool.not_eq_true, not_not] at lost
    exact none ⟨served, member, .inr lost⟩
  rcases keptFor_of_run (serves.step offered) (offer.keptFor shows ordered) second others
    lasts with ⟨serves, kept⟩
  rw [answered] at refused
  exact (handling_of_served serves refused).not_turnedAway serves.valid kept away

/-! ## A race for an offer -/

/-- The address that is offered first. -/
def contested : Ipv6Addr := .new 0xfd00 0 0 0 0 0 0 0x101

/-- An Advertise for one client, a Reply for another one, and a refusal for the
first. -/
def race : List Received :=
  [.fromClient .solicit [7, 3] contested 0, .fromClient .request [7, 4] contested 1,
    .fromClient .request [7, 3] contested 2]

/-- The history of the race. -/
def Raced : List Serving → Prop
  | [turned, _, shown] =>
      shown.output.bind Sent.shown = some ([7, 3], contested) ∧
        shown.input.requested ≤ turned.input.discovered ∧
          turned.input.packet.clientDuid = some [7, 3] ∧
            turned.input.packet.wanted = some contested ∧
              turned.output.any fun answer => answer.packet.options.contains
                (.statusCode statusNoAddrsAvail "NoAddrsAvail".toList)
  | _ => False

instance : (past : List Serving) → Decidable (Raced past)
  | [_, _, _] => inferInstanceAs (Decidable (_ ∧ _ ∧ _ ∧ _ ∧ _))
  | [] | [_] | [_, _] | _ :: _ :: _ :: _ :: _ => isFalse id

theorem promised_to_another_race : ∃ session,
    simulate (serveV6 twoAddressConfig) (startPool twoAddressConfig Hasher.newestFirst none) race =
      .ok session ∧ ∃ served ∈ session.past,
        (∃ other, other ≠ [7, 3] ∧
          served.output.bind Sent.granted = some (other, contested)) ∨
          served.before.inRange contested = false ∧
            releases twoAddressConfig served.input.packet = some [7, 3] := by
  have computed : Checked.passes (simulate (serveV6 twoAddressConfig)
      (startPool twoAddressConfig Hasher.newestFirst none) race)
      (fun session => Raced session.past) = true := by decide
  rcases Checked.exists_of_passes computed with ⟨session, simulated, tested⟩
  rcases Run.of_simulate simulated with ⟨started, run⟩
  have raced : Raced session.past := of_decide_eq_true tested
  refine ⟨session, simulated, ?_⟩
  rcases past : session.past with _ | ⟨turned, _ | ⟨granted, _ | ⟨shown, _ | ⟨_, _⟩⟩⟩⟩
  case cons.cons.cons.nil =>
    rw [past] at run raced
    rcases raced with ⟨shows, ordered, client, wanted, refused⟩
    rcases (Option.any_eq_true _ _).mp refused with ⟨answer, answered, listed⟩
    have away : TurnedAway [7, 3] contested turned.input.packet answer :=
      ⟨client, .inr wanted, _, List.contains_iff_mem.mp listed⟩
    have history : Run (serveV6 twoAddressConfig) session.initial
        (turned :: ([granted] ++ shown :: [])) session.state := run
    rcases promised_to_another started history shows ordered answered away with
      ⟨served, member, lost⟩
    exact ⟨served, by rw [List.mem_singleton.mp member]; simp, lost⟩
  all_goals
    rw [past] at raced
    exact raced.elim

end RustyDhcp.Dhcpv6
