import RustyDhcp.Foundation.OpenAddress
import RustyDhcp.Server.Leases

/-! # An offer is only broken by granting it to somebody else

What the server has shown to a client, in an Offer or an Ack, can be had by the
client as long as nobody else is granted it, whatever else is handled in
between. -/

namespace RustyDhcp.MyServer

/-- The client goes without an address: its Request for this one is refused, or
its Discover is not answered. -/
inductive TurnedAway (mac : Mac) (addr : Ipv4Addr) : Packet → Option Reply → Prop
  | request {packet reply} :
      packet.chaddr = mac → packet.messageType = .ok .request → packet.requestedIp = addr →
      reply.msgType = .nak → TurnedAway mac addr packet (some reply)
  | discover {packet} :
      packet.chaddr = mac → packet.messageType = .ok .discover →
      TurnedAway mac addr packet none

/-- The address is kept for the client. -/
def KeptFor (store : MyServer) (mac : Mac) (addr : Ipv4Addr) (now : Instant) : Prop :=
  store.leases.Kept (store.inPool addr = true) (Takeable now) addr mac

variable {config : Config} {server : Server} {store next initial state : MyServer}
variable {packet : Packet} {reply : Option Reply} {now later : Instant}
variable {addr : Ipv4Addr} {mac : Mac} {hasher : Hasher Ipv4Addr Entry} {file : LeasesFile}

theorem Takeable.mono {expiry : Option Instant} (ordered : now ≤ later)
    (takeable : Takeable now expiry) : Takeable later expiry :=
  fun limit runsOut => Nat.lt_of_lt_of_le (takeable limit runsOut) ordered

/-- What is shown to a client is kept for it. -/
theorem Effect.keptFor (effect : Effect server store packet now next reply) (valid : store.Valid)
    (shown : reply.bind Reply.shown = some (mac, addr)) (ordered : now ≤ later) :
    next.KeptFor mac addr later := by
  have client := effect.chaddr_of_shown shown
  subst client
  rcases effect.event valid with ⟨event, step, _, granted, shows⟩
  rw [shown] at shows
  refine ⟨(step.open_of_shown shows).mono (Takeable.mono ordered), ?_⟩
  rw [effect.sameSettings.inPool]
  by_cases nothing : ∀ held, ¬store.HeldBy held packet.chaddr
  · left
    rcases effect.selected valid nothing shown with ⟨_, _, inside⟩ | ⟨_, offset, first, rfl⟩
    · exact inside
    · exact (available_iff.mp first.available).1
  · right
    cases effect with
    | ignored => cases shown
    | heldOffered _ _ current =>
        cases shown
        have held := heldBy_of_current valid current
        rw [leases_renamed held]
        exact leases_heldBy_iff.mpr held
    | freeOffered _ _ without => exact absurd without nothing
    | exhausted => cases shown
    | heldAcked _ current =>
        cases shown
        have held := heldBy_of_current valid current
        rw [leases_renamed held]
        exact leases_heldBy_iff.mpr held
    | freeAcked _ _ without => exact absurd without nothing
    | requestAcked _ without => exact absurd without nothing
    | requestRefused _ without => exact absurd without nothing
    | leaseReleased => cases shown
    | nothingReleased => cases shown

theorem Effect.keeps (effect : Effect server store packet now next reply) (valid : store.Valid)
    (kept : store.KeptFor mac addr later)
    (others : ∀ other, reply.bind Reply.granted = some (other, addr) → other = mac)
    (lasts : store.inPool addr = true ∨ server.releases packet ≠ some mac) :
    next.KeptFor mac addr later := by
  rcases effect.event valid with ⟨event, step, released, granted, _⟩
  rw [KeptFor, effect.sameSettings.inPool]
  refine LeaseTable.Kept.step kept step ?_ ?_
  · rw [granted]
    exact others
  · rw [released]
    exact lasts

/-- A client is not turned away from what is kept for it. -/
theorem Effect.not_turnedAway (effect : Effect server store packet now next reply)
    (kept : store.KeptFor mac addr now) : ¬TurnedAway mac addr packet reply := by
  have available (nothing : ∀ held, ¬store.HeldBy held mac) :
      store.available mac addr now = true := by
    rw [available_iff]
    refine ⟨kept.lasting.resolve_right (not_heldBy_leases nothing addr), ?_⟩
    intro old found
    exact kept.opened ⟨old.mac, old.expiry⟩ (LeaseTable.ofEntries_eq_some_iff.mpr ⟨old, found, rfl⟩)
  intro away
  cases away with
  | request client kind named nak =>
      subst client named
      cases effect with
      | requestRefused _ nothing taken => cases taken.symm.trans (available nothing)
      | heldOffered => cases nak
      | freeOffered => cases nak
      | heldAcked => cases nak
      | freeAcked => cases nak
      | requestAcked => cases nak
  | discover client kind =>
      subst client
      cases effect with
      | ignored notDiscover => exact notDiscover kind
      | exhausted _ nothing full => cases (full addr).symm.trans (available nothing)
      | leaseReleased accepted => exact (kind_of_accepts accepted).1 kind
      | nothingReleased accepted => exact (kind_of_accepts accepted).1 kind

theorem keptFor_of_run {past : List Handling} (valid : initial.Valid)
    (kept : initial.KeptFor mac addr later)
    (run : Run (handleRequest server) initial past state)
    (others : ∀ handled ∈ past, ∀ other,
      handled.output.bind Reply.granted = some (other, addr) → other = mac)
    (lasts : ∀ handled ∈ past, handled.before.inPool addr = true ∨
      server.releases handled.input.packet ≠ some mac) :
    state.Valid ∧ state.KeptFor mac addr later := by
  induction run with
  | start => exact ⟨valid, kept⟩
  | next _ stepped induction =>
      rcases List.forall_mem_cons.mp others with ⟨here, others⟩
      rcases List.forall_mem_cons.mp lasts with ⟨lastsHere, lasts⟩
      rcases induction others lasts with ⟨valid, kept⟩
      have effect := effect_of_handled valid stepped
      exact ⟨effect.valid valid, effect.keeps valid kept here lastsHere⟩

/-- A client that was shown an address and is turned away from it later lost it
to somebody who was granted it in between, or gave it up itself where nobody
could obtain it. -/
theorem lost_to_another (accepted : config.validate = .ok config)
    (loaded : main config hasher file = .ok initial)
    {turned shown : Handling} {between earlier : List Handling}
    (run : Run (handleRequest server) initial (turned :: (between ++ shown :: earlier)) state)
    (shows : shown.output.bind Reply.shown = some (mac, addr))
    (ordered : shown.input.now ≤ turned.input.now)
    (away : TurnedAway mac addr turned.input.packet turned.output) :
    ∃ handled ∈ between,
      (∃ other, other ≠ mac ∧ handled.output.bind Reply.granted = some (other, addr)) ∨
        handled.before.inPool addr = false ∧ server.releases handled.input.packet = some mac := by
  rcases run.latest with ⟨before, refused, _⟩
  rcases before.of_append with ⟨middle, first, second⟩
  rcases first.latest with ⟨begun, offered, rfl⟩
  have valid := valid_reached accepted loaded begun
  have offer := effect_of_handled valid offered
  by_contra none
  have others : ∀ handled ∈ between, ∀ other,
      handled.output.bind Reply.granted = some (other, addr) → other = mac := by
    intro handled member other granted
    by_contra different
    exact none ⟨handled, member, .inl ⟨other, different, granted⟩⟩
  have lasts : ∀ handled ∈ between, handled.before.inPool addr = true ∨
      server.releases handled.input.packet ≠ some mac := by
    intro handled member
    by_contra lost
    rw [not_or, Bool.not_eq_true, not_not] at lost
    exact none ⟨handled, member, .inr lost⟩
  rcases keptFor_of_run (offer.valid valid) (offer.keptFor valid shows ordered) second others
    lasts with ⟨valid, kept⟩
  exact (effect_of_handled valid refused).not_turnedAway kept away

/-! ## A race for an offer -/

def slow : Mac := #v[2, 0, 0, 0, 7, 3]

def contested : Ipv4Addr := .new 192 168 2 3

/-- An Offer for one client, an Ack for another one, and a Nak for the first. -/
def race : List Incoming :=
  [⟨Packet.ofClient slow [.dhcpMessageType .discover], 0⟩,
    ⟨requestFor #v[2, 0, 0, 0, 7, 4] contested, 1⟩, ⟨requestFor slow contested, 2⟩]

/-- The history of the race. -/
def Raced : List Handling → Prop
  | [turned, _, shown] =>
      shown.output.bind Reply.shown = some (slow, contested) ∧
        shown.input.now ≤ turned.input.now ∧
          turned.input.packet = requestFor slow contested ∧
            turned.output.map Reply.msgType = some .nak
  | _ => False

instance : (past : List Handling) → Decidable (Raced past)
  | [_, _, _] => inferInstanceAs (Decidable (_ ∧ _ ∧ _ ∧ _))
  | [] | [_] | [_, _] | _ :: _ :: _ :: _ :: _ => isFalse id

theorem lost_to_another_race : ∃ session,
    simulate (handleRequest ⟨.new 192 168 2 1⟩) (main twoLeases Hasher.newestFirst none) race =
      .ok session ∧ ∃ handled ∈ session.past,
        (∃ other, other ≠ slow ∧
          handled.output.bind Reply.granted = some (other, contested)) ∨
          handled.before.inPool contested = false ∧
            Server.releases ⟨.new 192 168 2 1⟩ handled.input.packet = some slow := by
  have computed : Checked.passes (simulate (handleRequest ⟨.new 192 168 2 1⟩)
      (main twoLeases Hasher.newestFirst none) race) (fun session => Raced session.past) =
      true := by decide
  rcases Checked.exists_of_passes computed with ⟨session, simulated, tested⟩
  rcases Run.of_simulate simulated with ⟨loaded, run⟩
  have raced : Raced session.past := of_decide_eq_true tested
  refine ⟨session, simulated, ?_⟩
  rcases past : session.past with _ | ⟨turned, _ | ⟨acked, _ | ⟨shown, _ | ⟨_, _⟩⟩⟩⟩
  case cons.cons.cons.nil =>
    rw [past] at run raced
    rcases raced with ⟨shows, ordered, packet, output⟩
    rcases Option.map_eq_some_iff.mp output with ⟨reply, answered, nak⟩
    have away : TurnedAway slow contested turned.input.packet turned.output := by
      rw [packet, answered]
      exact .request rfl rfl rfl nak
    have listed : Run (handleRequest ⟨.new 192 168 2 1⟩) session.initial
        (turned :: ([acked] ++ shown :: [])) session.state := run
    rcases lost_to_another rfl loaded listed shows ordered away with ⟨handled, member, lost⟩
    exact ⟨handled, by rw [List.mem_singleton.mp member]; simp, lost⟩
  all_goals
    rw [past] at raced
    exact raced.elim

end RustyDhcp.MyServer
