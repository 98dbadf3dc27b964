import RustyDhcp.Foundation.Reservation
import RustyDhcp.Server.Leases

/-! # Reservations of the leases file

A reservation is an entry without an expiry. The store does not treat such an
entry as permanent: whoever asks for the address is given it, and its owner
can release it. Where neither happens, reservations hold. -/

namespace RustyDhcp

namespace MyServer

/-- The reservations of a leases file, in order. -/
def reservations (file : LeasesFile) : List (Mac × Ipv4Addr) :=
  (file.getD []).filterMap reservation

variable {server : Server} {store next initial state : MyServer} {reply : Option Reply}
variable {packet : Packet} {now : Instant} {mac : Mac} {ip : Ipv4Addr}
variable {config : Config} {hasher : Hasher Ipv4Addr Entry} {file : LeasesFile}
variable {past : List Handling}

/-- Every Offer and Ack to `mac` shows it `ip`, and nobody else is shown `ip`. -/
def Keeps (mac : Mac) (ip : Ipv4Addr) (past : List Handling) : Prop :=
  ∀ handled ∈ past, ∀ reply ∈ handled.output,
    reply.msgType = .offer ∨ reply.msgType = .ack →
      (reply.chaddr = mac → reply.yiaddr = ip) ∧ (reply.chaddr ≠ mac → reply.yiaddr ≠ ip)

instance (mac : Mac) (ip : Ipv4Addr) (past : List Handling) : Decidable (Keeps mac ip past) :=
  inferInstanceAs (Decidable (∀ handled ∈ past, ∀ reply ∈ handled.output,
    reply.msgType = .offer ∨ reply.msgType = .ack →
      (reply.chaddr = mac → reply.yiaddr = ip) ∧ (reply.chaddr ≠ mac → reply.yiaddr ≠ ip)))

/-- The packet is none of those that the store lets break a reservation: the
release of a reserved client, a lease-less client's Request for a reserved
address of the pool, and a lease-less client's Discover while the first
available address behind the cursor is a reserved one. -/
structure Harmless (server : Server) (reserved : List (Mac × Ipv4Addr)) (store : MyServer)
    (packet : Packet) (now : Instant) : Prop where
  release : server.accepts packet = true → packet.chaddr ∉ reserved.map Prod.fst
  request : packet.messageType = .ok .request →
    (∀ held, ¬store.HeldBy held packet.chaddr) → store.inPool packet.requestedIp = true →
      packet.requestedIp ∉ reserved.map Prod.snd
  discover : packet.messageType = .ok .discover →
    (∀ held, ¬store.HeldBy held packet.chaddr) →
      ∀ offset, store.FirstFree packet.chaddr now offset →
        store.address offset ∉ reserved.map Prod.snd

/-! ## Loading the reservations -/

theorem leases_inserted (valid : store.Valid) :
    (store.withTable (store.table.insert store.layout ip ⟨mac, none, none⟩)).leases =
      Function.update store.leases ip (some ⟨mac, none⟩) := by
  have updated : (store.withTable
      (store.table.insert store.layout ip ⟨mac, none, none⟩)).entry =
        Function.update store.entry ip (some ⟨mac, none, none⟩) := by
    funext other
    rw [Function.update_apply]
    exact SlotTable.lookup_insert valid.table
  exact leases_of_entry_update updated

/-- Loading reserves the address of every line, in order. -/
theorem leases_loadLeases {lines : List (Option Text)} (valid : store.Valid)
    (loaded : store.loadLeases lines = .ok next) :
    next.leases = store.leases.reserve (reservations (some lines)) := by
  induction lines generalizing store with
  | nil =>
      cases loaded
      rfl
  | cons line lines induction =>
      rcases Checked.bind_eq_ok_iff.mp loaded with ⟨middle, first, rest⟩
      rcases loadLine_cases valid first with ⟨skipped, rfl⟩ | ⟨mac, ip, read, rfl⟩
      · have same : reservations (some (line :: lines)) = reservations (some lines) :=
          List.filterMap_cons_none skipped
        rw [same]
        exact induction valid rest
      · have split : reservations (some (line :: lines)) =
            (mac, ip) :: reservations (some lines) := List.filterMap_cons_some read
        rw [split, LeaseTable.reserve, ← leases_inserted valid]
        exact induction (valid_inserted valid) rest

theorem leases_start {useSlots : Bool} (accepted : config.validate = .ok config)
    (started : start useSlots config hasher file = .ok initial) :
    initial.leases = LeaseTable.reserve (fun _ => none) (reservations file) := by
  have nothing : (withStorage useSlots config hasher).leases = fun _ => none :=
    leases_withStorage
  rw [← nothing]
  cases file with
  | none =>
      cases started
      rfl
  | some lines => exact leases_loadLeases (valid_withStorage accepted useSlots hasher) started

theorem leases_main (accepted : config.validate = .ok config)
    (loaded : main config hasher file = .ok initial) :
    initial.leases = LeaseTable.reserve (fun _ => none) (reservations file) :=
  leases_start accepted ((main_eq_start config hasher file).symm.trans loaded)

/-! ## One address each -/

theorem singleHolding_start {useSlots : Bool} (accepted : config.validate = .ok config)
    (started : start useSlots config hasher file = .ok initial)
    (macs : ((reservations file).map Prod.fst).Nodup) : initial.leases.SingleHolding := by
  rw [leases_start accepted started]
  exact LeaseTable.singleHolding_reserve macs

theorem singleHolding_main (accepted : config.validate = .ok config)
    (loaded : main config hasher file = .ok initial)
    (macs : ((reservations file).map Prod.fst).Nodup) : initial.leases.SingleHolding :=
  singleHolding_start accepted ((main_eq_start config hasher file).symm.trans loaded) macs

/-- A store in which nobody holds two addresses. -/
structure SinglyHeld (store : MyServer) : Prop where
  valid : store.Valid
  single : store.leases.SingleHolding

/-- No packet gives a client a second address. -/
theorem SinglyHeld.step {incoming : Incoming} {output : Option Reply} (before : store.SinglyHeld)
    (handled : handleRequest server store incoming = .ok (next, output)) : next.SinglyHeld := by
  have effect := effect_of_handled before.valid handled
  rcases effect.event before.valid with ⟨event, stepped, _⟩
  exact ⟨effect.valid before.valid, before.single.step stepped⟩

theorem singleHolding_of_run (valid : initial.Valid) (single : initial.leases.SingleHolding)
    (run : Run (handleRequest server) initial past state) : state.leases.SingleHolding :=
  (run.invariant (SinglyHeld.mk valid single) SinglyHeld.step).single

/-! ## Keeping the reservations -/

/-- What a harmless packet shows to somebody without a lease is no reserved
address. -/
theorem Harmless.not_shown {reserved : List (Mac × Ipv4Addr)} {other : Mac}
    (harmless : Harmless server reserved store packet now)
    (effect : Effect server store packet now next reply) (valid : store.Valid)
    (nothing : ∀ held, ¬store.leases.HeldBy held other)
    (shows : reply.bind Reply.shown = some (other, ip)) : ip ∉ reserved.map Prod.snd := by
  have sender := effect.chaddr_of_shown shows
  subst sender
  have leaseless : ∀ held, ¬store.HeldBy held packet.chaddr := fun held holds =>
    nothing held (leases_heldBy_iff.mpr holds)
  rcases effect.selected valid leaseless shows with
    ⟨kind, wanted, inside⟩ | ⟨kind, offset, first, chosen⟩
  · rw [wanted] at inside ⊢
    exact harmless.request kind leaseless inside
  · rw [chosen]
    exact harmless.discover kind leaseless offset first

/-- A harmless packet keeps a reservation and is answered accordingly. -/
theorem Harmless.keeps {reserved : List (Mac × Ipv4Addr)}
    (harmless : Harmless server reserved store packet now)
    (effect : Effect server store packet now next reply) (valid : store.Valid)
    (member : (mac, ip) ∈ reserved) (holds : store.leases.Reserved mac ip) :
    next.leases.Reserved mac ip ∧ ∀ sent ∈ reply,
      sent.msgType = .offer ∨ sent.msgType = .ack →
        (sent.chaddr = mac → sent.yiaddr = ip) ∧ (sent.chaddr ≠ mac → sent.yiaddr ≠ ip) := by
  rcases effect.event valid with ⟨event, stepped, releases, _, shows⟩
  have unshown : ∀ other, other ≠ mac → event.shown ≠ some (other, ip) := by
    intro other different shown
    rcases holds.shown_other stepped shown different with ⟨_, nothing, _⟩
    rw [shows] at shown
    exact harmless.not_shown effect valid nothing shown
      (List.mem_map.mpr ⟨(mac, ip), member, rfl⟩)
  have kept : event.released ≠ some mac := by
    rw [releases, Server.releases]
    split
    · rename_i accepted
      intro same
      rw [← Option.some.inj same] at member
      exact harmless.release accepted (List.mem_map.mpr ⟨_, member, rfl⟩)
    · intro same
      cases same
  refine ⟨holds.step stepped kept unshown, ?_⟩
  intro sent answered kind
  have shown : event.shown = some (sent.chaddr, sent.yiaddr) := by
    rw [shows, Option.mem_def.mp answered]
    exact if_pos kind
  refine ⟨?_, ?_⟩
  · intro same
    rw [same] at shown
    exact holds.shown_owner stepped shown
  · intro different same
    rw [same] at shown
    exact unshown _ different shown

theorem reserved_of_run {reserved : List (Mac × Ipv4Addr)} (valid : initial.Valid)
    (member : (mac, ip) ∈ reserved) (start : initial.leases.Reserved mac ip)
    (run : Run (handleRequest server) initial past state)
    (harmless : ∀ handled ∈ past, Harmless server reserved handled.before
      handled.input.packet handled.input.now) :
    (state.Valid ∧ state.leases.Reserved mac ip) ∧ Keeps mac ip past := by
  apply run.invariant_of_allowed ⟨valid, start⟩ ?_ harmless
  intro handled before stepped allowed
  have effect := effect_of_handled before.1 stepped
  rcases allowed.keeps effect before.1 member before.2 with ⟨after, answered⟩
  exact ⟨⟨effect.valid before.1, after⟩, answered⟩

/-- A run of harmless packets keeps every reservation of the leases file. -/
theorem keeps_of_run (accepted : config.validate = .ok config)
    (loaded : main config hasher file = .ok initial)
    (macs : ((reservations file).map Prod.fst).Nodup)
    (ips : ((reservations file).map Prod.snd).Nodup)
    (run : Run (handleRequest server) initial past state)
    (harmless : ∀ handled ∈ past, Harmless server (reservations file) handled.before
      handled.input.packet handled.input.now) :
    ∀ mac ip, (mac, ip) ∈ reservations file → Keeps mac ip past := by
  intro mac ip member
  have start : initial.leases.Reserved mac ip := by
    rw [leases_main accepted loaded]
    exact LeaseTable.reserved_reserve macs ips member
  exact (reserved_of_run (valid_main accepted loaded) member start run harmless).2

/-- One reservation, inside the pool. -/
def oneReservation : LeasesFile := some [some "01:02:03:04:05:06,192.168.2.3".toList]

/-- A stranger who asks for another address leaves the reservation alone. -/
theorem keeps_of_run_stranger :
    ∃ session, simulate (handleRequest ⟨.new 192 168 2 1⟩)
        (main twoLeases Hasher.newestFirst oneReservation)
        [⟨requestFor #v[1, 2, 3, 4, 5, 7] (.new 192 168 2 2), 5⟩] = .ok session ∧
      Keeps #v[1, 2, 3, 4, 5, 6] (.new 192 168 2 3) session.past := by
  have computed : Checked.passes (simulate (handleRequest ⟨.new 192 168 2 1⟩)
      (main twoLeases Hasher.newestFirst oneReservation)
      [⟨requestFor #v[1, 2, 3, 4, 5, 7] (.new 192 168 2 2), 5⟩])
      (fun session => session.past.map (fun handled => handled.input.packet) =
        [requestFor #v[1, 2, 3, 4, 5, 7] (.new 192 168 2 2)]) = true := by decide
  rcases Checked.exists_of_passes computed with ⟨session, simulated, handled⟩
  rcases Run.of_simulate simulated with ⟨loaded, run⟩
  refine ⟨session, simulated, keeps_of_run rfl loaded (by decide) (by decide) run ?_ _ _
    (by decide)⟩
  intro handling listed
  have packet := List.mem_map_of_mem (f := fun handled => handled.input.packet) listed
  rw [of_decide_eq_true handled, List.mem_singleton] at packet
  rw [packet]
  exact ⟨by decide, fun _ _ _ => by decide, fun kind => absurd kind (by decide)⟩

/-- A stranger who asks for the reserved address is given it. -/
theorem reservation_taken_over : twoLeases.validate = .ok twoLeases ∧
    reservations oneReservation = [(#v[1, 2, 3, 4, 5, 6], .new 192 168 2 3)] ∧
    ∃ session, simulate (handleRequest ⟨.new 192 168 2 1⟩)
        (main twoLeases Hasher.newestFirst oneReservation)
        [⟨requestFor #v[1, 2, 3, 4, 5, 7] (.new 192 168 2 3), 5⟩] = .ok session ∧
      ¬Keeps #v[1, 2, 3, 4, 5, 6] (.new 192 168 2 3) session.past := by
  have computed : Checked.passes (simulate (handleRequest ⟨.new 192 168 2 1⟩)
      (main twoLeases Hasher.newestFirst oneReservation)
      [⟨requestFor #v[1, 2, 3, 4, 5, 7] (.new 192 168 2 3), 5⟩])
      (fun session => ¬Keeps #v[1, 2, 3, 4, 5, 6] (.new 192 168 2 3) session.past) = true := by
    decide
  rcases Checked.exists_of_passes computed with ⟨session, simulated, violated⟩
  exact ⟨rfl, rfl, session, simulated, of_decide_eq_true violated⟩

end MyServer

end RustyDhcp
