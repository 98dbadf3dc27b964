import RustyDhcp.Server.Reservations

/-! # Host names

The host name of a lease is the last one that its holder announced while it
held the address. -/

namespace RustyDhcp.MyServer

variable {server : Server} {store next initial state : MyServer} {reply : Option Reply}
variable {packet : Packet} {now : Instant} {addr : Ipv4Addr} {mac : Mac} {entry : Entry}
variable {config : Config} {hasher : Hasher Ipv4Addr Entry} {file : LeasesFile}
variable {past : List Handling}

/-- The host name that `mac` announces with a packet: only those of a Discover
or a Request count. -/
def announced (mac : Mac) (packet : Packet) : Option Text :=
  if packet.chaddr = mac ∧
      (packet.messageType = .ok .discover ∨ packet.messageType = .ok .request) then
    hostnameOf packet
  else none

def holds (store : MyServer) (addr : Ipv4Addr) (mac : Mac) : Bool :=
  match store.lookup addr with
  | .ok (some entry) => entry.mac = mac
  | _ => false

/-- The packets since `mac` came to hold `addr`, newest first: those handled
while it did, and the one that leased it the address. -/
def tenure (mac : Mac) (addr : Ipv4Addr) : List Handling → List Handling
  | [] => []
  | handled :: past =>
      if handled.before.holds addr mac then handled :: tenure mac addr past else [handled]

/-- The last name that `mac` announced since it came to hold `addr`. -/
def lastAnnounced (mac : Mac) (addr : Ipv4Addr) (past : List Handling) : Option Text :=
  (tenure mac addr past).findSome? fun handled => announced mac handled.input.packet

theorem holds_iff (valid : store.Valid) : store.holds addr mac = true ↔ store.HeldBy addr mac := by
  rw [holds, lookup_eq valid]
  constructor
  · intro held
    cases found : store.entry addr with
    | none => simp [found] at held
    | some entry =>
        rw [found] at held
        exact ⟨entry, found, of_decide_eq_true held⟩
  · intro held
    rcases held with ⟨entry, found, owner⟩
    have read : store.entry addr = some entry := found
    have owns : entry.mac = mac := owner
    simp [read, owns]

theorem announced_of_other (other : packet.chaddr ≠ mac) : announced mac packet = none :=
  if_neg fun both => other both.1

theorem announced_of_kind (notDiscover : packet.messageType ≠ .ok .discover)
    (notRequest : packet.messageType ≠ .ok .request) : announced mac packet = none :=
  if_neg fun both => both.2.elim notDiscover notRequest

theorem announced_of_sender
    (kind : packet.messageType = .ok .discover ∨ packet.messageType = .ok .request) :
    announced packet.chaddr packet = hostnameOf packet :=
  if_pos ⟨rfl, kind⟩

/-! ## What a packet does to the name of a lease -/

/-- The lease at `addr` was there before and learnt what its holder announced,
or it is new and carries just that. -/
def Learns (store : MyServer) (packet : Packet) (addr : Ipv4Addr) (entry : Entry) : Prop :=
  (∃ old, store.entry addr = some old ∧ old.mac = entry.mac ∧
    entry.hostname = (announced entry.mac packet).or old.hostname) ∨
  ¬store.HeldBy addr entry.mac ∧ entry.hostname = announced entry.mac packet

theorem Learns.unchanged (found : store.entry addr = some entry)
    (silent : announced entry.mac packet = none) : store.Learns packet addr entry :=
  .inl ⟨entry, found, rfl, by rw [silent, Option.none_or]⟩

/-- A packet of a client without a lease that leaves the table alone. -/
theorem Learns.of_nothing (found : store.entry addr = some entry)
    (nothing : ∀ held, ¬store.HeldBy held packet.chaddr) : store.Learns packet addr entry := by
  apply Learns.unchanged found
  apply announced_of_other
  intro same
  exact nothing addr ⟨entry, found, same.symm⟩

theorem Learns.of_renamed {held : Ipv4Addr} (valid : store.Valid)
    (single : store.leases.SingleHolding)
    (kind : packet.messageType = .ok .discover ∨ packet.messageType = .ok .request)
    (current : store.current packet.chaddr = some held)
    (found : (store.renamed held (hostnameOf packet)).entry addr = some entry) :
    store.Learns packet addr entry := by
  have holder := heldBy_of_current valid current
  rcases holder with ⟨old, read, owner⟩
  have owns : old.mac = packet.chaddr := owner
  have elsewhere : addr ≠ held → store.entry addr = some entry →
      store.Learns packet addr entry := by
    intro different unchanged
    apply Learns.unchanged unchanged
    apply announced_of_other
    intro same
    apply different
    exact single (leases_heldBy_iff.mpr ⟨entry, unchanged, same.symm⟩)
      (leases_heldBy_iff.mpr ⟨old, read, owner⟩)
  have speaks := announced_of_sender kind
  rw [← owns] at speaks
  cases hostname : hostnameOf packet with
  | none =>
      rw [hostname] at found speaks
      by_cases here : addr = held
      · subst here
        have same : store.entry addr = some entry := found
        cases read.symm.trans same
        exact .unchanged same speaks
      · exact elsewhere here found
  | some name =>
      rw [hostname, entry_renamed_some read name, Function.update_apply] at found
      split at found
      · rename_i here
        subst here
        cases found
        rw [hostname] at speaks
        refine .inl ⟨old, read, rfl, ?_⟩
        have known : announced (old.rename name).mac packet = some name := speaks
        rw [known]
        rfl
      · rename_i different
        exact elsewhere different found

theorem Learns.of_leased {leased : Ipv4Addr} (valid : store.Valid)
    (kind : packet.messageType = .ok .discover ∨ packet.messageType = .ok .request)
    (nothing : ∀ held, ¬store.HeldBy held packet.chaddr)
    (found : (store.leased leased packet now).entry addr = some entry) :
    store.Learns packet addr entry := by
  rw [entry_leased valid, Function.update_apply] at found
  split at found
  · cases found
    exact .inr ⟨nothing addr, (announced_of_sender kind).symm⟩
  · exact .of_nothing found nothing

theorem Effect.learns (effect : Effect server store packet now next reply) (valid : store.Valid)
    (single : store.leases.SingleHolding) (found : next.entry addr = some entry) :
    store.Learns packet addr entry := by
  cases effect with
  | ignored notDiscover notRequest _ =>
      exact .unchanged found (announced_of_kind notDiscover notRequest)
  | heldOffered kind _ current => exact .of_renamed valid single (.inl kind) current found
  | freeOffered _ _ nothing _ => exact .of_nothing found nothing
  | exhausted _ nothing _ => exact .of_nothing found nothing
  | heldAcked kind current =>
      exact .of_renamed valid single (kind.elim .inr fun rapid => .inl rapid.1) current found
  | freeAcked kind _ nothing first =>
      have learnt := Learns.of_leased (valid.atOffset first.lt) (.inl kind) nothing found
      exact learnt
  | requestAcked kind nothing _ => exact .of_leased valid (.inr kind) nothing found
  | requestRefused _ nothing _ => exact .of_nothing found nothing
  | leaseReleased accepted _ =>
      rcases kind_of_accepts accepted with ⟨notDiscover, notRequest⟩
      rw [entry_released valid, Function.update_apply] at found
      split at found
      · cases found
      · exact .unchanged found (announced_of_kind notDiscover notRequest)
  | nothingReleased _ nothing => exact .of_nothing found nothing

/-! ## Runs -/

/-- The leases file names nobody. -/
theorem hostname_of_loadLeases {lines : List (Option Text)} (valid : store.Valid)
    (nameless : ∀ addr entry, store.entry addr = some entry → entry.hostname = none)
    (loaded : store.loadLeases lines = .ok next) :
    ∀ addr entry, next.entry addr = some entry → entry.hostname = none := by
  induction lines generalizing store with
  | nil =>
      cases loaded
      exact nameless
  | cons line lines induction =>
      rcases Checked.bind_eq_ok_iff.mp loaded with ⟨middle, first, rest⟩
      rcases loadLine_cases valid first with ⟨_, rfl⟩ | ⟨mac, ip, _, rfl⟩
      · exact induction valid nameless rest
      · apply induction (valid_inserted valid) ?_ rest
        intro addr entry found
        have read : (store.table.insert store.layout ip ⟨mac, none, none⟩).lookup store.layout
            addr = some entry := found
        rw [SlotTable.lookup_insert valid.table] at read
        split at read
        · cases read
          rfl
        · exact nameless addr entry read

theorem hostname_of_main (accepted : config.validate = .ok config)
    (loaded : main config hasher file = .ok initial) :
    ∀ addr entry, initial.entry addr = some entry → entry.hostname = none := by
  have empty : ∀ addr entry, (ofConfig config hasher).entry addr = some entry →
      entry.hostname = none := by
    intro addr entry found
    rw [ofConfig_eq, entry_withStorage] at found
    cases found
  cases file with
  | none =>
      cases loaded
      exact empty
  | some lines => exact hostname_of_loadLeases (valid_ofConfig accepted hasher) empty loaded

/-- The name of every lease is the last one that its holder announced since it
came to hold the address: in no run does a lease lose it, or carry that of
somebody else. -/
theorem hostname_eq_lastAnnounced (accepted : config.validate = .ok config)
    (loaded : main config hasher file = .ok initial)
    (macs : ((reservations file).map Prod.fst).Nodup)
    (run : Run (handleRequest server) initial past state) :
    ∀ addr entry, state.lookup addr = .ok (some entry) →
      entry.hostname = lastAnnounced entry.mac addr past := by
  have valid := valid_main accepted loaded
  have single := singleHolding_main accepted loaded macs
  intro addr entry found
  rw [lookup_eq (valid_of_run valid run), Except.ok.injEq] at found
  induction run generalizing entry with
  | start => exact hostname_of_main accepted loaded addr entry found
  | @next past before incoming after output earlier handled induction =>
      have beforeValid := valid_of_run valid earlier
      have effect := effect_of_handled beforeValid handled
      rw [lastAnnounced, tenure]
      rcases effect.learns beforeValid (singleHolding_of_run valid single earlier) found with
        ⟨old, read, same, learnt⟩ | ⟨fresh, learnt⟩
      · have held : before.holds addr entry.mac = true :=
          (holds_iff beforeValid).mpr ⟨old, read, same⟩
        have remembered := induction old read
        rw [same] at remembered
        rw [if_pos held, List.findSome?_cons, learnt, remembered]
        cases announced entry.mac incoming.packet <;> rfl
      · have notHeld : before.holds addr entry.mac ≠ true := fun held =>
          fresh ((holds_iff beforeValid).mp held)
        rw [if_neg notHeld, List.findSome?_cons, learnt]
        cases announced entry.mac incoming.packet <;> rfl

def namedRequestFor (mac : Mac) (ip : Ipv4Addr) (name : Text) : Packet :=
  .ofClient mac [.dhcpMessageType .request, .requestedIpAddress ip, .hostName name]

/-- A lease is taken over from a reservation and renewed by a packet without a
name. -/
theorem hostname_eq_lastAnnounced_takeover :
    ∃ session entry, simulate (handleRequest ⟨.new 192 168 2 1⟩)
        (main twoLeases Hasher.newestFirst oneReservation)
        [⟨namedRequestFor #v[1, 2, 3, 4, 5, 7] (.new 192 168 2 3) "printer".toList, 5⟩,
          ⟨requestFor #v[1, 2, 3, 4, 5, 7] (.new 192 168 2 3), 6⟩] = .ok session ∧
      session.state.lookup (.new 192 168 2 3) = .ok (some entry) ∧
      entry.hostname = some "printer".toList ∧
      entry.hostname = lastAnnounced entry.mac (.new 192 168 2 3) session.past := by
  have computed : Checked.passes (simulate (handleRequest ⟨.new 192 168 2 1⟩)
      (main twoLeases Hasher.newestFirst oneReservation)
      [⟨namedRequestFor #v[1, 2, 3, 4, 5, 7] (.new 192 168 2 3) "printer".toList, 5⟩,
        ⟨requestFor #v[1, 2, 3, 4, 5, 7] (.new 192 168 2 3), 6⟩])
      (fun session => Checked.passes (session.state.lookup (.new 192 168 2 3))
        fun found => found.any fun entry => entry.hostname = some "printer".toList) = true := by
    decide
  rcases Checked.exists_of_passes computed with ⟨session, simulated, read⟩
  rcases Run.of_simulate simulated with ⟨loaded, run⟩
  rcases Checked.exists_of_passes read with ⟨found, looked, named⟩
  rw [Option.any_eq_true] at named
  rcases named with ⟨entry, same, name⟩
  subst same
  exact ⟨session, entry, simulated, looked, of_decide_eq_true name,
    hostname_eq_lastAnnounced rfl loaded (by decide) run _ _ looked⟩

end RustyDhcp.MyServer
