import RustyDhcp.ArrivalOrder
import RustyDhcp.Display
import RustyDhcp.Server.Echoes
import RustyDhcp.Server.LeasesFile

/-! # Starting again from a leases file

A file with a line `mac,ip` for every lease gives the leases to the next server.
Those who hold one do not notice that the server was started again. -/

namespace RustyDhcp

variable {octet : UInt8} {mac : Mac} {ip : Ipv4Addr}

/-- The line of a leases file for a lease. -/
def leasesLine (lease : Mac × Ipv4Addr) : Text := chaddr lease.1 ++ ',' :: lease.2.toText

def leasesText (leases : List (Mac × Ipv4Addr)) : Text :=
  leases.flatMap fun lease => leasesLine lease ++ ['\n']

/-! ## The lines -/

theorem hexOctet_hexPair (octet : UInt8) : hexOctet (hexPair octet) = some octet := by
  have bound := octet.toNat_lt
  have number : hexNumber (hexPair octet) = some octet.toNat := by
    rw [hexNumber, hexPair, List.mapM_cons, toDigit_digitChar _ (by omega), List.mapM_cons,
      toDigit_digitChar _ (by omega)]
    have value : octet.toNat / 16 * 16 + octet.toNat % 16 = octet.toNat := by omega
    simp [value]
  have nonempty : hexPair octet ≠ [] := by simp [hexPair]
  rw [hexOctet, number]
  simp only [Option.bind_eq_bind, Option.bind_some]
  rw [if_pos ⟨nonempty, by omega⟩, UInt8.ofNat_toNat]

/-- A line makes the reservation that it was written for. -/
theorem reserves_leasesLine (mac : Mac) (ip : Ipv4Addr) :
    MyServer.Reserves (leasesLine (mac, ip)) mac ip := by
  refine ⟨mac.toList.map hexPair, ip.toText, ?_, ?_, ?_⟩
  · rw [leasesLine, chaddr_eq]
  · rw [List.map_map]
    apply List.map_congr_left
    intro octet _
    exact hexOctet_hexPair octet
  · rw [trim_of_kept fun char member => isWhitespace_of_isPlain (isPlain_of_mem_ipv4 member)]
    exact parseIpv4Addr_toText ip

theorem listed_leasesLine (lease : Mac × Ipv4Addr) :
    MyServer.listed (leasesLine lease) = some lease :=
  MyServer.listed_eq_some_iff.mpr (reserves_leasesLine lease.1 lease.2)

theorem not_deceptive_leasesLine (lease : Mac × Ipv4Addr) :
    ¬MyServer.Deceptive (leasesLine lease) := by
  intro deceptive
  have listed := listed_leasesLine lease
  rw [MyServer.listed_of_deceptive deceptive] at listed
  cases listed

theorem leaseLine_leasesLine (lease : Mac × Ipv4Addr) :
    leaseLine (leasesLine lease) = .ok (some lease) := by
  rw [MyServer.leaseLine_of_not_deceptive (not_deceptive_leasesLine lease), listed_leasesLine]

theorem isPlain_of_mem_leasesLine {char : Char} {lease : Mac × Ipv4Addr}
    (member : char ∈ leasesLine lease) : isPlain char = true ∨ char = ',' := by
  rcases List.mem_append.mp member with sender | address
  · exact .inl (isPlain_of_mem_chaddr sender)
  · rcases List.mem_cons.mp address with comma | address
    · exact .inr comma
    · exact .inl (isPlain_of_mem_ipv4 address)

/-! ## The file -/

theorem mem_asBytes {byte : UInt8} {text : Text} (ascii : byte.toNat < 128)
    (member : byte ∈ asBytes text) : ∃ char ∈ text, char.toNat = byte.toNat := by
  rcases List.mem_flatMap.mp member with ⟨char, inside, member⟩
  refine ⟨char, inside, ?_⟩
  by_cases narrow : char.toNat < 128
  · rw [utf8EncodeChar_ascii narrow, List.mem_singleton] at member
    rw [member, UInt8.toNat_ofNat_of_lt' (Nat.lt_trans narrow (by decide))]
  · have wide := utf8EncodeChar_wide (Nat.le_of_not_lt narrow) byte member
    omega

theorem asBytes_append (front back : Text) : asBytes (front ++ back) =
    asBytes front ++ asBytes back := List.flatMap_append

/-- What is printed has no line break in it. -/
theorem not_mem_asBytes {byte : UInt8} {line : Text}
    (plain : ∀ char ∈ line, isPlain char = true ∨ char = ',')
    (blank : byte = '\n'.toUInt8 ∨ byte = '\r'.toUInt8) : byte ∉ asBytes line := by
  intro member
  have ascii : byte.toNat < 128 := by rcases blank with rfl | rfl <;> decide
  rcases mem_asBytes ascii member with ⟨char, inside, same⟩
  have code : char = '\n' ∨ char = '\r' := by
    rcases blank with rfl | rfl
    · exact .inl (Char.toNat_inj.mp same)
    · exact .inr (Char.toNat_inj.mp same)
  rcases plain char inside with plain | comma
  · rcases code with rfl | rfl
    · exact absurd plain (by decide)
    · exact absurd plain (by decide)
  · subst comma
    exact absurd code (by decide)

/-- A file of printed lines is read line by line. -/
theorem bufLines_flatMap (lines : List Text)
    (plain : ∀ line ∈ lines, ∀ char ∈ line, isPlain char = true ∨ char = ',') :
    bufLines (asBytes (lines.flatMap fun line => line ++ ['\n'])) = lines.map some := by
  have newline : asBytes ['\n'] = ['\n'.toUInt8] := by decide
  have bytes : asBytes (lines.flatMap fun line => line ++ ['\n']) =
      lines.flatMap fun line => asBytes line ++ ['\n'.toUInt8] := by
    rw [asBytes, List.flatMap_assoc]
    congr 1
    funext line
    rw [← newline, ← asBytes_append]
    rfl
  rw [bufLines, bytes, Lines.of_flatMap asBytes, List.map_map]
  · apply List.map_congr_left
    intro line _
    exact fromUtf8_eq_some_iff.mpr rfl
  · exact fun line member => not_mem_asBytes (plain line member) (.inl rfl)
  · exact fun line member last => not_mem_asBytes (plain line member) (.inr rfl)
      (List.mem_of_getLast? last)

theorem bufLines_leasesText (leases : List (Mac × Ipv4Addr)) :
    bufLines (asBytes (leasesText leases)) = leases.map fun lease => some (leasesLine lease) := by
  have whole : leasesText leases =
      (leases.map leasesLine).flatMap fun line => line ++ ['\n'] := by
    rw [List.flatMap_map]
    rfl
  rw [whole, bufLines_flatMap, List.map_map]
  · rfl
  · rw [List.forall_mem_map]
    exact fun lease _ char member => isPlain_of_mem_leasesLine member

namespace MyServer

variable {config : Config} {hasher : Hasher Ipv4Addr Entry} {store state initial : MyServer}
variable {leases : List (Mac × Ipv4Addr)} {packet : Packet} {now : Instant} {server : Server}

theorem reservations_leasesText (leases : List (Mac × Ipv4Addr)) :
    reservations (some (bufLines (asBytes (leasesText leases)))) = leases := by
  rw [bufLines_leasesText]
  induction leases with
  | nil => rfl
  | cons lease leases induction =>
      rw [reservations, Option.getD_some, List.map_cons,
        List.filterMap_cons_some (b := lease) (by rw [reservation, Option.bind_some,
          leaseLine_leasesLine])]
      exact congrArg _ induction

theorem main_leasesText (accepted : config.validate = .ok config)
    (hasher : Hasher Ipv4Addr Entry) (leases : List (Mac × Ipv4Addr)) :
    ∃ restarted, main config hasher (some (bufLines (asBytes (leasesText leases)))) =
      .ok restarted := by
  have plain : ∀ text, some text ∈ bufLines (asBytes (leasesText leases)) → ¬Deceptive text := by
    intro text member
    rw [bufLines_leasesText] at member
    rcases List.mem_map.mp member with ⟨lease, _, same⟩
    cases same
    exact not_deceptive_leasesLine lease
  rcases ((main_loadsListed accepted hasher _).mpr plain).starts with ⟨restarted, loaded, _⟩
  exact ⟨restarted, loaded⟩

/-! ## The leases of a store -/

/-- The leases, each as its holder and its address. -/
def held (store : MyServer) : List (Mac × Ipv4Addr) :=
  (store.table.entries store.layout).map fun found => (found.2.mac, found.1)

theorem mem_held_iff {mac : Mac} {ip : Ipv4Addr} (valid : store.Valid) :
    (mac, ip) ∈ store.held ↔ store.HeldBy ip mac := by
  rw [held, List.mem_map]
  constructor
  · intro found
    rcases found with ⟨⟨addr, entry⟩, listed, same⟩
    cases same
    exact ⟨entry, (SlotTable.mem_entries_iff valid.table).mp listed, rfl⟩
  · intro holds
    rcases holds with ⟨entry, found, owner⟩
    refine ⟨(ip, entry), (SlotTable.mem_entries_iff valid.table).mpr found, ?_⟩
    rw [← owner]
    rfl

/-- A server that was started with the leases of another one has just these, all of
them without an end. -/
theorem leases_restarted {restarted : MyServer} (accepted : config.validate = .ok config)
    (valid : state.Valid) (same : ∀ lease, lease ∈ leases ↔ lease ∈ state.held)
    (loaded : main config hasher (some (bufLines (asBytes (leasesText leases)))) =
      .ok restarted) (addr : Ipv4Addr) :
    restarted.leases addr = (state.leases addr).map fun lease => ⟨lease.holder, none⟩ := by
  have listed : ∀ mac, (mac, addr) ∈ leases ↔ state.leases.HeldBy addr mac := fun mac =>
    ((same _).trans (mem_held_iff valid)).trans leases_heldBy_iff.symm
  rw [leases_main accepted loaded, reservations_leasesText]
  cases found : state.leases addr with
  | none =>
      apply LeaseTable.reserve_of_not_mem
      intro member
      rcases List.mem_map.mp member with ⟨⟨mac, _⟩, inside, rfl⟩
      rcases (listed mac).mp inside with ⟨lease, held, _⟩
      rw [found] at held
      cases held
  | some lease =>
      apply LeaseTable.reserve_of_agreed ((listed lease.holder).mpr ⟨lease, found, rfl⟩)
      intro other inside
      exact LeaseTable.HeldBy.unique ((listed other).mp inside) ⟨lease, found, rfl⟩

/-! ## Who holds a lease does not notice -/

/-- A server of the given configuration in which nobody holds two addresses. -/
structure Steady (config : Config) (store : MyServer) : Prop where
  held : store.SinglyHeld
  cachedOffer : store.cachedOffer = offerOptions config
  enableRapidCommit : store.enableRapidCommit = config.enableRapidCommit

theorem steady_main {file : LeasesFile} (accepted : config.validate = .ok config)
    (loaded : main config hasher file = .ok initial) (single : initial.leases.SingleHolding) :
    Steady config initial where
  held := ⟨valid_main accepted loaded, single⟩
  cachedOffer := cachedOffer_of_main accepted loaded
  enableRapidCommit := by
    have kept : initial.enableRapidCommit = (ofConfig config hasher).enableRapidCommit :=
      kept_of_main (fun _ _ _ => rfl) accepted loaded
    exact kept

theorem Steady.step {incoming : Incoming} {next : MyServer} {reply : Option Reply}
    (before : Steady config store)
    (handled : handleRequest server store incoming = .ok (next, reply)) : Steady config next := by
  have same := (effect_of_handled before.held.valid handled).sameSettings
  exact ⟨before.held.step handled, same.cachedOffer.trans before.cachedOffer,
    same.enableRapidCommit.trans before.enableRapidCommit⟩

/-- Two servers of one configuration with the same leases, but for their ends. -/
structure SameHolders (config : Config) (store other : MyServer) : Prop where
  steady : Steady config store ∧ Steady config other
  same : store.holder = other.holder

/-- What somebody who holds `addr` is answered. -/
def confirmation (store : MyServer) (packet : Packet) (addr : Ipv4Addr) : Option Reply :=
  match packet.messageType with
  | .ok .discover => some (store.reply (store.discoverType packet) packet addr)
  | .ok .request => some (store.reply .ack packet addr)
  | _ => none

theorem Steady.confirmation_eq {other : MyServer} {addr : Ipv4Addr} (first : Steady config store)
    (second : Steady config other) :
    store.confirmation packet addr = other.confirmation packet addr := by
  have replies : ∀ kind, store.reply kind packet addr = other.reply kind packet addr := by
    intro kind
    rw [reply, reply, first.cachedOffer, second.cachedOffer]
  have kind : store.discoverType packet = other.discoverType packet := by
    rw [discoverType, discoverType, rapid, rapid, first.enableRapidCommit,
      second.enableRapidCommit]
  rw [confirmation, confirmation, kind, replies, replies]

/-- The holder of an address keeps it and is told so, or gives it up. -/
theorem handleRequest_holder {addr : Ipv4Addr} (server : Server) (now : Instant)
    (valid : store.Valid)
    (found : store.current packet.chaddr = some addr) :
    ∃ next, handleRequest server store ⟨packet, now⟩ =
        .ok (next, store.confirmation packet addr) ∧
      next.holder = if server.accepts packet then Function.update store.holder addr none
        else store.holder := by
  rcases handleRequest_effect valid server ⟨packet, now⟩ with ⟨next, reply, handled, effect⟩
  have held := heldBy_of_current valid found
  have quiet : packet.messageType ≠ .ok .discover → packet.messageType ≠ .ok .request →
      store.confirmation packet addr = none := by
    intro notDiscover notRequest
    rw [confirmation]
    split
    · contradiction
    · contradiction
    · rfl
  have renamed := holder_renamed held (hostnameOf packet)
  have asks : packet.messageType = .ok .discover ∨ packet.messageType = .ok .request →
      server.accepts packet = false := by
    intro kind
    rcases kind with kind | kind
    · simp [Server.accepts, kind]
    · simp [Server.accepts, kind]
  rw [handled]
  refine ⟨next, ?_⟩
  cases effect with
  | ignored notDiscover notRequest refused =>
      rw [quiet notDiscover notRequest, refused]
      exact ⟨rfl, rfl⟩
  | heldOffered kind plain current =>
      cases found.symm.trans current
      rw [asks (.inl kind), renamed]
      refine ⟨?_, rfl⟩
      simp only [confirmation, kind, discoverType, plain]
      rfl
  | heldAcked kind current =>
      cases found.symm.trans current
      rcases kind with kind | ⟨kind, committed⟩
      · rw [asks (.inr kind), renamed]
        refine ⟨?_, rfl⟩
        simp only [confirmation, kind]
      · rw [asks (.inl kind), renamed]
        refine ⟨?_, rfl⟩
        simp only [confirmation, kind, discoverType, committed, if_true]
  | freeOffered _ _ nothing => exact absurd held (nothing addr)
  | exhausted _ nothing => exact absurd held (nothing addr)
  | freeAcked _ _ nothing => exact absurd held (nothing addr)
  | requestAcked _ nothing => exact absurd held (nothing addr)
  | requestRefused _ nothing => exact absurd held (nothing addr)
  | nothingReleased _ nothing => exact absurd held (nothing addr)
  | leaseReleased accepted current =>
      cases found.symm.trans current
      rcases kind_of_accepts accepted with ⟨notDiscover, notRequest⟩
      rw [quiet notDiscover notRequest, accepted, if_pos rfl]
      exact ⟨rfl, holder_released valid⟩

/-- Servers with the same leases treat whoever holds one in the same way. -/
theorem SameHolders.step {other : MyServer} {addr : Ipv4Addr} {reply : Option Reply}
    {next : MyServer} (alike : SameHolders config store other)
    (held : store.HeldBy addr packet.chaddr)
    (handled : handleRequest server store ⟨packet, now⟩ = .ok (next, reply)) :
    ∃ after, handleRequest server other ⟨packet, now⟩ = .ok (after, reply) ∧
      SameHolders config next after := by
  rcases alike with ⟨⟨first, second⟩, same⟩
  have otherHeld : other.HeldBy addr packet.chaddr := by
    rw [heldBy_iff_holder, ← same]
    exact heldBy_iff_holder.mp held
  rcases handleRequest_holder server now first.held.valid
    (first.held.current_eq_some_iff.mpr held) with ⟨left, leftHandled, leftHolder⟩
  rcases handleRequest_holder server now second.held.valid
    (second.held.current_eq_some_iff.mpr otherHeld) with ⟨right, rightHandled, rightHolder⟩
  rw [handled] at leftHandled
  cases leftHandled
  rw [← first.confirmation_eq second] at rightHandled
  refine ⟨right, rightHandled, ⟨first.step handled, second.step rightHandled⟩, ?_⟩
  rw [leftHolder, rightHolder, same]

/-- A server that was started with the leases of another one treats whoever holds one
of them in the same way. -/
theorem sameHolders_restarted {restarted : MyServer} (accepted : config.validate = .ok config)
    (steady : Steady config state) (same : ∀ lease, lease ∈ leases ↔ lease ∈ state.held)
    (loaded : main config hasher (some (bufLines (asBytes (leasesText leases)))) =
      .ok restarted) : SameHolders config state restarted := by
  have holders : state.holder = restarted.holder := by
    funext addr
    rw [holder, holder, leases_restarted accepted steady.held.valid same loaded, Option.map_map]
    rfl
  have single : restarted.leases.SingleHolding := by
    intro left right owner leftHeld rightHeld
    rw [leases_heldBy_iff, heldBy_iff_holder, ← holders, ← heldBy_iff_holder,
      ← leases_heldBy_iff] at leftHeld rightHeld
    exact steady.held.single leftHeld rightHeld
  exact ⟨⟨steady, steady_main accepted loaded single⟩, holders⟩

/-- What arrived is from somebody who holds a lease, or cannot be decoded. -/
def Knows (store : MyServer) (arrival : Arrival IoError) : Prop :=
  ∀ packet, Packet.fromBytes arrival.received = .ok packet →
    ∃ addr, store.HeldBy addr packet.chaddr

end MyServer

namespace Daemon

variable {daemon : Daemon} {initial state store next : MyServer} {config : Config}
variable {hasher : Hasher Ipv4Addr MyServer.Entry} {file : LeasesFile}
variable {past : List (Handled MyServer (Arrival IoError) Reaction)}
variable {arrival : Arrival IoError} {reaction : Reaction}

theorem steady_of_run (steady : MyServer.Steady config initial)
    (run : Run daemon.round initial past state) : MyServer.Steady config state := by
  refine run.invariant steady ?_
  intro before arrival after reaction steady done
  cases round_eq_ok_iff.mp done with
  | refused => exact steady
  | silent _ handled => exact steady.step handled
  | answered _ handled => exact steady.step handled

theorem round_sameHolders {other : MyServer} (alike : MyServer.SameHolders config store other)
    (known : store.Knows arrival) (done : daemon.round store arrival = .ok (next, reaction)) :
    ∃ after, daemon.round other arrival = .ok (after, reaction) ∧
      MyServer.SameHolders config next after := by
  cases round_eq_ok_iff.mp done with
  | refused decoded => exact ⟨other, round_refused decoded, alike⟩
  | silent decoded handled =>
      rcases known _ decoded with ⟨addr, held⟩
      rcases alike.step held handled with ⟨after, again, alike⟩
      exact ⟨after, round_silent decoded again, alike⟩
  | answered decoded handled =>
      rcases known _ decoded with ⟨addr, held⟩
      rcases alike.step held handled with ⟨after, again, alike⟩
      exact ⟨after, round_answered decoded again, alike⟩

/-- The leases of the daemon, written to a leases file in any order, are the leases of
the daemon that starts with this file. As long as only those who hold a lease send
anything, it answers with the same datagrams, byte for byte, as the old one would. -/
theorem restart_of_run (accepted : config.validate = .ok config)
    (macs : ((MyServer.reservations file).map Prod.fst).Nodup)
    (loaded : MyServer.main config hasher file = .ok initial)
    (run : Run daemon.round initial past state) {leases : List (Mac × Ipv4Addr)}
    (saved : ∀ lease, lease ∈ leases ↔ lease ∈ state.held)
    (otherHasher : Hasher Ipv4Addr MyServer.Entry) :
    ∃ restarted,
      MyServer.main config otherHasher (some (bufLines (asBytes (leasesText leases)))) =
        .ok restarted ∧
      (∀ addr, restarted.leases addr =
        (state.leases addr).map fun lease => ⟨lease.holder, none⟩) ∧
      ∀ (later : List (Handled MyServer (Arrival IoError) Reaction)) (final : MyServer),
        Run daemon.round state later final →
        (∀ handled ∈ later, handled.before.Knows handled.input) →
          ∃ relived last, Run daemon.round restarted relived last ∧
            relived.map Handled.seen = later.map Handled.seen := by
  have steady : MyServer.Steady config state := steady_of_run (MyServer.steady_main accepted loaded
    (MyServer.singleHolding_main accepted loaded macs)) run
  rcases MyServer.main_leasesText accepted otherHasher leases with ⟨restarted, reloaded⟩
  refine ⟨restarted, reloaded, ?_, ?_⟩
  · exact MyServer.leases_restarted accepted steady.held.valid saved reloaded
  · intro later final more known
    have alike := MyServer.sameHolders_restarted accepted steady saved reloaded
    rcases more.follow alike fun handled listed other related done =>
        round_sameHolders related (known handled listed) done with ⟨relived, last, again, _, same⟩
    exact ⟨relived, last, again, same⟩

set_option maxRecDepth 10000 in
/-- After a client got an address beside a reservation. -/
theorem restart_of_run_second : ∃ session,
    simulate (serveWithBroadcasts (.new 192 168 2 1) []).round
        (MyServer.main MyServer.twoLeases Hasher.newestFirst MyServer.oneReservation)
        [fromClient (MyServer.requestFor #v[2, 0, 0, 0, 7, 6] (.new 192 168 2 2)).wire] =
      .ok session ∧
      session.state.held.length = 2 ∧ ∃ restarted,
        MyServer.main MyServer.twoLeases Hasher.newestFirst
            (some (bufLines (asBytes (leasesText session.state.held)))) = .ok restarted ∧
          ∀ addr, restarted.leases addr =
            (session.state.leases addr).map fun lease => ⟨lease.holder, none⟩ := by
  have computed : Checked.passes (simulate (serveWithBroadcasts (.new 192 168 2 1) []).round
      (MyServer.main MyServer.twoLeases Hasher.newestFirst MyServer.oneReservation)
      [fromClient (MyServer.requestFor #v[2, 0, 0, 0, 7, 6] (.new 192 168 2 2)).wire])
      (fun session => session.state.held.length = 2) = true := by
    decide
  rcases Checked.exists_of_passes computed with ⟨session, simulated, two⟩
  rcases Run.of_simulate simulated with ⟨loaded, run⟩
  rcases restart_of_run rfl (by decide) loaded run (fun _ => Iff.rfl) Hasher.newestFirst with
    ⟨restarted, reloaded, same, _⟩
  exact ⟨session, simulated, of_decide_eq_true two, restarted, reloaded, same⟩

end Daemon

end RustyDhcp
