import RustyDhcp.Answers
import RustyDhcp.Server.Bounds
import RustyDhcp.Server.Destinations
import RustyDhcp.Server.Logged

/-! # What a reader of the log knows

From the notes alone, a reader can tell who holds which address, and which answers
went where. -/

namespace RustyDhcp

/-- Who holds which address, to a reader of the log. -/
abbrev Ledger := Ipv4Addr → Option Mac

/-- An answer that a note announces. -/
structure Announcement where
  msgType : MessageType
  mac : Mac
  xid : U32
  dsts : List SocketAddr
deriving DecidableEq

namespace Note

def enter (ledger : Ledger) : Note → Ledger
  | committed mac _ ip _ false => Function.update ledger ip (some mac)
  | acked mac _ ip _ false => Function.update ledger ip (some mac)
  | freed _ _ _ _ ip => Function.update ledger ip none
  | _ => ledger

def announced : Note → Option Announcement
  | offered mac xid _ dsts _ => some ⟨.offer, mac, xid, dsts⟩
  | committed mac xid _ dsts _ => some ⟨.ack, mac, xid, dsts⟩
  | acked mac xid _ dsts _ => some ⟨.ack, mac, xid, dsts⟩
  | refused mac xid _ dsts _ => some ⟨.nak, mac, xid, dsts⟩
  | _ => none

/-- Whom a note is about. -/
def mac : Note → Mac
  | discover mac .. | offered mac .. | committed mac .. | exhausted mac .. | request mac ..
  | mismatch mac .. | online _ mac .. | acked mac .. | refused mac .. | untyped mac .. => mac
  | ignored _ mac .. | freed _ mac .. | noLease _ mac .. | unsupported _ mac .. => mac

/-- Somebody else has a lease of the address that has not run out. -/
def InUse (store : MyServer) (mac : Mac) (ip : Ipv4Addr) (now : Instant) : Prop :=
  ∃ entry limit, store.entry ip = some entry ∧ entry.mac ≠ mac ∧ entry.expiry = some limit ∧
    now ≤ limit

/-- The address belongs to the pool, and the lease of somebody else that it may have
has run out or is one without an end. -/
def Free (store : MyServer) (mac : Mac) (ip : Ipv4Addr) (now : Instant) : Prop :=
  store.inPool ip = true ∧ ∀ entry, store.entry ip = some entry →
    entry.mac ≠ mac ∧ ∀ limit, entry.expiry = some limit → limit < now

/-- Whether a lease exists already or is a new one. -/
def LeaseIs (store : MyServer) (mac : Mac) (ip : Ipv4Addr) (now : Instant) (existing : Bool) :
    Prop :=
  if existing then store.HeldBy ip mac
  else (∀ held, ¬store.HeldBy held mac) ∧ Free store mac ip now

/-- What a note says about the leases, in the state in which the packet was handled. -/
def Correct (store : MyServer) (now : Instant) : Note → Prop
  | offered mac _ ip _ existing => LeaseIs store mac ip now existing
  | committed mac _ ip _ existing => LeaseIs store mac ip now existing
  | acked mac _ ip _ existing => LeaseIs store mac ip now existing
  | exhausted mac _ _ used total =>
      total = store.leaseNum.toNat ∧ total ≤ used ∧
        ∀ ip, store.inPool ip = true → InUse store mac ip now
  | refused mac _ ip _ inPool =>
      (∀ held, ¬store.HeldBy held mac) ∧
        if inPool then InUse store mac ip now else store.inPool ip = false
  | freed _ mac _ _ ip => store.HeldBy ip mac
  | noLease _ mac _ _ => ∀ held, ¬store.HeldBy held mac
  | _ => True

end Note

namespace MyServer

variable {scene : Scene} {store next : MyServer} {packet : Packet} {now : Instant}
variable {notes : List Note} {reply : Option Reply}

theorem enter_requestNotes (ledger : Ledger) (time : Text) :
    (requestNotes scene packet time).foldl Note.enter ledger = ledger := by
  rw [requestNotes]
  split <;> rfl

theorem announced_requestNotes (time : Text) :
    (requestNotes scene packet time).filterMap Note.announced = [] := by
  rw [requestNotes]
  split <;> rfl

/-- The notes about a packet are what it does to the leases. -/
theorem Report.ledger (report : Report scene store packet now next notes reply)
    (valid : store.Valid) : notes.foldl Note.enter store.holder = next.holder := by
  cases report with
  | heldOffered _ _ found =>
      exact (holder_renamed (heldBy_of_current valid found) _).symm
  | heldCommitted _ _ found =>
      exact (holder_renamed (heldBy_of_current valid found) _).symm
  | heldAcked _ _ found =>
      rw [List.foldl_append, enter_requestNotes]
      exact (holder_renamed (heldBy_of_current valid found) _).symm
  | freeCommitted _ _ _ first => exact (holder_leased (valid.atOffset first.lt)).symm
  | requestAcked =>
      rw [List.foldl_append, enter_requestNotes]
      exact (holder_leased valid).symm
  | requestRefused =>
      rw [List.foldl_append, enter_requestNotes]
      rfl
  | freed => exact (holder_released valid).symm
  | _ => rfl

/-- The answer to a packet is announced, and no other one. -/
theorem Report.announced (report : Report scene store packet now next notes reply) :
    notes.filterMap Note.announced = reply.toList.map fun reply =>
      ⟨reply.msgType, reply.reqPacket.chaddr, reply.reqPacket.xid,
        scene.dstsFor reply.reqPacket reply.offerIp⟩ := by
  cases report with
  | heldAcked =>
      rw [List.filterMap_append, announced_requestNotes]
      rfl
  | requestAcked =>
      rw [List.filterMap_append, announced_requestNotes]
      rfl
  | requestRefused =>
      rw [List.filterMap_append, announced_requestNotes]
      rfl
  | _ => rfl

theorem inUse_of_taken {mac : Mac} {ip : Ipv4Addr} (inside : store.inPool ip = true)
    (taken : store.available mac ip now = false) : Note.InUse store mac ip now := by
  have refused := mt available_iff.mpr (Bool.not_eq_true _ ▸ taken)
  simp only [inside, true_and, not_forall] at refused
  rcases refused with ⟨entry, found, blocked⟩
  rw [not_or, not_forall] at blocked
  rcases blocked with ⟨other, limit, blocked⟩
  rcases Classical.not_imp.mp blocked with ⟨expires, running⟩
  exact ⟨entry, limit, found, other, expires, Nat.not_lt.mp running⟩

theorem nodup_pool (valid : store.Valid) : store.pool.Nodup := by
  refine List.nodup_range.map_on ?_
  intro first inside second alsoInside same
  have range := valid.range
  rw [List.mem_range] at inside alsoInside
  have sums : (store.address first).bits.toNat = (store.address second).bits.toNat :=
    congrArg (fun addr => addr.bits.toNat) same
  rw [address_toNat (by omega), address_toNat (by omega)] at sums
  omega

theorem inPool_of_mem_pool {ip : Ipv4Addr} (valid : store.Valid) (member : ip ∈ store.pool) :
    store.inPool ip = true := by
  have range := valid.range
  rcases List.mem_map.mp member with ⟨offset, inside, rfl⟩
  rw [List.mem_range] at inside
  rw [inPool_iff, address_toNat (by omega)]
  omega

/-- Where every address of the pool is in use, there are at least as many entries as
addresses. -/
theorem leaseNum_le_of_full {mac : Mac} (valid : store.Valid)
    (full : ∀ ip, store.inPool ip = true → Note.InUse store mac ip now) :
    store.leaseNum.toNat ≤ store.filled + store.overflow.size := by
  have found : ∀ ip ∈ store.pool, (store.table.lookup store.layout ip).isSome := by
    intro ip member
    rcases full ip (inPool_of_mem_pool valid member) with ⟨entry, _, found, _⟩
    exact Option.isSome_iff_exists.mpr ⟨entry, found⟩
  have bound := SlotTable.length_le_filled_add_size valid.table (nodup_pool valid) found
  rwa [pool, List.length_map, List.length_range] at bound

theorem mac_requestNotes {note : Note} {time : Text}
    (listed : note ∈ requestNotes scene packet time) : note.mac = packet.chaddr := by
  rw [requestNotes, List.mem_append, List.mem_append, List.mem_singleton,
    List.mem_singleton] at listed
  rcases listed with (rfl | mismatch) | rfl
  · rfl
  · split at mismatch
    · cases mismatch
    · rw [List.mem_singleton.mp mismatch]
      rfl
  · rfl

theorem correct_requestNotes {note : Note} {time : Text}
    (listed : note ∈ requestNotes scene packet time) : note.Correct store now := by
  rw [requestNotes, List.mem_append, List.mem_append, List.mem_singleton,
    List.mem_singleton] at listed
  rcases listed with (rfl | mismatch) | rfl
  · trivial
  · split at mismatch
    · cases mismatch
    · rw [List.mem_singleton.mp mismatch]
      trivial
  · trivial

/-- No note says anything wrong about the leases. -/
theorem Report.correct (report : Report scene store packet now next notes reply)
    (valid : store.Valid) : ∀ note ∈ notes, note.Correct store now := by
  have one : ∀ {last : Note}, last.Correct store now → ∀ note ∈ [last], note.Correct store now :=
    fun correct => List.forall_mem_singleton.mpr correct
  have two : ∀ {first last : Note}, first.Correct store now → last.Correct store now →
      ∀ note ∈ [first, last], note.Correct store now :=
    fun first last => List.forall_mem_cons.mpr ⟨first, one last⟩
  have behind : ∀ {last : Note} {time : Text}, last.Correct store now →
      ∀ note ∈ requestNotes scene packet time ++ [last], note.Correct store now := by
    intro last time correct note listed
    rcases List.mem_append.mp listed with asked | last
    · exact correct_requestNotes asked
    · exact one correct note last
  cases report with
  | unsupported => exact one trivial
  | untyped => exact one trivial
  | ignored => exact one trivial
  | heldOffered _ _ found => exact two trivial (heldBy_of_current valid found)
  | heldCommitted _ _ found => exact two trivial (heldBy_of_current valid found)
  | heldAcked _ _ found => exact behind (heldBy_of_current valid found)
  | freeOffered _ _ nothing first =>
      exact two trivial ⟨nothing, foreign_of_available nothing first.available⟩
  | freeCommitted _ _ nothing first =>
      exact two trivial ⟨nothing, foreign_of_available nothing first.available⟩
  | requestAcked _ _ nothing free => exact behind ⟨nothing, foreign_of_available nothing free⟩
  | exhausted _ _ full =>
      have taken : ∀ ip, store.inPool ip = true → Note.InUse store packet.chaddr ip now :=
        fun ip inside => inUse_of_taken inside (full ip)
      exact two trivial ⟨rfl, leaseNum_le_of_full valid taken, taken⟩
  | requestRefused _ _ nothing taken =>
      refine behind ⟨nothing, ?_⟩
      split
      · rename_i inside
        exact inUse_of_taken inside taken
      · rename_i outside
        exact Bool.eq_false_iff.mpr outside
  | freed _ _ _ found => exact one (heldBy_of_current valid found)
  | nothingFreed _ _ _ nothing => exact one nothing

theorem Report.mac_eq (report : Report scene store packet now next notes reply) :
    ∀ note ∈ notes, note.mac = packet.chaddr := by
  have behind : ∀ {last : Note} {time : Text}, last.mac = packet.chaddr →
      ∀ note ∈ requestNotes scene packet time ++ [last], note.mac = packet.chaddr := by
    intro last time same note listed
    rcases List.mem_append.mp listed with asked | last
    · exact mac_requestNotes asked
    · rw [List.mem_singleton.mp last]
      exact same
  cases report with
  | heldAcked => exact behind rfl
  | requestAcked => exact behind rfl
  | requestRefused => exact behind rfl
  | _ => simp [Note.mac, discoverNote, exhaustedNote]

end MyServer

/-! ## The log of a run -/

/-- What a reader of the log makes of it, from what was known at the start. -/
def ledgerOf (start : Ledger)
    (past : List (Handled MyServer (Timed IoError) (List Note × Reaction))) : Ledger :=
  past.foldr (fun handled ledger => handled.output.1.foldl Note.enter ledger) start

/-- A datagram is one of those that were announced. -/
structure Announcement.Covers (announced : Announcement) (datagram : Datagram) : Prop where
  xid : (datagram.wire.drop 4).take 4 = toBeBytes announced.xid
  chaddr : (datagram.wire.drop 28).take 6 = announced.mac.toList
  kind : ∀ packet, Packet.fromBytes datagram.wire = .ok packet →
    ∀ read, packet.messageType = .ok read → read = announced.msgType

/-- What the notes of a round announce is what is sent: nothing, or one answer to its
destinations in order, up to the first that fails. -/
inductive Announces (outcome : Nat → Except IoError Nat) (sent : List Datagram) :
    List Announcement → Prop
  | nothing : sent = [] → Announces outcome sent []
  | answer {announced : Announcement} :
      sent.map Datagram.dst = attempted outcome 0 announced.dsts →
      (∀ datagram ∈ sent, announced.Covers datagram) →
      Announces outcome sent [announced]

namespace Daemon

variable {config : Config} {hasher : Hasher Ipv4Addr MyServer.Entry} {file : LeasesFile}
variable {daemon : Daemon} {broadcasts : List Ipv4Addr} {initial state store next : MyServer}
variable {timed : Timed IoError} {notes : List Note} {reaction : Reaction} {server : Server}
variable {past : List (Handled MyServer (Timed IoError) (List Note × Reaction))}

theorem covers_answer {bytes : List UInt8} {reply : Reply} (composed : reply.Composed config)
    (decoded : Packet.fromBytes bytes = .ok reply.reqPacket) (dst : SocketAddr)
    (dsts : List SocketAddr) :
    Announcement.Covers ⟨reply.msgType, reply.reqPacket.chaddr, reply.reqPacket.xid, dsts⟩
      ⟨(server.answer reply).wire, dst⟩ := by
  have written := headerOf_wire (server.answer reply)
  exact ⟨written.xid, written.chaddr, (tells_of_answer composed decoded).kind⟩

theorem LoggedRound.announces
    (logged : LoggedRound daemon daemon.broadcasts store timed next notes reaction)
    (offers : MyServer.Offers config store) :
    Announces timed.outcome reaction.sent (notes.filterMap Note.announced) := by
  cases logged with
  | refused => exact .nothing rfl
  | silent _ report =>
      rw [report.announced]
      exact .nothing rfl
  | @answered packet next notes reply decoded report =>
      rcases composed_of_handled offers (report.handled offers.valid) with ⟨composed, request⟩
      have same : (Datagram.dst ∘ Datagram.mk (daemon.answer reply).wire) = id := rfl
      rw [report.announced]
      refine .answer ?_ ?_
      · rw [Reaction.sent_handled, delivery, List.map_map, same, List.map_id]
        rfl
      · intro datagram member
        rcases List.mem_map.mp member with ⟨dst, _, rfl⟩
        exact covers_answer composed (decoded.trans (congrArg _ request.symm)) dst _

theorem LoggedRound.ledger
    (logged : LoggedRound daemon broadcasts store timed next notes reaction)
    (valid : store.Valid) : notes.foldl Note.enter store.holder = next.holder := by
  cases logged with
  | refused => rfl
  | silent _ report => exact report.ledger valid
  | answered _ report => exact report.ledger valid

theorem LoggedRound.offers
    (logged : LoggedRound daemon broadcasts store timed next notes reaction)
    (before : MyServer.Offers config store) : MyServer.Offers config next := by
  cases logged with
  | refused => exact before
  | silent _ report => exact before.step (report.handled before.valid)
  | answered _ report => exact before.step (report.handled before.valid)

/-- Every step of a run is a round of a server of the given configuration. -/
theorem loggedRound_of_run {handled : Handled MyServer (Timed IoError) (List Note × Reaction)}
    (accepted : config.validate = .ok config)
    (loaded : MyServer.main config hasher file = .ok initial)
    (run : Run (daemon.roundLogged broadcasts) initial past state) (member : handled ∈ past) :
    MyServer.Offers config handled.before ∧ LoggedRound daemon broadcasts handled.before
      handled.input handled.after handled.output.1 handled.output.2 := by
  have start : MyServer.Offers config initial :=
    ⟨MyServer.valid_main accepted loaded, MyServer.cachedOffer_of_main accepted loaded⟩
  rcases run.of_mem member with ⟨earlier, before, stepped⟩
  have offers : MyServer.Offers config handled.before :=
    before.invariant start fun offers done =>
      (loggedRound_of_done offers.valid done).offers offers
  exact ⟨offers, loggedRound_of_done offers.valid stepped⟩

/-- The log of the daemon tells who holds which address, from the leases file on, and
announces every answer with what it is, whom it is for and where it goes. Nothing else
is sent, and what is printed changes nothing. -/
theorem audit_of_run (accepted : config.validate = .ok config)
    (loaded : MyServer.main config hasher file = .ok initial)
    (run : Run ((serveWithBroadcasts config.serverIp config.broadcasts).roundLogged
      config.broadcasts) initial past state) :
    state.holder = ledgerOf initial.holder past ∧
      ∀ handled ∈ past,
        (serveWithBroadcasts config.serverIp config.broadcasts).round handled.before
            handled.input.toArrival = .ok (handled.after, handled.output.2) ∧
          Announces handled.input.outcome handled.output.2.sent
            (handled.output.1.filterMap Note.announced) := by
  have own := broadcasts_of_config config
  generalize serveWithBroadcasts config.serverIp config.broadcasts = daemon at own run ⊢
  rw [← own] at run
  constructor
  · apply run.replay
    intro handled member
    rcases loggedRound_of_run accepted loaded run member with ⟨offers, logged⟩
    exact logged.ledger offers.valid
  · intro handled member
    rcases loggedRound_of_run accepted loaded run member with ⟨offers, logged⟩
    exact ⟨logged.round offers.valid, logged.announces offers⟩

/-- A client that asks for an address, at a time of day. -/
def atNoon (mac : Mac) (ip : Ipv4Addr) : Timed String where
  toArrival := fromClient (MyServer.requestFor mac ip).wire
  secs := 1700000000

set_option maxRecDepth 10000 in
/-- A client gets an address, and the log tells so. -/
theorem audit_of_run_request : ∃ session,
    simulate ((serveWithBroadcasts MyServer.twoLeases.serverIp
        MyServer.twoLeases.broadcasts).roundLogged MyServer.twoLeases.broadcasts)
        (MyServer.main MyServer.twoLeases Hasher.newestFirst none)
        [atNoon #v[2, 0, 0, 0, 7, 8] (.new 192 168 2 2)] = .ok session ∧
      session.state.holder (.new 192 168 2 2) = some #v[2, 0, 0, 0, 7, 8] ∧
      session.state.holder = ledgerOf session.initial.holder session.past := by
  have computed : Checked.passes (simulate ((serveWithBroadcasts MyServer.twoLeases.serverIp
      MyServer.twoLeases.broadcasts).roundLogged MyServer.twoLeases.broadcasts)
      (MyServer.main MyServer.twoLeases Hasher.newestFirst none)
      [atNoon #v[2, 0, 0, 0, 7, 8] (.new 192 168 2 2)])
      (fun session => session.state.holder (.new 192 168 2 2) = some #v[2, 0, 0, 0, 7, 8]) =
        true := by
    decide
  rcases Checked.exists_of_passes computed with ⟨session, simulated, granted⟩
  rcases Run.of_simulate simulated with ⟨loaded, run⟩
  exact ⟨session, simulated, of_decide_eq_true granted, (audit_of_run rfl loaded run).1⟩

theorem LoggedRound.correct
    (logged : LoggedRound daemon broadcasts store timed next notes reaction)
    (valid : store.Valid) : ∀ note ∈ notes, note.Correct store timed.now ∧
      (timed.received.drop 28).take 6 = note.mac.toList := by
  have sender : ∀ {packet} {note : Note}, Packet.fromBytes timed.received = .ok packet →
      note.mac = packet.chaddr → (timed.received.drop 28).take 6 = note.mac.toList := by
    intro packet note decoded same
    rw [same]
    exact (decoded_of_accepted decoded).header.chaddr
  intro note listed
  cases logged with
  | refused => cases listed
  | silent decoded report =>
      exact ⟨report.correct valid note listed, sender decoded (report.mac_eq note listed)⟩
  | answered decoded report =>
      exact ⟨report.correct valid note listed, sender decoded (report.mac_eq note listed)⟩

/-- What the log gives as a reason is one: a lease that is called an existing one is
there, a new one is of a free address, a refused address is somebody else's or none of
the pool, and an exhausted pool has an entry in use at each of its addresses. -/
theorem correct_of_run (accepted : config.validate = .ok config)
    (loaded : MyServer.main config hasher file = .ok initial)
    (run : Run (daemon.roundLogged broadcasts) initial past state) :
    ∀ handled ∈ past, ∀ note ∈ handled.output.1,
      note.Correct handled.before handled.input.now ∧
        (handled.input.received.drop 28).take 6 = note.mac.toList := by
  intro handled member
  rcases loggedRound_of_run accepted loaded run member with ⟨offers, logged⟩
  exact logged.correct offers.valid

set_option maxRecDepth 10000 in
/-- A client asks for an address outside the pool. -/
theorem correct_of_run_outside : ∃ session,
    simulate ((serveWithBroadcasts (.new 192 168 2 1) []).roundLogged [])
        (MyServer.main MyServer.twoLeases Hasher.newestFirst none)
        [atNoon #v[2, 0, 0, 0, 7, 8] (.new 10 0 0 9)] = .ok session ∧
      ∃ handled ∈ session.past, ∃ note ∈ handled.output.1,
        note = .refused #v[2, 0, 0, 0, 7, 8] 0 (.new 10 0 0 9) [] false ∧
          note.Correct handled.before handled.input.now := by
  have computed : Checked.passes (simulate ((serveWithBroadcasts (.new 192 168 2 1) []).roundLogged
      []) (MyServer.main MyServer.twoLeases Hasher.newestFirst none)
      [atNoon #v[2, 0, 0, 0, 7, 8] (.new 10 0 0 9)])
      (fun session => session.past.any fun handled =>
        .refused #v[2, 0, 0, 0, 7, 8] 0 (.new 10 0 0 9) [] false ∈ handled.output.1) = true := by
    decide
  rcases Checked.exists_of_passes computed with ⟨session, simulated, told⟩
  rcases Run.of_simulate simulated with ⟨loaded, run⟩
  rcases List.any_eq_true.mp told with ⟨handled, member, listed⟩
  exact ⟨session, simulated, handled, member, _, of_decide_eq_true listed, rfl,
    (correct_of_run rfl loaded run handled member _ (of_decide_eq_true listed)).1⟩

end Daemon

end RustyDhcp
