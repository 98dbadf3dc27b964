import RustyDhcp.Server.PlainServer
import RustyDhcp.Server.Reservations

/-! # The DHCPv4 server refines the one with a plain map

As long as the leases file names no client twice, nothing that the server
answers tells how it stores its leases, or that it keeps hints. -/

namespace RustyDhcp

namespace PlainServer

variable {server : Server} {spec : PlainServer} {incoming : Incoming}

theorem handleRequest_of_refused
    (notDiscover : incoming.packet.messageType ≠ .ok .discover)
    (notRequest : incoming.packet.messageType ≠ .ok .request)
    (refused : server.accepts incoming.packet = false) :
    spec.handleRequest server incoming = (spec, none) := by
  rw [Server.accepts] at refused
  rw [handleRequest]
  split
  · exact absurd (by assumption) notDiscover
  · exact absurd (by assumption) notRequest
  · rename_i kind
    rw [kind] at refused
    rw [release, show server.forThisServer incoming.packet = false by simpa using refused]
    rfl
  · rename_i kind
    rw [kind] at refused
    rw [release, show server.forThisServer incoming.packet = false by simpa using refused]
    rfl
  · rfl

theorem handleRequest_of_accepts (accepted : server.accepts incoming.packet = true) :
    spec.handleRequest server incoming = spec.release incoming.packet.chaddr true := by
  rw [Server.accepts, Bool.and_eq_true, Bool.or_eq_true, decide_eq_true_eq,
    decide_eq_true_eq] at accepted
  rcases accepted with ⟨kind | kind, forThis⟩
  · simp only [handleRequest, kind, forThis]
  · simp only [handleRequest, kind, forThis]

end PlainServer

namespace MyServer

/-- The store represents the map. -/
structure Represents (store : MyServer) (spec : PlainServer) : Prop where
  valid : store.Valid
  single : store.leases.SingleHolding
  entry : ∀ addr, store.entry addr = spec.leases.get? addr
  lastLease : store.lastLease.toNat = spec.lastLease
  leaseDuration : store.leaseDuration = spec.leaseDuration
  ipStart : store.ipStartNum.toNat = spec.ipStart
  leaseNum : store.leaseNum.toNat = spec.leaseNum
  enableRapidCommit : store.enableRapidCommit = spec.enableRapidCommit

variable {server : Server} {store next : MyServer} {spec : PlainServer}
variable {packet : Packet} {now : Instant} {addr : Ipv4Addr} {mac : Mac}
variable {incoming : Incoming} {reply : Option Reply}

theorem Valid.tableSingleHolding (single : store.leases.SingleHolding) :
    store.table.SingleHolding store.layout := by
  intro left right owner leftHeld rightHeld
  exact single (leases_heldBy_iff.mpr leftHeld) (leases_heldBy_iff.mpr rightHeld)

namespace Represents

/-! ## Reads -/

theorem address (represents : Represents store spec) (offset : Nat) :
    store.address offset = spec.address offset := by
  have bits : (store.address offset).bits = (spec.address offset).bits := by
    apply BitVec.eq_of_toNat_eq
    rw [MyServer.address, PlainServer.address, BitVec.toNat_add, BitVec.toNat_ofNat,
      BitVec.toNat_ofNat, Nat.add_mod_mod, represents.ipStart]
  exact congrArg Ipv4Addr.mk bits

theorem available (represents : Represents store spec) (mac : Mac) (addr : Ipv4Addr)
    (now : Instant) : store.available mac addr now = spec.available mac addr now := by
  have inside : store.inPool addr =
      (decide (spec.ipStart ≤ addr.bits.toNat) &&
        decide (addr.bits.toNat < spec.ipStart + spec.leaseNum)) := by
    rw [Bool.eq_iff_iff, inPool_iff, represents.ipStart, represents.leaseNum]
    simp
  rw [MyServer.available, PlainServer.available, inside, represents.entry]
  cases spec.leases.get? addr <;> rfl

theorem current (represents : Represents store spec) (mac : Mac) :
    store.current mac = spec.currentLease mac := by
  have holds : ∀ addr, store.HeldBy addr mac ↔
      ∃ entry, spec.leases.get? addr = some entry ∧ entry.mac = mac := by
    intro addr
    rw [← represents.entry]
    exact Iff.rfl
  apply Option.ext
  intro addr
  have held : store.current mac = some addr ↔ store.HeldBy addr mac :=
    SlotTable.current_eq_some_iff represents.valid.table
      (Valid.tableSingleHolding represents.single)
  rw [held]
  constructor
  · intro holder
    cases found : spec.currentLease mac with
    | none =>
        rcases (holds addr).mp holder with ⟨entry, read, owner⟩
        have fails := HashMap.findKey?_eq_none_iff.mp found addr entry read
        simp [owner] at fails
    | some other =>
        rcases HashMap.findKey?_some found with ⟨entry, read, owner⟩
        have otherHeld : store.HeldBy other mac :=
          (holds other).mpr ⟨entry, read, by simpa using owner⟩
        rw [represents.single (leases_heldBy_iff.mpr otherHeld)
          (leases_heldBy_iff.mpr holder)]
  · intro found
    rcases HashMap.findKey?_some found with ⟨entry, read, owner⟩
    exact (holds addr).mpr ⟨entry, read, by simpa using owner⟩

theorem current_none (represents : Represents store spec)
    (nothing : ∀ held, ¬store.HeldBy held mac) : spec.currentLease mac = none := by
  rw [← represents.current]
  exact (current_eq_none_iff represents.valid).mpr nothing

theorem accepts (represents : Represents store spec) (mac : Mac) (now : Instant) :
    (fun offset => store.available mac (store.address offset) now) =
      fun offset => spec.available mac (spec.address offset) now := by
  funext offset
  rw [represents.address, represents.available]

theorem rapid (represents : Represents store spec) (packet : Packet) :
    store.rapid packet =
      (spec.enableRapidCommit && (packet.option Options.rapidCommit).isSome) := by
  rw [MyServer.rapid, represents.enableRapidCommit]

/-- The first free address of the store is what the plain server finds. -/
theorem nextFree_found {offset : Nat} (represents : Represents store spec)
    (first : store.FirstFree mac now offset) :
    spec.nextFree mac now = ({ spec with lastLease := offset }, some (spec.address offset)) := by
  rw [FirstFree, represents.accepts, represents.leaseNum, represents.lastLease] at first
  rw [PlainServer.nextFree, RoundRobin.scan_of_isFirst first]
  rfl

theorem nextFree_exhausted (represents : Represents store spec)
    (full : ∀ addr, store.available mac addr now = false) :
    spec.nextFree mac now = (spec, none) := by
  have cursor : spec.lastLease < spec.leaseNum ∨ spec.leaseNum = 0 := by
    rw [← represents.leaseNum, ← represents.lastLease]
    exact represents.valid.cursor
  have rejected : ∀ offset, offset < spec.leaseNum →
      spec.available mac (spec.address offset) now = false := by
    intro offset _
    rw [← represents.available, full]
  rw [PlainServer.nextFree, RoundRobin.scan_of_rejected cursor rejected]
  rfl

/-! ## Writes -/

/-- A store with another table represents the map that has the same entries. -/
theorem write {table : SlotTable Ipv4Addr Mac Entry} {leases : HashMap Ipv4Addr Entry}
    (represents : Represents store spec) (valid : next.Valid)
    (written : next = store.withTable table) (single : next.leases.SingleHolding)
    (entry : ∀ addr, next.entry addr = leases.get? addr) :
    Represents next { spec with leases := leases } := by
  subst written
  exact ⟨valid, single, entry, represents.lastLease, represents.leaseDuration,
    represents.ipStart, represents.leaseNum, represents.enableRapidCommit⟩

theorem atOffset {offset : Nat} (represents : Represents store spec)
    (bound : offset < store.leaseNum.toNat) :
    Represents (store.atOffset offset) { spec with lastLease := offset } where
  valid := represents.valid.atOffset bound
  single := represents.single
  entry := represents.entry
  lastLease := atOffset_toNat bound
  leaseDuration := represents.leaseDuration
  ipStart := represents.ipStart
  leaseNum := represents.leaseNum
  enableRapidCommit := represents.enableRapidCommit

theorem renamed (represents : Represents store spec) (held : store.HeldBy addr mac)
    (hostname : Option Text) :
    Represents (store.renamed addr hostname) (spec.rememberHostname addr hostname) := by
  cases hostname with
  | none => exact represents
  | some name =>
      apply represents.write (valid_renamed represents.valid (some name)) rfl
      · rw [leases_renamed held]
        exact represents.single
      · intro other
        have read : (store.renamed addr (some name)).entry other =
            if other = addr then (store.entry other).map (Entry.rename name)
            else store.entry other := SlotTable.lookup_amend (Entry.rename name)
        rw [read, HashMap.get?_modify, represents.entry]
        rfl

theorem leased (represents : Represents store spec)
    (nothing : ∀ held, ¬store.HeldBy held packet.chaddr) :
    Represents (store.leased addr packet now) (spec.lease addr packet now) := by
  apply represents.write (valid_leased represents.valid) rfl
  · rw [leases_leased represents.valid]
    apply represents.single.update
    intro new given
    cases given
    exact not_heldBy_leases nothing
  · intro other
    rw [entry_leased represents.valid, Function.update_apply, HashMap.get?_insert,
      represents.entry, represents.leaseDuration]

theorem released (represents : Represents store spec) (held : store.HeldBy addr mac) :
    Represents (store.released mac addr) { spec with leases := spec.leases.remove addr } := by
  apply represents.write (valid_released represents.valid held) rfl
  · rw [leases_released represents.valid]
    apply represents.single.update
    intro new given
    cases given
  · intro other
    rw [entry_released represents.valid, Function.update_apply, HashMap.get?_remove,
      represents.entry]

/-! ## Packets -/

/-- The store answers a packet as the plain server does, and goes on
representing it. -/
theorem step (represents : Represents store spec)
    (effect : Effect server store incoming.packet incoming.now next reply) :
    Represents next (spec.handleRequest server incoming).1 ∧
      (spec.handleRequest server incoming).2 =
        reply.map fun reply => (reply.msgType, reply.yiaddr) := by
  have sameRapid := represents.rapid incoming.packet
  cases effect with
  | ignored notDiscover notRequest refused =>
      rw [PlainServer.handleRequest_of_refused notDiscover notRequest refused]
      exact ⟨represents, rfl⟩
  | heldOffered kind rapid current =>
      have held := heldBy_of_current represents.valid current
      rw [represents.current] at current
      rw [rapid] at sameRapid
      simp only [PlainServer.handleRequest, kind, PlainServer.discover, ← sameRapid, current]
      exact ⟨represents.renamed held _, rfl⟩
  | freeOffered kind rapid nothing first =>
      rw [rapid] at sameRapid
      simp only [PlainServer.handleRequest, kind, PlainServer.discover, ← sameRapid,
        represents.current_none nothing, represents.nextFree_found first]
      exact ⟨represents.atOffset first.lt, by rw [← represents.address]; rfl⟩
  | exhausted kind nothing full =>
      simp only [PlainServer.handleRequest, kind, PlainServer.discover,
        represents.current_none nothing, represents.nextFree_exhausted full, ite_self]
      exact ⟨represents, rfl⟩
  | heldAcked kind current =>
      have held := heldBy_of_current represents.valid current
      rw [represents.current] at current
      rcases kind with kind | ⟨kind, rapid⟩
      · simp only [PlainServer.handleRequest, kind, PlainServer.request, current]
        exact ⟨represents.renamed held _, rfl⟩
      · rw [rapid] at sameRapid
        simp only [PlainServer.handleRequest, kind, PlainServer.discover, ← sameRapid, current]
        exact ⟨represents.renamed held _, rfl⟩
  | freeAcked kind rapid nothing first =>
      rw [rapid] at sameRapid
      simp only [PlainServer.handleRequest, kind, PlainServer.discover, ← sameRapid,
        represents.current_none nothing, represents.nextFree_found first]
      have moved := represents.atOffset first.lt
      rw [← represents.address]
      exact ⟨moved.leased nothing, rfl⟩
  | requestAcked kind nothing available =>
      rw [represents.available] at available
      simp only [PlainServer.handleRequest, kind, PlainServer.request,
        represents.current_none nothing, available, if_true]
      exact ⟨represents.leased nothing, rfl⟩
  | requestRefused kind nothing refused =>
      rw [represents.available] at refused
      simp only [PlainServer.handleRequest, kind, PlainServer.request,
        represents.current_none nothing, refused]
      exact ⟨represents, rfl⟩
  | leaseReleased accepted current =>
      have held := heldBy_of_current represents.valid current
      rw [represents.current] at current
      simp only [PlainServer.handleRequest_of_accepts accepted, PlainServer.release, current,
        if_true]
      exact ⟨represents.released held, rfl⟩
  | nothingReleased accepted nothing =>
      simp only [PlainServer.handleRequest_of_accepts accepted, PlainServer.release,
        represents.current_none nothing, if_true]
      exact ⟨represents, rfl⟩

theorem stored_perm (represents : Represents store spec) :
    store.stored.Perm spec.leases.entries := by
  have listed : store.stored = store.table.entries store.layout := rfl
  rw [listed]
  apply (List.perm_ext_iff_of_nodup (SlotTable.entries_nodup represents.valid.table)
    (List.Nodup.of_map Prod.fst spec.leases.keys_nodup)).mpr
  intro lease
  rw [SlotTable.mem_entries_iff represents.valid.table, ← HashMap.get?_eq_some_iff,
    ← represents.entry]
  rfl

theorem seen (represents : Represents store spec) (reply : Option Reply) :
    store.seen reply = spec.seen (reply.map fun reply => (reply.msgType, reply.yiaddr)) := by
  rw [MyServer.seen, PlainServer.seen, represents.lastLease,
    Multiset.coe_eq_coe.mpr represents.stored_perm]

/-- Whatever packets come, the store is seen to do what the plain server does. -/
theorem observe (represents : Represents store spec) (server : Server)
    (incomings : List Incoming) :
    store.observe server incomings = .ok (spec.observe server incomings) := by
  induction incomings generalizing store spec with
  | nil => rfl
  | cons incoming incomings induction =>
      rcases handleRequest_effect represents.valid server incoming with
        ⟨next, reply, handled, effect⟩
      rcases represents.step effect with ⟨after, answered⟩
      simp only [MyServer.observe, PlainServer.observe, handled, Checked.bind_ok,
        induction after, after.seen, answered]
      rfl

end Represents

/-! ## Whole runs -/

/-- Loading writes the table and nothing else: the entry of every line, in
order. -/
theorem loadLeases_stores {lines : List (Option Text)} {leases : HashMap Ipv4Addr Entry}
    (valid : store.Valid) (loaded : store.loadLeases lines = .ok next)
    (entries : ∀ addr, store.entry addr = leases.get? addr) :
    (∃ table, next = store.withTable table) ∧
      ∀ addr, next.entry addr = ((reservations (some lines)).foldl
        (fun leases line => leases.insert line.2 ⟨line.1, none, none⟩) leases).get? addr := by
  induction lines generalizing store leases with
  | nil =>
      cases loaded
      exact ⟨⟨next.table, rfl⟩, entries⟩
  | cons line lines induction =>
      rcases Checked.bind_eq_ok_iff.mp loaded with ⟨middle, first, rest⟩
      rcases loadLine_cases valid first with ⟨skipped, rfl⟩ | ⟨mac, ip, read, rfl⟩
      · have same : reservations (some (line :: lines)) = reservations (some lines) :=
          List.filterMap_cons_none skipped
        rw [same]
        exact induction valid rest entries
      · have split : reservations (some (line :: lines)) =
            (mac, ip) :: reservations (some lines) := List.filterMap_cons_some read
        have inserted : ∀ addr, (store.withTable
            (store.table.insert store.layout ip ⟨mac, none, none⟩)).entry addr =
              (leases.insert ip ⟨mac, none, none⟩).get? addr := by
          intro addr
          rw [HashMap.get?_insert, ← entries]
          exact SlotTable.lookup_insert valid.table
        rcases induction (valid_inserted valid) rest inserted with ⟨⟨table, written⟩, stores⟩
        rw [split]
        exact ⟨⟨table, written⟩, stores⟩

/-- The loaded store represents the map with the reservations of its file. -/
theorem represents_start {useSlots : Bool} {config : Config}
    {hasher order : Hasher Ipv4Addr Entry} {file : LeasesFile} {initial : MyServer}
    (accepted : config.validate = .ok config)
    (started : start useSlots config hasher file = .ok initial)
    (macs : ((reservations file).map Prod.fst).Nodup) :
    Represents initial (.start config order (reservations file)) := by
  have valid := valid_start accepted started
  have single := singleHolding_start accepted started macs
  have empty : ∀ addr, (withStorage useSlots config hasher).entry addr =
      (HashMap.new order).get? addr := by
    intro addr
    rw [entry_withStorage, HashMap.get?_new]
  cases file with
  | none =>
      cases started
      exact ⟨valid, single, empty, rfl, rfl, rfl, rfl, rfl⟩
  | some lines =>
      rcases loadLeases_stores (valid_withStorage accepted useSlots hasher) started empty with
        ⟨⟨table, rfl⟩, stores⟩
      exact ⟨valid, single, stores, rfl, rfl, rfl, rfl, rfl⟩

/-- Nobody who sends packets to the server, and looks at its leases and its
cursor, can tell it from the plain one, so neither how it stores its leases nor
that it keeps hints. -/
theorem observe_eq_plainServer {useSlots : Bool} {config : Config}
    {hasher : Hasher Ipv4Addr Entry} {file : LeasesFile} {initial : MyServer}
    (accepted : config.validate = .ok config)
    (started : start useSlots config hasher file = .ok initial)
    (macs : ((reservations file).map Prod.fst).Nodup) (order : Hasher Ipv4Addr Entry)
    (server : Server) (incomings : List Incoming) :
    initial.seen none = (PlainServer.start config order (reservations file)).seen none ∧
      initial.observe server incomings =
        .ok ((PlainServer.start config order (reservations file)).observe server
          incomings) := by
  have represents : Represents initial (.start config order (reservations file)) :=
    represents_start accepted started macs
  exact ⟨represents.seen none, represents.observe server incomings⟩

/-- A client gets an address, another one is refused it, and the first one
comes back and releases it. -/
def fourPackets : List Incoming :=
  [⟨.ofClient #v[1, 2, 3, 4, 5, 7] [.dhcpMessageType .discover], 5⟩,
    ⟨requestFor #v[1, 2, 3, 4, 5, 7] (.new 192 168 2 2), 6⟩,
    ⟨requestFor #v[1, 2, 3, 4, 5, 9] (.new 192 168 2 2), 7⟩,
    ⟨.ofClient #v[1, 2, 3, 4, 5, 7]
      [.dhcpMessageType .release, .serverIdentifier (.new 192 168 2 1)], 8⟩]

/-- Four packets to a server with a reservation, with slots and without. -/
theorem observe_eq_plainServer_four :
    (∃ initial, start true twoLeases Hasher.newestFirst oneReservation = .ok initial ∧
      initial.observe ⟨.new 192 168 2 1⟩ fourPackets =
        .ok ((PlainServer.start twoLeases Hasher.newestFirst
          (reservations oneReservation)).observe ⟨.new 192 168 2 1⟩ fourPackets)) ∧
    ∃ initial, start false twoLeases Hasher.newestFirst oneReservation = .ok initial ∧
      initial.observe ⟨.new 192 168 2 1⟩ fourPackets =
        .ok ((PlainServer.start twoLeases Hasher.newestFirst
          (reservations oneReservation)).observe ⟨.new 192 168 2 1⟩ fourPackets) := by
  have starts : ∀ useSlots, Checked.passes (start useSlots twoLeases Hasher.newestFirst
      oneReservation) (fun _ => true) = true := by decide
  rcases Checked.exists_of_passes (starts true) with ⟨slotted, slottedStart, _⟩
  rcases Checked.exists_of_passes (starts false) with ⟨hashed, hashedStart, _⟩
  exact ⟨⟨slotted, slottedStart,
      (observe_eq_plainServer rfl slottedStart (by decide) _ _ _).2⟩,
    hashed, hashedStart, (observe_eq_plainServer rfl hashedStart (by decide) _ _ _).2⟩

end MyServer

end RustyDhcp
