import RustyDhcp.Dhcpv6.AuditTrail

/-! # What the DHCPv6 log says of the answers

A line names the client whose packet it is about, announces what is sent to it, and
gives a reason that is one. -/

namespace RustyDhcp.Dhcpv6

/-- An answer that a note announces. There is no address in one that refuses. -/
structure Announcement where
  msgType : MsgType
  duid : Duid
  tid : U32
  ip : Option Ipv6Addr
deriving DecidableEq

/-- The packet is the answer that was announced. -/
structure Announcement.Says (announced : Announcement) (packet : Packet) : Prop where
  msgType : packet.msgType = announced.msgType
  client : packet.clientDuid = some announced.duid
  tid : packet.transactionId = announced.tid
  addresses : packet.iaAddrs.map IaAddr.addr = announced.ip.toList

namespace Note

def announced : Note → Option Announcement
  | committed duid tid ip => some ⟨.reply, duid, tid, some ip⟩
  | advertised duid tid ip => some ⟨.advertise, duid, tid, some ip⟩
  | exhausted duid tid rapid _ _ =>
      some ⟨if rapid then .reply else .advertise, duid, tid, none⟩
  | replied _ duid tid _ ip => some ⟨.reply, duid, tid, some ip⟩
  | refused _ duid tid _ => some ⟨.reply, duid, tid, none⟩
  | _ => none

def tid : Note → U32
  | anonymous tid => tid
  | solicit _ tid _ _ | committed _ tid _ | advertised _ tid _ | exhausted _ tid _ _ _ => tid
  | incomplete _ _ tid | replied _ _ tid _ _ | refused _ _ tid _ => tid
  | freed _ _ tid | noLease _ _ tid | ignored _ _ tid => tid
  | unsupported _ tid => tid

/-- Whom a note is about, if it names somebody. -/
def client : Note → Option Duid
  | anonymous _ | unsupported _ _ => none
  | solicit duid _ _ _ | committed duid _ _ | advertised duid _ _ => some duid
  | exhausted duid _ _ _ _ | incomplete _ duid _ | replied _ duid _ _ _ => some duid
  | refused _ duid _ _ | freed _ duid _ | noLease _ duid _ | ignored _ duid _ => some duid

/-- Somebody else has a lease of the address that has not run out. -/
def InUse (pool : V6Pool) (duid : Duid) (ip : Ipv6Addr) (now : Instant) : Prop :=
  ∃ entry, pool.entry ip = some entry ∧ entry.duid ≠ duid ∧
    ∀ limit, entry.expiry = some limit → now ≤ limit

/-- The client has a lease of the address, or it has none and the address is free. -/
def Leasable (pool : V6Pool) (duid : Duid) (ip : Ipv6Addr) (now : Instant) : Prop :=
  pool.HeldBy ip duid ∨ (∀ held, ¬pool.HeldBy held duid) ∧ pool.inRange ip = true ∧
    ∀ old, pool.entry ip = some old →
      old.duid ≠ duid ∧ ∃ limit, old.expiry = some limit ∧ limit < now

/-- What a note says about the leases, in the state in which the packet was served. -/
def Correct (config : Config) (pool : V6Pool) (arrival : Arrival IoError) : Note → Prop
  | committed duid _ ip => Leasable pool duid ip arrival.discovered
  | advertised duid _ ip => Leasable pool duid ip arrival.discovered
  | replied _ duid _ _ ip => Leasable pool duid ip arrival.requested
  | exhausted duid _ _ used total =>
      (∀ held, ¬pool.HeldBy held duid) ∧ total = config.ipv6LeaseNum.toNat ∧ total ≤ used ∧
        ∀ ip, pool.inRange ip = true → InUse pool duid ip arrival.discovered
  | refused _ duid _ want =>
      (∀ held, ¬pool.HeldBy held duid) ∧
        (pool.inRange want = true → InUse pool duid want arrival.requested)
  | freed _ duid _ => ∃ ip, pool.HeldBy ip duid
  | noLease _ duid _ => ∀ held, ¬pool.HeldBy held duid
  | _ => True

end Note

variable {config : Config} {pool next initial state : V6Pool} {received : Received}
variable {IoError : Type} {arrival : Arrival IoError} {notes : List Note} {sent : Option Sent}
variable {duid : Duid} {ip : Ipv6Addr} {now : Instant} {reaction : Reaction} {packet : Packet}

theorem only_of {Holds : Note → Prop} {note : Note} (holds : Holds note) :
    ∀ other ∈ [note], Holds other :=
  List.forall_mem_singleton.mpr holds

theorem both_of {Holds : Note → Prop} {first last : Note} (one : Holds first)
    (two : Holds last) : ∀ note ∈ [first, last], Holds note :=
  List.forall_mem_cons.mpr ⟨one, only_of two⟩

/-! ## Announcements -/

theorem says_success (msgType : MsgType) : Announcement.Says
    ⟨msgType, duid, received.packet.transactionId, some ip⟩
    (success config duid received msgType ip).packet := by
  refine ⟨rfl, rfl, rfl, ?_⟩
  rw [iaAddrs_success]
  rfl

theorem says_failure (msgType : MsgType) : Announcement.Says
    ⟨msgType, duid, received.packet.transactionId, none⟩
    (failure config duid received msgType).packet :=
  ⟨rfl, rfl, rfl, rfl⟩

/-- What the notes of a round announce is what is sent to where the datagram came from:
nothing, or one answer, unless that is too large for the encoder or the socket does not
send it. -/
inductive Declares (arrival : Arrival IoError) : List Announcement → Reaction → Prop
  | nothing {reaction : Reaction} : reaction.sent = [] → Declares arrival [] reaction
  | answer {announced : Announcement} {packet : Packet} :
      announced.Says packet →
      Declares arrival [announced]
        (.handled (Sent.datagram arrival.outcome ⟨arrival.src, packet⟩))

theorem Report.declares (report : Report config pool (arrival.carrying packet) next notes sent) :
    Declares arrival (notes.filterMap Note.announced)
      (.handled (sent.bind (Sent.datagram arrival.outcome))) := by
  cases report with
  | heldCommitted => exact .answer (says_success .reply)
  | freeCommitted => exact .answer (says_success .reply)
  | heldAdvertised => exact .answer (says_success .advertise)
  | freeAdvertised => exact .answer (says_success .advertise)
  | exhausted => exact .answer (says_failure _)
  | heldReplied => exact .answer (says_success .reply)
  | freeReplied => exact .answer (says_success .reply)
  | refused => exact .answer (says_failure .reply)
  | _ => exact .nothing rfl

theorem LoggedRound.declares (logged : LoggedRound config pool arrival next notes reaction) :
    Declares arrival (notes.filterMap Note.announced) reaction := by
  cases logged with
  | malformed => exact .nothing rfl
  | served _ _ report => exact report.declares

/-! ## Names -/

/-- A note is about the packet and its sender. -/
def Note.Names (note : Note) (packet : Packet) : Prop :=
  note.tid = packet.transactionId ∧
    ∀ duid, note.client = some duid → packet.clientDuid = some duid

theorem Report.names (report : Report config pool received next notes sent) :
    ∀ note ∈ notes, note.Names received.packet := by
  have about : ∀ {note : Note} {owner : Duid}, received.packet.clientDuid = some owner →
      note.tid = received.packet.transactionId → note.client = some owner →
      note.Names received.packet := by
    intro note owner client tid named
    refine ⟨tid, ?_⟩
    intro duid same
    rw [client, ← named, same]
  have nobody : ∀ {note : Note}, note.tid = received.packet.transactionId →
      note.client = none → note.Names received.packet := by
    intro note tid unnamed
    refine ⟨tid, ?_⟩
    intro duid same
    rw [unnamed] at same
    cases same
  cases report with
  | anonymous => exact only_of (nobody rfl rfl)
  | unsupported => exact only_of (nobody rfl rfl)
  | heldCommitted client => exact both_of (about client rfl rfl) (about client rfl rfl)
  | freeCommitted client => exact both_of (about client rfl rfl) (about client rfl rfl)
  | heldAdvertised client => exact both_of (about client rfl rfl) (about client rfl rfl)
  | freeAdvertised client => exact both_of (about client rfl rfl) (about client rfl rfl)
  | exhausted client => exact both_of (about client rfl rfl) (about client rfl rfl)
  | incomplete client => exact only_of (about client rfl rfl)
  | heldReplied client => exact only_of (about client rfl rfl)
  | freeReplied client => exact only_of (about client rfl rfl)
  | refused client => exact only_of (about client rfl rfl)
  | freed client => exact only_of (about client rfl rfl)
  | nothingFreed client => exact only_of (about client rfl rfl)
  | ignored client => exact only_of (about client rfl rfl)

/-! ## Reasons -/

namespace V6Pool

theorem inUse_of_taken (inside : pool.inRange ip = true)
    (taken : pool.available duid ip now = false) : Note.InUse pool duid ip now := by
  have refused := mt available_iff.mpr (Bool.not_eq_true _ ▸ taken)
  simp only [inside, true_and, not_forall] at refused
  rcases refused with ⟨entry, found, blocked⟩
  rw [not_or] at blocked
  refine ⟨entry, found, blocked.1, ?_⟩
  intro limit expires
  by_contra late
  exact blocked.2 ⟨limit, expires, Nat.not_le.mp late⟩

theorem nodup_addresses (valid : pool.Valid) (ends : pool.rangeEnd.isSome = true) :
    pool.addresses.Nodup ∧ ∀ addr ∈ pool.addresses, pool.inRange addr = true := by
  rcases Option.isSome_iff_exists.mp ends with ⟨limit, found⟩
  have sum := valid.rangeEnd_toNat found
  have bound := limit.isLt
  constructor
  · refine List.nodup_range.map_on ?_
    intro first inside second alsoInside same
    rw [List.mem_range] at inside alsoInside
    have sums : (pool.address first).bits.toNat = (pool.address second).bits.toNat :=
      congrArg (fun addr => addr.bits.toNat) same
    rw [address_toNat (by omega), address_toNat (by omega)] at sums
    omega
  · intro addr member
    rcases List.mem_map.mp member with ⟨offset, inside, rfl⟩
    rw [List.mem_range] at inside
    rw [valid.inRange_iff, address_toNat (by omega)]
    exact ⟨ends, by omega, by omega⟩

/-- Where every address of the pool is in use, there are at least as many leases as
addresses. -/
theorem count_le_of_full (valid : pool.Valid) (ends : pool.rangeEnd.isSome = true)
    (full : ∀ ip, pool.inRange ip = true → Note.InUse pool duid ip now) :
    pool.count.toNat ≤ pool.len := by
  rcases nodup_addresses valid ends with ⟨once, inside⟩
  have found : ∀ ip ∈ pool.addresses, (pool.table.lookup pool.layout ip).isSome := by
    intro ip member
    rcases full ip (inside ip member) with ⟨entry, found, _⟩
    exact Option.isSome_iff_exists.mpr ⟨entry, found⟩
  have bound := SlotTable.length_le_filled_add_size valid.table once found
  rwa [addresses, List.length_map, List.length_range] at bound

theorem leasable_of_current (valid : pool.Valid) (current : pool.current duid = some ip) :
    Note.Leasable pool duid ip now :=
  .inl (heldBy_of_current valid current)

theorem leasable_of_available (valid : pool.Valid) (missing : pool.current duid = none)
    (free : pool.available duid ip now = true) : Note.Leasable pool duid ip now := by
  have nothing := (current_eq_none_iff valid).mp missing
  exact .inr ⟨nothing, foreign_of_available nothing free⟩

end V6Pool

/-- No note says anything wrong about the leases. -/
theorem Report.correct (report : Report config pool (arrival.carrying packet) next notes sent)
    (valid : pool.Valid) (ends : pool.rangeEnd.isSome = true)
    (count : pool.count = config.ipv6LeaseNum) :
    ∀ note ∈ notes, note.Correct config pool arrival := by
  cases report with
  | anonymous => exact only_of trivial
  | unsupported => exact only_of trivial
  | incomplete => exact only_of trivial
  | ignored => exact only_of trivial
  | heldCommitted _ _ _ current => exact both_of trivial (V6Pool.leasable_of_current valid current)
  | heldAdvertised _ _ _ current => exact both_of trivial (V6Pool.leasable_of_current valid current)
  | heldReplied _ _ _ current => exact only_of (V6Pool.leasable_of_current valid current)
  | freeCommitted _ _ _ missing first =>
      exact both_of trivial (V6Pool.leasable_of_available valid missing first.available)
  | freeAdvertised _ _ _ missing first =>
      exact both_of trivial (V6Pool.leasable_of_available valid missing first.available)
  | freeReplied _ _ _ missing free =>
      exact only_of (V6Pool.leasable_of_available valid missing free)
  | exhausted _ _ missing full =>
      have taken : ∀ ip, pool.inRange ip = true → Note.InUse pool _ ip arrival.discovered :=
        fun ip inside => V6Pool.inUse_of_taken inside (full ip)
      exact both_of trivial ⟨(V6Pool.current_eq_none_iff valid).mp missing,
        congrArg BitVec.toNat count, V6Pool.count_le_of_full valid ends taken, taken⟩
  | refused _ _ _ missing taken =>
      exact only_of ⟨(V6Pool.current_eq_none_iff valid).mp missing,
        fun inside => V6Pool.inUse_of_taken inside taken⟩
  | freed _ _ _ current => exact only_of ⟨_, V6Pool.heldBy_of_current valid current⟩
  | nothingFreed _ _ _ missing => exact only_of ((V6Pool.current_eq_none_iff valid).mp missing)

/-! ## The log of a run -/

/-- A pool as the configuration has it, with all its addresses in the address space. -/
structure Ready (config : Config) (pool : V6Pool) : Prop where
  serves : Serves config pool
  ends : pool.rangeEnd.isSome = true
  count : pool.count = config.ipv6LeaseNum

/-- Serving a packet does not move the ends of the pool. -/
theorem Report.bounds (report : Report config pool received next notes sent) :
    next.rangeEnd = pool.rangeEnd ∧ next.count = pool.count := by
  cases report <;> exact ⟨rfl, rfl⟩

theorem Ready.step (ready : Ready config pool)
    (logged : LoggedRound config pool arrival next notes reaction) : Ready config next := by
  have serves := (round_of_round logged.round).serves ready.serves
  cases logged with
  | malformed => exact ready
  | served _ _ report =>
      rcases report.bounds with ⟨ends, count⟩
      exact ⟨serves, ends ▸ ready.ends, count.trans ready.count⟩

theorem ready_startPool {hasher : Hasher Ipv6Addr V6Pool.Entry} {file : LeasesFile}
    (accepted : config.validate = .ok config)
    (started : startPool config hasher file = .ok initial) : Ready config initial := by
  have serves : Serves config initial := by
    rcases startPool_reserves config hasher file with ⟨_, again, serves, _⟩
    rw [started] at again
    cases again
    exact serves
  have fits : (emptyPool config hasher).rangeEnd.isSome = true := by
    have widened : (config.ipv6LeaseNum.setWidth 128).toNat = config.ipv6LeaseNum.toNat :=
      BitVec.toNat_setWidth_of_le (by omega)
    have inside := (Config.validate_eq_ok_iff.mp accepted).2.2.2
    change (checkedAdd config.ipv6StartNum (config.ipv6LeaseNum.setWidth 128)).isSome = true
    rw [Option.isSome_iff_ne_none, Ne, checkedAdd_eq_none_iff, widened]
    exact Nat.not_le.mpr inside
  have ends : initial.rangeEnd = (emptyPool config hasher).rangeEnd :=
    kept_of_startPool (fun _ _ _ => rfl) started
  have count : initial.count = (emptyPool config hasher).count :=
    kept_of_startPool (fun _ _ _ => rfl) started
  exact ⟨serves, ends ▸ fits, count⟩

theorem LoggedRound.reasons (logged : LoggedRound config pool arrival next notes reaction)
    (ready : Ready config pool) : ∀ note ∈ notes, note.Correct config pool arrival ∧
      ∃ packet, Packet.fromBytes arrival.received = .ok packet ∧ note.Names packet := by
  intro note listed
  cases logged with
  | malformed => cases listed
  | @served packet _ _ _ decoded _ report =>
      exact ⟨report.correct ready.serves.valid ready.ends ready.count note listed, packet,
        decoded, report.names note listed⟩

/-- What the log says of a datagram is true: whom it is about, what is answered, and what
the leases were like that it was answered with. -/
theorem reasons_of_run {hasher : Hasher Ipv6Addr V6Pool.Entry} {file : LeasesFile}
    {past : List (Handled V6Pool (Arrival IoError) (List Note × Reaction))}
    (accepted : config.validate = .ok config)
    (started : startPool config hasher file = .ok initial)
    (run : Run (roundLogged config) initial past state) :
    ∀ handled ∈ past,
      Declares handled.input (handled.output.1.filterMap Note.announced) handled.output.2 ∧
      ∀ note ∈ handled.output.1, note.Correct config handled.before handled.input ∧
        ∃ packet, Packet.fromBytes handled.input.received = .ok packet ∧ note.Names packet := by
  intro handled member
  rcases loggedRound_of_run (fun ready : Ready config _ => ready.serves)
    (fun ready logged => ready.step logged) (ready_startPool accepted started) run member with
    ⟨ready, logged⟩
  exact ⟨logged.declares, logged.reasons ready⟩

/-- A pool of one address. -/
def oneAddressConfig : Config := { twoAddressConfig with ipv6LeaseNum := 1 }

def oneSolicit : List (Arrival String) := [.ofPacket solicitation 0]

set_option maxRecDepth 10000 in
/-- A reservation exhausts the pool, and the log says so. -/
theorem reasons_of_run_exhausted : ∃ session,
    simulate (roundLogged oneAddressConfig)
        (startPool oneAddressConfig Hasher.newestFirst oneReservation) oneSolicit = .ok session ∧
      ∃ handled ∈ session.past, .exhausted [7, 1] 0x070102 false 1 1 ∈ handled.output.1 ∧
        Note.Correct oneAddressConfig handled.before handled.input
          (.exhausted [7, 1] 0x070102 false 1 1) := by
  have computed : Checked.passes (simulate (roundLogged oneAddressConfig)
      (startPool oneAddressConfig Hasher.newestFirst oneReservation) oneSolicit)
      (fun session => session.past.any fun handled =>
        .exhausted [7, 1] 0x070102 false 1 1 ∈ handled.output.1) = true := by
    decide
  rcases Checked.exists_of_passes computed with ⟨session, simulated, told⟩
  rcases Run.of_simulate simulated with ⟨started, run⟩
  rcases List.any_eq_true.mp told with ⟨handled, member, listed⟩
  have noted := of_decide_eq_true listed
  rcases (reasons_of_run (by decide) started run handled member).2 _ noted with ⟨correct, _⟩
  exact ⟨session, simulated, handled, member, noted, correct⟩

end RustyDhcp.Dhcpv6
