import RustyDhcp.Foundation.LeaseTable
import RustyDhcp.Server.HandleRequest
import RustyDhcp.Server.Table

/-! # What handling a packet can do

`Effect` lists the ways in which a valid store handles a packet, each with the
condition under which it is taken. Everything else about `handleRequest` is
read off this list. -/

namespace RustyDhcp

/-- A Release or Decline that this server accepts. -/
def Server.accepts (server : Server) (packet : Packet) : Bool :=
  (packet.messageType = .ok .release || packet.messageType = .ok .decline) &&
    server.forThisServer packet

namespace MyServer

def HeldBy (store : MyServer) (addr : Ipv4Addr) (mac : Mac) : Prop :=
  store.table.HeldBy store.layout addr mac

def current (store : MyServer) (mac : Mac) : Option Ipv4Addr :=
  store.table.current store.layout mac

/-- `offset` is the first one, in the cyclic order behind the cursor, whose
address is available. -/
def FirstFree (store : MyServer) (mac : Mac) (now : Instant) (offset : Nat) : Prop :=
  RoundRobin.IsFirst store.leaseNum.toNat
    (fun offset => store.available mac (store.address offset) now)
    store.leaseNum.toNat store.lastLease.toNat offset

/-- The store with a new lease. -/
def leased (store : MyServer) (addr : Ipv4Addr) (packet : Packet) (now : Instant) :
    MyServer :=
  store.withTable (store.table.insert store.layout addr
    ⟨packet.chaddr, some (now + store.leaseDuration), hostnameOf packet⟩)

/-- The store without the lease that `mac` has of `addr`. -/
def released (store : MyServer) (mac : Mac) (addr : Ipv4Addr) : MyServer :=
  store.withTable (store.table.release store.layout mac addr)

inductive Effect (server : Server) (store : MyServer) (packet : Packet) (now : Instant) :
    MyServer → Option Reply → Prop
  | ignored :
      packet.messageType ≠ .ok .discover → packet.messageType ≠ .ok .request →
      server.accepts packet = false →
      Effect server store packet now store none
  | heldOffered {addr} :
      packet.messageType = .ok .discover → store.rapid packet = false →
      store.current packet.chaddr = some addr →
      Effect server store packet now (store.renamed addr (hostnameOf packet))
        (some (store.reply .offer packet addr))
  | freeOffered {offset} :
      packet.messageType = .ok .discover → store.rapid packet = false →
      (∀ held, ¬store.HeldBy held packet.chaddr) →
      store.FirstFree packet.chaddr now offset →
      Effect server store packet now (store.atOffset offset)
        (some (store.reply .offer packet (store.address offset)))
  | exhausted :
      packet.messageType = .ok .discover →
      (∀ held, ¬store.HeldBy held packet.chaddr) →
      (∀ addr, store.available packet.chaddr addr now = false) →
      Effect server store packet now store none
  | heldAcked {addr} :
      (packet.messageType = .ok .request ∨
        packet.messageType = .ok .discover ∧ store.rapid packet = true) →
      store.current packet.chaddr = some addr →
      Effect server store packet now (store.renamed addr (hostnameOf packet))
        (some (store.reply .ack packet addr))
  | freeAcked {offset} :
      packet.messageType = .ok .discover → store.rapid packet = true →
      (∀ held, ¬store.HeldBy held packet.chaddr) →
      store.FirstFree packet.chaddr now offset →
      Effect server store packet now
        ((store.atOffset offset).leased (store.address offset) packet now)
        (some (store.reply .ack packet (store.address offset)))
  | requestAcked :
      packet.messageType = .ok .request →
      (∀ held, ¬store.HeldBy held packet.chaddr) →
      store.available packet.chaddr packet.requestedIp now = true →
      Effect server store packet now (store.leased packet.requestedIp packet now)
        (some (store.reply .ack packet packet.requestedIp))
  | requestRefused :
      packet.messageType = .ok .request →
      (∀ held, ¬store.HeldBy held packet.chaddr) →
      store.available packet.chaddr packet.requestedIp now = false →
      Effect server store packet now store
        (some (nak packet "Requested IP not available"))
  | leaseReleased {addr} :
      server.accepts packet = true →
      store.current packet.chaddr = some addr →
      Effect server store packet now (store.released packet.chaddr addr) none
  | nothingReleased :
      server.accepts packet = true →
      (∀ held, ¬store.HeldBy held packet.chaddr) →
      Effect server store packet now store none

variable {server : Server} {store next : MyServer} {incoming : Incoming}
variable {packet : Packet} {now : Instant} {reply : Option Reply}
variable {addr other : Ipv4Addr} {mac : Mac}

theorem heldBy_of_current (valid : store.Valid) (found : store.current mac = some addr) :
    store.HeldBy addr mac :=
  SlotTable.heldBy_of_current valid.table found

theorem current_eq_none_iff (valid : store.Valid) :
    store.current mac = none ↔ ∀ held, ¬store.HeldBy held mac :=
  SlotTable.current_eq_none_iff valid.table

/-- The loop of a Discover is one turn of a scan. -/
theorem scanFree_turn (valid : store.Valid) (mac : Mac) (now : Instant) :
    scanFree mac now store.leaseNum.toNat store =
      .ok (store.afterScan (RoundRobin.scan store.leaseNum.toNat
        (fun offset => store.available mac (store.address offset) now)
        store.leaseNum.toNat store.lastLease.toNat)) := by
  rcases Nat.eq_zero_or_pos store.leaseNum.toNat with empty | nonempty
  · simp [empty, scanFree, RoundRobin.scan, afterScan]
  · exact scanFree_eq valid nonempty _

theorem scanFree_found {offset : Nat} (valid : store.Valid)
    (first : store.FirstFree mac now offset) :
    scanFree mac now store.leaseNum.toNat store =
      .ok (store.atOffset offset, some (store.address offset)) := by
  rw [scanFree_turn valid, RoundRobin.scan_of_isFirst first]
  rfl

theorem scanFree_exhausted (valid : store.Valid)
    (full : ∀ addr, store.available mac addr now = false) :
    scanFree mac now store.leaseNum.toNat store = .ok (store, none) := by
  rw [scanFree_turn valid, RoundRobin.scan_of_rejected valid.cursor fun offset _ => full _,
    afterScan, atOffset_lastLease, Option.map_none]

/-- An offset is the first free one, or no address is available. -/
theorem firstFree_or_full (valid : store.Valid) (mac : Mac) (now : Instant) :
    (∃ offset, store.FirstFree mac now offset) ∨
      ∀ addr, store.available mac addr now = false := by
  rcases RoundRobin.scan_turn valid.cursor with ⟨offset, first, _⟩ | ⟨rejected, _⟩
  · exact .inl ⟨offset, first⟩
  · right
    intro addr
    cases inside : store.inPool addr with
    | false =>
        rw [available, inside]
        rfl
    | true =>
        rw [inPool_iff] at inside
        have located : store.address (addr.bits.toNat - store.ipStartNum.toNat) = addr :=
          address_eq_of_toNat (by omega)
        have free := rejected (addr.bits.toNat - store.ipStartNum.toNat) (by omega)
        rwa [located] at free

theorem FirstFree.lt {offset : Nat} (first : store.FirstFree mac now offset) :
    offset < store.leaseNum.toNat :=
  RoundRobin.IsFirst.lt first

theorem reply_renamed (msgType : MessageType) (hostname : Option Text) (ip : Ipv4Addr) :
    (store.renamed addr hostname).reply msgType packet ip = store.reply msgType packet ip := by
  cases hostname <;> rfl

/-- The type of the answer to a Discover. -/
def discoverType (store : MyServer) (packet : Packet) : MessageType :=
  if store.rapid packet then .ack else .offer

theorem discover_held (valid : store.Valid) (found : store.current packet.chaddr = some addr) :
    store.discover packet now = .ok (store.renamed addr (hostnameOf packet),
      some (store.reply (store.discoverType packet) packet addr)) := by
  have searched : store.currentLease packet.chaddr = .ok (store.current packet.chaddr) :=
    currentLease_eq valid
  simp only [discover, searched, found, Checked.bind_ok, rememberHostname_eq valid,
    Checked.pure_eq_ok, reply_renamed, discoverType]
  cases store.rapid packet <;> rfl

/-- Rapid commit leases the first free address at once. -/
theorem discover_free {offset : Nat} (valid : store.Valid)
    (missing : store.current packet.chaddr = none)
    (first : store.FirstFree packet.chaddr now offset) :
    store.discover packet now = .ok
      (if store.rapid packet then (store.atOffset offset).leased (store.address offset) packet now
        else store.atOffset offset,
      some (store.reply (store.discoverType packet) packet (store.address offset))) := by
  have searched : store.currentLease packet.chaddr = .ok (store.current packet.chaddr) :=
    currentLease_eq valid
  simp only [discover, searched, missing, Checked.bind_ok, scanFree_found valid first,
    Checked.pure_eq_ok, discoverType]
  cases store.rapid packet with
  | true =>
      simp only [if_true, insertLease_eq (valid.atOffset first.lt)]
      rfl
  | false => rfl

theorem discover_exhausted (valid : store.Valid)
    (missing : store.current packet.chaddr = none)
    (full : ∀ addr, store.available packet.chaddr addr now = false) :
    store.discover packet now = .ok (store, none) := by
  have searched : store.currentLease packet.chaddr = .ok (store.current packet.chaddr) :=
    currentLease_eq valid
  simp only [discover, searched, missing, Checked.bind_ok, scanFree_exhausted valid full,
    Checked.pure_eq_ok, ite_self]

theorem discover_effect (valid : store.Valid)
    (kind : packet.messageType = .ok .discover) :
    ∃ next reply, store.discover packet now = .ok (next, reply) ∧
      Effect server store packet now next reply := by
  cases found : store.current packet.chaddr with
  | some addr =>
      rw [discover_held valid found, discoverType]
      cases rapid : store.rapid packet with
      | true => exact ⟨_, _, rfl, .heldAcked (.inr ⟨kind, rapid⟩) found⟩
      | false => exact ⟨_, _, rfl, .heldOffered kind rapid found⟩
  | none =>
      have nothing := (current_eq_none_iff valid).mp found
      rcases firstFree_or_full valid packet.chaddr now with ⟨offset, first⟩ | full
      · rw [discover_free valid found first, discoverType]
        cases rapid : store.rapid packet with
        | true => exact ⟨_, _, rfl, .freeAcked kind rapid nothing first⟩
        | false => exact ⟨_, _, rfl, .freeOffered kind rapid nothing first⟩
      · exact ⟨_, _, discover_exhausted valid found full, .exhausted kind nothing full⟩

theorem request_held (valid : store.Valid) (found : store.current packet.chaddr = some addr) :
    store.request packet now = .ok (store.renamed addr (hostnameOf packet),
      some (store.reply .ack packet addr)) := by
  have searched : store.currentLease packet.chaddr = .ok (store.current packet.chaddr) :=
    currentLease_eq valid
  simp only [request, searched, found, Checked.bind_ok, rememberHostname_eq valid,
    Checked.pure_eq_ok, reply_renamed]

theorem request_free (valid : store.Valid) (missing : store.current packet.chaddr = none)
    (free : store.available packet.chaddr packet.requestedIp now = true) :
    store.request packet now = .ok (store.leased packet.requestedIp packet now,
      some (store.reply .ack packet packet.requestedIp)) := by
  have searched : store.currentLease packet.chaddr = .ok (store.current packet.chaddr) :=
    currentLease_eq valid
  simp only [request, searched, missing, Checked.bind_ok, availableAt_eq valid, free, if_true,
    insertLease_eq valid]
  rfl

theorem request_refused (valid : store.Valid) (missing : store.current packet.chaddr = none)
    (taken : store.available packet.chaddr packet.requestedIp now = false) :
    store.request packet now =
      .ok (store, some (nak packet "Requested IP not available")) := by
  have searched : store.currentLease packet.chaddr = .ok (store.current packet.chaddr) :=
    currentLease_eq valid
  simp only [request, searched, missing, Checked.bind_ok, availableAt_eq valid, taken]
  rfl

theorem request_effect (valid : store.Valid)
    (kind : packet.messageType = .ok .request) :
    ∃ next reply, store.request packet now = .ok (next, reply) ∧
      Effect server store packet now next reply := by
  cases found : store.current packet.chaddr with
  | some addr => exact ⟨_, _, request_held valid found, .heldAcked (.inl kind) found⟩
  | none =>
      have nothing := (current_eq_none_iff valid).mp found
      cases free : store.available packet.chaddr packet.requestedIp now with
      | true => exact ⟨_, _, request_free valid found free, .requestAcked kind nothing free⟩
      | false =>
          exact ⟨_, _, request_refused valid found free, .requestRefused kind nothing free⟩

theorem release_effect (valid : store.Valid)
    (kind : packet.messageType = .ok .release ∨ packet.messageType = .ok .decline) :
    ∃ next reply, release server store packet = .ok (next, reply) ∧
      Effect server store packet now next reply := by
  have searched : store.currentLease packet.chaddr = .ok (store.current packet.chaddr) :=
    currentLease_eq valid
  have accepts : server.accepts packet = server.forThisServer packet := by
    rcases kind with released | declined
    · simp [Server.accepts, released]
    · simp [Server.accepts, declined]
  cases accepted : server.forThisServer packet with
  | false =>
      refine ⟨store, none, by simp [release, accepted], .ignored ?_ ?_ (accepts.trans accepted)⟩
      all_goals rcases kind with released | declined <;> simp_all
  | true =>
      cases found : store.current packet.chaddr with
      | some addr =>
          simp only [release, accepted, if_true, searched, found, Checked.bind_ok,
            removeLease_eq valid found]
          exact ⟨_, _, rfl, .leaseReleased (accepts.trans accepted) found⟩
      | none =>
          simp only [release, accepted, if_true, searched, found, Checked.bind_ok]
          exact ⟨_, _, rfl, .nothingReleased (accepts.trans accepted)
            ((current_eq_none_iff valid).mp found)⟩

theorem handleRequest_discover (kind : packet.messageType = .ok .discover) :
    handleRequest server store ⟨packet, now⟩ = store.discover packet now := by
  simp only [handleRequest, kind]

theorem handleRequest_request (kind : packet.messageType = .ok .request) :
    handleRequest server store ⟨packet, now⟩ = store.request packet now := by
  simp only [handleRequest, kind]

/-- A valid store handles every packet, in one of the listed ways. -/
theorem handleRequest_effect (valid : store.Valid) (server : Server) (incoming : Incoming) :
    ∃ next reply, handleRequest server store incoming = .ok (next, reply) ∧
      Effect server store incoming.packet incoming.now next reply := by
  rw [handleRequest]
  split
  · exact discover_effect valid (by assumption)
  · exact request_effect valid (by assumption)
  · exact release_effect valid (.inl (by assumption))
  · exact release_effect valid (.inr (by assumption))
  · rename_i notDiscover notRequest notRelease notDecline
    have refused : server.accepts incoming.packet = false := by
      rw [Server.accepts, decide_eq_false notRelease, decide_eq_false notDecline]
      rfl
    exact ⟨store, none, rfl, .ignored notDiscover notRequest refused⟩

theorem effect_of_handled (valid : store.Valid)
    (handled : handleRequest server store incoming = .ok (next, reply)) :
    Effect server store incoming.packet incoming.now next reply := by
  rcases handleRequest_effect valid server incoming with ⟨_, _, equal, effect⟩
  rw [handled] at equal
  cases equal
  exact effect

theorem kind_of_accepts (accepted : server.accepts packet = true) :
    packet.messageType ≠ .ok .discover ∧ packet.messageType ≠ .ok .request := by
  rw [Server.accepts, Bool.and_eq_true, Bool.or_eq_true, decide_eq_true_eq,
    decide_eq_true_eq] at accepted
  rcases accepted.1 with released | declined
  · rw [released]
    exact ⟨by simp, by simp⟩
  · rw [declined]
    exact ⟨by simp, by simp⟩

/-- A packet that asks for no address is ignored, or it is accepted and releases
the current lease, if there is one. -/
theorem Effect.of_neither (effect : Effect server store packet now next reply)
    (notDiscover : packet.messageType ≠ .ok .discover)
    (notRequest : packet.messageType ≠ .ok .request) :
    server.accepts packet = false ∧ next = store ∨
      server.accepts packet = true ∧
        ((∃ addr, store.current packet.chaddr = some addr ∧
            next = store.released packet.chaddr addr) ∨
          (∀ held, ¬store.HeldBy held packet.chaddr) ∧ next = store) := by
  cases effect with
  | ignored _ _ refused => exact .inl ⟨refused, rfl⟩
  | heldOffered kind => exact absurd kind notDiscover
  | freeOffered kind => exact absurd kind notDiscover
  | exhausted kind => exact absurd kind notDiscover
  | heldAcked kind =>
      rcases kind with requested | rapid
      · exact absurd requested notRequest
      · exact absurd rapid.1 notDiscover
  | freeAcked kind => exact absurd kind notDiscover
  | requestAcked kind => exact absurd kind notRequest
  | requestRefused kind => exact absurd kind notRequest
  | leaseReleased accepted current => exact .inr ⟨accepted, .inl ⟨_, current, rfl⟩⟩
  | nothingReleased accepted nothing => exact .inr ⟨accepted, .inr ⟨nothing, rfl⟩⟩

/-- An accepted Release or Decline releases the current lease, if there is
one. -/
theorem Effect.of_accepts (effect : Effect server store packet now next reply)
    (accepted : server.accepts packet = true) :
    (∃ addr, store.current packet.chaddr = some addr ∧
        next = store.released packet.chaddr addr) ∨
      (∀ held, ¬store.HeldBy held packet.chaddr) ∧ next = store := by
  rcases kind_of_accepts accepted with ⟨notDiscover, notRequest⟩
  rcases effect.of_neither notDiscover notRequest with ⟨refused, _⟩ | ⟨_, released⟩
  · simp [accepted] at refused
  · exact released

/-! ## What each result keeps -/

theorem valid_renamed (valid : store.Valid) (hostname : Option Text) :
    (store.renamed addr hostname).Valid := by
  cases hostname with
  | none => exact valid
  | some name =>
      have sameOwner : ∀ entry, store.layout.owner (Entry.rename name entry) =
          store.layout.owner entry := fun _ => rfl
      exact valid.withTable (SlotTable.valid_amend valid.table _)
        (SlotTable.hintsValid_amend valid.hints sameOwner)

theorem valid_leased (valid : store.Valid) : (store.leased addr packet now).Valid :=
  valid.withTable (SlotTable.valid_insert valid.table)
    (SlotTable.hintsValid_insert valid.table valid.hints)

theorem valid_released (valid : store.Valid) (held : store.HeldBy addr mac) :
    (store.released mac addr).Valid :=
  valid.withTable (SlotTable.valid_release valid.table)
    (SlotTable.hintsValid_release valid.table valid.hints held)

theorem Effect.valid (effect : Effect server store packet now next reply)
    (valid : store.Valid) : next.Valid := by
  cases effect with
  | ignored => exact valid
  | heldOffered _ _ found => exact valid_renamed valid _
  | freeOffered _ _ _ first => exact valid.atOffset first.lt
  | exhausted => exact valid
  | heldAcked _ found => exact valid_renamed valid _
  | freeAcked _ _ _ first => exact valid_leased (valid.atOffset first.lt)
  | requestAcked => exact valid_leased valid
  | requestRefused => exact valid
  | leaseReleased _ found => exact valid_released valid (heldBy_of_current valid found)
  | nothingReleased => exact valid

/-- The parts of a store that handling packets never changes. -/
structure SameSettings (store next : MyServer) : Prop where
  layout : next.layout = store.layout
  inPool : next.inPool = store.inPool
  leaseDuration : next.leaseDuration = store.leaseDuration
  enableRapidCommit : next.enableRapidCommit = store.enableRapidCommit
  cachedOffer : next.cachedOffer = store.cachedOffer

theorem Effect.sameSettings (effect : Effect server store packet now next reply) :
    SameSettings store next := by
  cases effect with
  | heldOffered => cases hostnameOf packet <;> exact ⟨rfl, rfl, rfl, rfl, rfl⟩
  | heldAcked => cases hostnameOf packet <;> exact ⟨rfl, rfl, rfl, rfl, rfl⟩
  | _ => exact ⟨rfl, rfl, rfl, rfl, rfl⟩

/-- Every answer but a Nak consists of the options of the store, the request and
an address. -/
theorem Effect.exists_reply_eq {sent : Reply}
    (effect : Effect server store packet now next (some sent)) (lease : sent.msgType ≠ .nak) :
    ∃ addr, sent = store.reply sent.msgType packet addr := by
  cases effect with
  | heldOffered => exact ⟨_, rfl⟩
  | freeOffered => exact ⟨_, rfl⟩
  | heldAcked => exact ⟨_, rfl⟩
  | freeAcked => exact ⟨_, rfl⟩
  | requestAcked => exact ⟨_, rfl⟩
  | requestRefused => exact absurd rfl lease

/-! ## The entries after each result -/

theorem entry_renamed_some {old : Entry} (found : store.entry addr = some old) (name : Text) :
    (store.renamed addr (some name)).entry =
      Function.update store.entry addr (some (old.rename name)) := by
  funext other
  have read : (store.renamed addr (some name)).entry other =
      if other = addr then (store.entry other).map (Entry.rename name)
      else store.entry other := SlotTable.lookup_amend (Entry.rename name)
  rw [read, Function.update_apply]
  by_cases same : other = addr
  · rw [if_pos same, if_pos same, same, found]
    rfl
  · rw [if_neg same, if_neg same]

theorem entry_leased (valid : store.Valid) :
    (store.leased addr packet now).entry = Function.update store.entry addr
      (some ⟨packet.chaddr, some (now + store.leaseDuration), hostnameOf packet⟩) := by
  funext other
  rw [Function.update_apply]
  exact SlotTable.lookup_insert valid.table

theorem entry_released (valid : store.Valid) :
    (store.released mac addr).entry = Function.update store.entry addr none := by
  funext other
  rw [Function.update_apply]
  exact SlotTable.lookup_release valid.table

/-! ## What an available address means -/

theorem available_iff : store.available mac addr now = true ↔
    store.inPool addr = true ∧ ∀ old, store.entry addr = some old →
      old.mac = mac ∨ ∀ limit, old.expiry = some limit → limit < now := by
  rw [available, Bool.and_eq_true]
  cases store.entry addr with
  | none => simp [Entry.takeable]
  | some old => cases limit : old.expiry <;> simp [Entry.takeable, limit]

theorem FirstFree.available {offset : Nat} (first : store.FirstFree mac now offset) :
    store.available mac (store.address offset) now = true := by
  have accepted := RoundRobin.IsFirst.accepted first
  exact accepted

/-- An available address of the pool is free for a client who holds nothing. -/
theorem foreign_of_available
    (nothing : ∀ held, ¬store.HeldBy held mac)
    (available : store.available mac addr now = true) :
    store.inPool addr = true ∧ ∀ old, store.entry addr = some old →
      old.mac ≠ mac ∧ ∀ limit, old.expiry = some limit → limit < now := by
  rcases available_iff.mp available with ⟨inside, free⟩
  refine ⟨inside, ?_⟩
  intro old found
  have foreign : old.mac ≠ mac := fun owner => nothing addr ⟨old, found, owner⟩
  exact ⟨foreign, (free old found).resolve_left foreign⟩

end MyServer

end RustyDhcp
