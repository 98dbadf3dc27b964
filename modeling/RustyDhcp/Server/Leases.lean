import RustyDhcp.Server.Invariant

/-! # The DHCPv4 server as a lease protocol

Handling a packet is one event of the abstract protocol on the leases that the
store represents. An entry without an expiry counts as free, just like one
whose expiry has passed. -/

namespace RustyDhcp

/-- What an answer grants: only an Ack grants an address. -/
def Reply.granted (reply : Reply) : Option (Mac × Ipv4Addr) :=
  if reply.msgType = .ack then some (reply.chaddr, reply.yiaddr) else none

/-- What an answer shows: an Offer and an Ack show an address. -/
def Reply.shown (reply : Reply) : Option (Mac × Ipv4Addr) :=
  if reply.msgType = .offer ∨ reply.msgType = .ack then
    some (reply.chaddr, reply.yiaddr)
  else none

/-- Whose leases a packet gives up. -/
def Server.releases (server : Server) (packet : Packet) : Option Mac :=
  if server.accepts packet then some packet.chaddr else none

namespace MyServer

variable {server : Server} {store next initial state : MyServer} {reply : Option Reply}
variable {packet : Packet} {now : Instant} {addr : Ipv4Addr} {mac : Mac}
variable {past : List Handling}

def leases (store : MyServer) : LeaseTable Ipv4Addr Mac :=
  .ofEntries Entry.mac Entry.expiry store.entry

/-- The expiries that keep nobody from taking an address over. -/
def Takeable (now : Instant) (expiry : Option Instant) : Prop :=
  ∀ limit, expiry = some limit → limit < now

theorem leases_heldBy_iff : store.leases.HeldBy addr mac ↔ store.HeldBy addr mac :=
  LeaseTable.ofEntries_heldBy_iff

theorem not_heldBy_leases (nothing : ∀ held, ¬store.HeldBy held mac) :
    ∀ held, ¬store.leases.HeldBy held mac :=
  fun held holds => nothing held (leases_heldBy_iff.mp holds)

theorem leases_of_entry_update {entry : Option Entry}
    (updated : next.entry = Function.update store.entry addr entry) :
    next.leases = Function.update store.leases addr
      (entry.map fun entry => ⟨entry.mac, entry.expiry⟩) := by
  rw [leases, updated]
  exact LeaseTable.ofEntries_update entry

theorem leases_withStorage {useSlots : Bool} {config : Config}
    {hasher : Hasher Ipv4Addr Entry} :
    (withStorage useSlots config hasher).leases = fun _ => none := by
  funext addr
  rw [leases, LeaseTable.ofEntries, entry_withStorage]
  rfl

theorem leases_leased (valid : store.Valid) :
    (store.leased addr packet now).leases = Function.update store.leases addr
      (some ⟨packet.chaddr, some (now + store.leaseDuration)⟩) :=
  leases_of_entry_update (entry_leased valid)

theorem leases_released (valid : store.Valid) :
    (store.released mac addr).leases = Function.update store.leases addr none :=
  leases_of_entry_update (entry_released valid)

/-- A host name is no part of a lease. -/
theorem leases_renamed (held : store.HeldBy addr mac) (hostname : Option Text) :
    (store.renamed addr hostname).leases = store.leases := by
  cases hostname with
  | none => rfl
  | some name =>
      rcases held with ⟨old, found, _⟩
      rw [leases_of_entry_update (entry_renamed_some found name)]
      apply Function.update_eq_self_iff.mpr
      change _ = (store.table.lookup store.layout addr).map _
      rw [found]
      rfl

/-- Who holds an address. -/
def holder (store : MyServer) (addr : Ipv4Addr) : Option Mac :=
  (store.leases addr).map Lease.holder

theorem heldBy_iff_holder : store.HeldBy addr mac ↔ store.holder addr = some mac := by
  rw [← leases_heldBy_iff, holder, Option.map_eq_some_iff]
  exact Iff.rfl

theorem holder_of_leases_update {lease : Option (Lease Mac)}
    (updated : next.leases = Function.update store.leases addr lease) :
    next.holder = Function.update store.holder addr (lease.map Lease.holder) := by
  funext other
  rw [holder, updated, Function.update_apply, Function.update_apply]
  split
  · rfl
  · rfl

theorem holder_renamed (held : store.HeldBy addr mac) (hostname : Option Text) :
    (store.renamed addr hostname).holder = store.holder := by
  funext other
  rw [holder, holder, leases_renamed held]

theorem holder_leased (valid : store.Valid) :
    (store.leased addr packet now).holder =
      Function.update store.holder addr (some packet.chaddr) :=
  holder_of_leases_update (leases_leased valid)

theorem holder_released (valid : store.Valid) :
    (store.released mac addr).holder = Function.update store.holder addr none :=
  holder_of_leases_update (leases_released valid)

/-- An address that is available to a client without a lease is free. -/
theorem free_of_available (nothing : ∀ held, ¬store.HeldBy held mac)
    (available : store.available mac addr now = true) :
    store.leases.Free (Takeable now) addr := by
  intro lease found
  rcases LeaseTable.ofEntries_eq_some_iff.mp found with ⟨entry, read, same⟩
  subst same
  exact ((foreign_of_available nothing available).2 entry read).2

theorem releases_eq_none
    (kind : packet.messageType = .ok .discover ∨ packet.messageType = .ok .request) :
    server.releases packet = none := by
  have refused : server.accepts packet ≠ true := by
    intro accepted
    rcases kind_of_accepts accepted with ⟨notDiscover, notRequest⟩
    exact kind.elim notDiscover notRequest
  rw [Server.releases, if_neg refused]

/-- Handling a packet is one event of the lease protocol. -/
theorem Effect.event (valid : store.Valid)
    (effect : Effect server store packet now next reply) :
    ∃ event, LeaseTable.Step (Takeable now) (now + store.leaseDuration)
        store.leases event next.leases ∧
      event.released = server.releases packet ∧
      event.granted = reply.bind Reply.granted ∧
      event.shown = reply.bind Reply.shown := by
  cases effect with
  | ignored _ _ refused =>
      have nobody : server.releases packet = none := by
        rw [Server.releases, refused]
        rfl
      exact ⟨.silent, .silent, nobody.symm, rfl, rfl⟩
  | heldOffered kind _ current =>
      have held := heldBy_of_current valid current
      rw [leases_renamed held]
      exact ⟨.offer packet.chaddr _, .offerHeld (leases_heldBy_iff.mpr held),
        (releases_eq_none (.inl kind)).symm, rfl, rfl⟩
  | freeOffered kind _ nothing first =>
      exact ⟨.offer packet.chaddr _,
        .offerFree (not_heldBy_leases nothing) (free_of_available nothing first.available),
        (releases_eq_none (.inl kind)).symm, rfl, rfl⟩
  | exhausted kind =>
      exact ⟨.silent, .silent, (releases_eq_none (.inl kind)).symm, rfl, rfl⟩
  | heldAcked kind current =>
      have held := heldBy_of_current valid current
      rw [leases_renamed held]
      exact ⟨.confirm packet.chaddr _, .confirm (leases_heldBy_iff.mpr held),
        (releases_eq_none (kind.elim .inr fun rapid => .inl rapid.1)).symm, rfl, rfl⟩
  | freeAcked kind _ nothing first =>
      rw [leases_leased (valid.atOffset first.lt)]
      exact ⟨.commit packet.chaddr _,
        .commit (not_heldBy_leases nothing) (free_of_available nothing first.available),
        (releases_eq_none (.inl kind)).symm, rfl, rfl⟩
  | requestAcked kind nothing available =>
      rw [leases_leased valid]
      exact ⟨.commit packet.chaddr _,
        .commit (not_heldBy_leases nothing) (free_of_available nothing available),
        (releases_eq_none (.inr kind)).symm, rfl, rfl⟩
  | requestRefused kind =>
      exact ⟨.silent, .silent, (releases_eq_none (.inr kind)).symm, rfl, rfl⟩
  | leaseReleased accepted current =>
      have released : server.releases packet = some packet.chaddr := if_pos accepted
      rw [leases_released valid]
      exact ⟨.release packet.chaddr _,
        .release (leases_heldBy_iff.mpr (heldBy_of_current valid current)),
        released.symm, rfl, rfl⟩
  | nothingReleased accepted nothing =>
      have released : server.releases packet = some packet.chaddr := if_pos accepted
      exact ⟨.releaseNothing packet.chaddr, .releaseNothing (not_heldBy_leases nothing),
        released.symm, rfl, rfl⟩

/-- An answer goes to the client whose packet it answers. -/
theorem Effect.chaddr_of_shown (effect : Effect server store packet now next reply)
    (shown : reply.bind Reply.shown = some (mac, addr)) : mac = packet.chaddr := by
  cases effect with
  | ignored => cases shown
  | heldOffered => cases shown; rfl
  | freeOffered => cases shown; rfl
  | exhausted => cases shown
  | heldAcked => cases shown; rfl
  | freeAcked => cases shown; rfl
  | requestAcked => cases shown; rfl
  | requestRefused => cases shown
  | leaseReleased => cases shown
  | nothingReleased => cases shown

/-- An address shown to a client without a lease is the one that the client
requested, or the first free one in the order of the scan. -/
theorem Effect.selected (effect : Effect server store packet now next reply)
    (valid : store.Valid) (nothing : ∀ held, ¬store.HeldBy held packet.chaddr)
    (shown : reply.bind Reply.shown = some (mac, addr)) :
    packet.messageType = .ok .request ∧ addr = packet.requestedIp ∧
        store.inPool addr = true ∨
      packet.messageType = .ok .discover ∧
        ∃ offset, store.FirstFree packet.chaddr now offset ∧ addr = store.address offset := by
  cases effect with
  | ignored => cases shown
  | heldOffered _ _ current => exact absurd (heldBy_of_current valid current) (nothing _)
  | freeOffered kind _ _ first =>
      cases shown
      exact .inr ⟨kind, _, first, rfl⟩
  | exhausted => cases shown
  | heldAcked _ current => exact absurd (heldBy_of_current valid current) (nothing _)
  | freeAcked kind _ _ first =>
      cases shown
      exact .inr ⟨kind, _, first, rfl⟩
  | requestAcked kind _ available =>
      cases shown
      exact .inl ⟨kind, rfl, (available_iff.mp available).1⟩
  | requestRefused => cases shown
  | leaseReleased => cases shown
  | nothingReleased => cases shown

end MyServer

end RustyDhcp
