import RustyDhcp.Server.Invariant

/-! # Isolation between DHCPv4 clients -/

namespace RustyDhcp.MyServer

variable {server : Server} {store next initial state : MyServer} {reply : Option Reply}
variable {packet : Packet} {now : Instant} {sent : Reply}
variable {config : Config} {hasher : Hasher Ipv4Addr Entry} {file : LeasesFile}
variable {past : List Handling}

/-- A packet that can commit a lease: a Request, or a Discover to which rapid
commit applies. -/
def Commits (store : MyServer) (packet : Packet) : Prop :=
  packet.messageType = .ok .request ∨
    packet.messageType = .ok .discover ∧ store.rapid packet = true

/-- The entries that a packet can leave behind. -/
inductive Change (server : Server) (store : MyServer) (packet : Packet) (now : Instant) :
    (Ipv4Addr → Option Entry) → Prop
  | unchanged : Change server store packet now store.entry
  | write {addr} :
      store.Commits packet → (∀ held, ¬store.HeldBy held packet.chaddr) →
      store.inPool addr = true →
      (∀ old, store.entry addr = some old → old.mac ≠ packet.chaddr ∧
        ∀ limit, old.expiry = some limit → limit < now) →
      Change server store packet now (Function.update store.entry addr
        (some ⟨packet.chaddr, some (now + store.leaseDuration), hostnameOf packet⟩))
  | rename {addr old name} :
      packet.messageType = .ok .discover ∨ packet.messageType = .ok .request →
      hostnameOf packet = some name →
      store.entry addr = some old → old.mac = packet.chaddr →
      Change server store packet now
        (Function.update store.entry addr (some { old with hostname := some name }))
  | remove {addr} :
      server.accepts packet = true → store.HeldBy addr packet.chaddr →
      Change server store packet now (Function.update store.entry addr none)

/-- What a packet does to the entries, whoever holds them. -/
structure Isolated (server : Server) (store : MyServer) (packet : Packet) (now : Instant)
    (next : MyServer) (reply : Option Reply) : Prop where
  change : Change server store packet now next.entry
  atMostOne : ∃ addr, ∀ other, other ≠ addr → next.entry other = store.entry other
  removes : server.accepts packet = true → ∀ held, store.HeldBy held packet.chaddr →
    ∃ addr, store.HeldBy addr packet.chaddr ∧
      next.entry = Function.update store.entry addr none
  removesNothing : server.accepts packet = true →
    (∀ held, ¬store.HeldBy held packet.chaddr) → next.entry = store.entry
  refused : ∀ sent, reply = some sent → sent.msgType = .nak → next.entry = store.entry
  onlyOffered : packet.messageType = .ok .discover → store.rapid packet = false →
    (∀ held, ¬store.HeldBy held packet.chaddr) → next.entry = store.entry
  ignored : packet.messageType ≠ .ok .discover → packet.messageType ≠ .ok .request →
    server.accepts packet = false → next.entry = store.entry
  protects : ∀ addr old limit, store.entry addr = some old → old.mac ≠ packet.chaddr →
    old.expiry = some limit → now ≤ limit → next.entry addr = some old

theorem Change.atMostOne {entries : Ipv4Addr → Option Entry}
    (change : Change server store packet now entries) :
    ∃ addr, ∀ other, other ≠ addr → entries other = store.entry other := by
  cases change with
  | unchanged => exact ⟨.unspecified, fun _ _ => rfl⟩
  | @write addr => exact ⟨addr, fun _ different => Function.update_of_ne different _ _⟩
  | @rename addr => exact ⟨addr, fun _ different => Function.update_of_ne different _ _⟩
  | @remove addr => exact ⟨addr, fun _ different => Function.update_of_ne different _ _⟩

/-- Nobody's packet touches an entry that somebody else has for a time that is
not over. -/
theorem Change.protects {entries : Ipv4Addr → Option Entry}
    (change : Change server store packet now entries) {addr : Ipv4Addr} {old : Entry}
    {limit : Instant} (found : store.entry addr = some old)
    (foreign : old.mac ≠ packet.chaddr) (timed : old.expiry = some limit)
    (running : now ≤ limit) : entries addr = some old := by
  cases change with
  | unchanged => exact found
  | @write written _ _ _ free =>
      have different : addr ≠ written := by
        intro equal
        subst equal
        exact Nat.not_lt.mpr running ((free old found).2 limit timed)
      rw [Function.update_of_ne different, found]
  | @rename renamed entry _ _ _ read owner =>
      have different : addr ≠ renamed := by
        intro equal
        subst equal
        rw [found] at read
        cases read
        exact foreign owner
      rw [Function.update_of_ne different, found]
  | @remove removed _ held =>
      have different : addr ≠ removed := by
        intro equal
        subst equal
        rcases held with ⟨entry, read, owner⟩
        change store.entry addr = some entry at read
        rw [found] at read
        cases read
        exact foreign owner
      rw [Function.update_of_ne different, found]

theorem change_renamed {addr : Ipv4Addr} (valid : store.Valid)
    (kind : packet.messageType = .ok .discover ∨ packet.messageType = .ok .request)
    (current : store.current packet.chaddr = some addr) :
    Change server store packet now (store.renamed addr (hostnameOf packet)).entry := by
  rcases heldBy_of_current valid current with ⟨old, found, owner⟩
  cases announced : hostnameOf packet with
  | none => exact .unchanged
  | some name =>
      rw [entry_renamed_some found]
      exact .rename kind announced found owner

theorem Effect.change (valid : store.Valid)
    (effect : Effect server store packet now next reply) :
    Change server store packet now next.entry := by
  cases effect with
  | ignored => exact .unchanged
  | heldOffered kind _ current => exact change_renamed valid (.inl kind) current
  | freeOffered => exact .unchanged
  | exhausted => exact .unchanged
  | heldAcked kind current =>
      exact change_renamed valid (kind.elim .inr fun rapid => .inl rapid.1) current
  | freeAcked kind rapid nothing first =>
      rcases foreign_of_available nothing first.available with ⟨inside, free⟩
      rw [entry_leased (valid.atOffset first.lt)]
      exact .write (.inr ⟨kind, rapid⟩) nothing inside free
  | requestAcked kind nothing available =>
      rcases foreign_of_available nothing available with ⟨inside, free⟩
      rw [entry_leased valid]
      exact .write (.inl kind) nothing inside free
  | requestRefused => exact .unchanged
  | leaseReleased accepted current =>
      rw [entry_released valid]
      exact .remove accepted (heldBy_of_current valid current)
  | nothingReleased => exact .unchanged

theorem Effect.entry_of_nak (effect : Effect server store packet now next (some sent))
    (kind : sent.msgType = .nak) : next.entry = store.entry := by
  cases effect with
  | heldOffered => cases kind
  | freeOffered => rfl
  | heldAcked => cases kind
  | freeAcked => cases kind
  | requestAcked => cases kind
  | requestRefused => rfl

theorem Effect.entry_of_offer (effect : Effect server store packet now next reply)
    (valid : store.Valid) (kind : packet.messageType = .ok .discover)
    (slow : store.rapid packet = false)
    (nothing : ∀ held, ¬store.HeldBy held packet.chaddr) : next.entry = store.entry := by
  cases effect with
  | ignored notDiscover => exact absurd kind notDiscover
  | heldOffered _ _ current => exact absurd (heldBy_of_current valid current) (nothing _)
  | freeOffered => rfl
  | exhausted => rfl
  | heldAcked _ current => exact absurd (heldBy_of_current valid current) (nothing _)
  | freeAcked _ rapid => simp [slow] at rapid
  | requestAcked requested => simp [kind] at requested
  | requestRefused => rfl
  | leaseReleased accepted => exact absurd kind (kind_of_accepts accepted).1
  | nothingReleased => rfl

theorem Effect.entry_of_ignored (effect : Effect server store packet now next reply)
    (notDiscover : packet.messageType ≠ .ok .discover)
    (notRequest : packet.messageType ≠ .ok .request)
    (refused : server.accepts packet = false) : next.entry = store.entry := by
  rcases effect.of_neither notDiscover notRequest with ⟨_, rfl⟩ | ⟨accepted, _⟩
  · rfl
  · simp [refused] at accepted

theorem Effect.isolated (valid : store.Valid)
    (effect : Effect server store packet now next reply) :
    Isolated server store packet now next reply where
  change := effect.change valid
  atMostOne := (effect.change valid).atMostOne
  removes accepted held holds := by
    rcases effect.of_accepts accepted with ⟨addr, current, rfl⟩ | ⟨nothing, rfl⟩
    · exact ⟨addr, heldBy_of_current valid current, entry_released valid⟩
    · exact absurd holds (nothing held)
  removesNothing accepted nothing := by
    rcases effect.of_accepts accepted with ⟨addr, current, rfl⟩ | ⟨_, rfl⟩
    · exact absurd (heldBy_of_current valid current) (nothing addr)
    · rfl
  refused sent equal kind := by
    subst equal
    exact effect.entry_of_nak kind
  onlyOffered kind slow nothing := effect.entry_of_offer valid kind slow nothing
  ignored notDiscover notRequest refused :=
    effect.entry_of_ignored notDiscover notRequest refused
  protects addr old limit found foreign timed running :=
    (effect.change valid).protects found foreign timed running

/-- In every state that the server can reach, a packet is handled without
touching more than its sender's own business. -/
theorem isolated_of_run (accepted : config.validate = .ok config)
    (loaded : main config hasher file = .ok initial)
    (run : Run (handleRequest server) initial past state) (incoming : Incoming) :
    ∃ next reply, handleRequest server state incoming = .ok (next, reply) ∧
      Isolated server state incoming.packet incoming.now next reply := by
  have valid := valid_reached accepted loaded run
  rcases handleRequest_effect valid server incoming with ⟨next, reply, handled, effect⟩
  exact ⟨next, reply, handled, effect.isolated valid⟩

/-- The takeover of a reservation, seen from the packet that does it. -/
theorem isolated_of_run_takeover :
    ∃ session, simulate (handleRequest ⟨.new 192 168 2 1⟩)
        (main twoLeases Hasher.newestFirst
          (some [some "01:02:03:04:05:06,192.168.2.3".toList])) [] = .ok session ∧
      ∃ next reply, handleRequest ⟨.new 192 168 2 1⟩ session.state
          ⟨requestFor #v[1, 2, 3, 4, 5, 7] (.new 192 168 2 3), 5⟩ = .ok (next, reply) ∧
        Isolated ⟨.new 192 168 2 1⟩ session.state
          (requestFor #v[1, 2, 3, 4, 5, 7] (.new 192 168 2 3)) 5 next reply := by
  have computed : Checked.passes (simulate (handleRequest ⟨.new 192 168 2 1⟩)
      (main twoLeases Hasher.newestFirst
        (some [some "01:02:03:04:05:06,192.168.2.3".toList])) [])
      (fun session => session.past.length = 0) = true := by decide
  rcases Checked.exists_of_passes computed with ⟨session, simulated, _⟩
  rcases Run.of_simulate simulated with ⟨loaded, run⟩
  exact ⟨session, simulated, isolated_of_run rfl loaded run
    ⟨requestFor #v[1, 2, 3, 4, 5, 7] (.new 192 168 2 3), 5⟩⟩

end RustyDhcp.MyServer
