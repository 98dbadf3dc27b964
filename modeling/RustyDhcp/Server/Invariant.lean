import RustyDhcp.Server.Effect
import RustyDhcp.Server.Loader

/-! # The bookkeeping of the DHCPv4 server

Every store that the loader builds is valid, and handling packets keeps it
valid. -/

namespace RustyDhcp.MyServer

/-- A packet that was handled, between the states around it. -/
abbrev Handling := Handled MyServer Incoming (Option Reply)

variable {server : Server} {store next initial state : MyServer} {incoming : Incoming}
variable {config : Config} {hasher : Hasher Ipv4Addr Entry} {file : LeasesFile}
variable {past : List Handling}

/-! ## The loader -/

theorem table_withStorage (useSlots : Bool) : (withStorage useSlots config hasher).table =
    SlotTable.empty (withStorage useSlots config hasher).layout hasher
      Hasher.newestFirst := by
  cases useSlots <;> simp [table, layout, withStorage, ofConfig, SlotTable.empty]

theorem valid_withStorage (accepted : config.validate = .ok config) (useSlots : Bool)
    (hasher : Hasher Ipv4Addr Entry) : (withStorage useSlots config hasher).Valid where
  table := by
    rw [table_withStorage]
    exact SlotTable.valid_empty _ _
  hints := by
    intro mac addr pointed
    cases pointed
  range := (Config.validate_eq_ok_iff.mp accepted).2.2.1
  cursor := by
    change (0 : U32).toNat < config.leaseNum.toNat ∨ config.leaseNum.toNat = 0
    simp
    omega

theorem valid_ofConfig (accepted : config.validate = .ok config)
    (hasher : Hasher Ipv4Addr Entry) : (ofConfig config hasher).Valid := by
  rw [ofConfig_eq]
  exact valid_withStorage accepted _ hasher

theorem entry_withStorage (useSlots : Bool) (addr : Ipv4Addr) :
    (withStorage useSlots config hasher).entry addr = none := by
  rw [entry, table_withStorage]
  exact SlotTable.lookup_empty _ _

/-- The hand-written insertion of the loader is `insertLease`. -/
theorem loadLease_eq (mac : Mac) (ip : Ipv4Addr) :
    store.loadLease mac ip = store.insertLease ip mac none none := by
  rw [loadLease, insertLease]
  cases store.idx ip with
  | some position => rfl
  | none =>
      dsimp only
      split
      · split <;> rfl
      · rfl

/-- The reservation of a line, if it can be read and is one. -/
def reservation (line : Option Text) : Option (Mac × Ipv4Addr) :=
  line.bind fun text =>
    match leaseLine text with
    | .ok found => found
    | .error _ => none

/-- A line is skipped, or it is a reservation and gets inserted. -/
theorem loadLine_cases {line : Option Text} (valid : store.Valid)
    (loaded : store.loadLine line = .ok next) :
    reservation line = none ∧ next = store ∨
      ∃ mac ip, reservation line = some (mac, ip) ∧
        next = store.withTable (store.table.insert store.layout ip ⟨mac, none, none⟩) := by
  cases line with
  | none =>
      cases loaded
      exact .inl ⟨rfl, rfl⟩
  | some text =>
      rcases Checked.bind_eq_ok_iff.mp loaded with ⟨found, parsed, rest⟩
      have read : reservation (some text) = found := by
        simp only [reservation, Option.bind_some, parsed]
      cases found with
      | none =>
          cases rest
          exact .inl ⟨read, rfl⟩
      | some pair =>
          rcases pair with ⟨mac, ip⟩
          simp only [loadLease_eq, insertLease_eq valid, Except.ok.injEq] at rest
          exact .inr ⟨mac, ip, read, rest.symm⟩

theorem valid_inserted (valid : store.Valid) {ip : Ipv4Addr} {entry : Entry} :
    (store.withTable (store.table.insert store.layout ip entry)).Valid :=
  valid.withTable (SlotTable.valid_insert valid.table)
    (SlotTable.hintsValid_insert valid.table valid.hints)

theorem valid_loadLeases {lines : List (Option Text)} (valid : store.Valid)
    (loaded : store.loadLeases lines = .ok next) : next.Valid := by
  induction lines generalizing store with
  | nil =>
      cases loaded
      exact valid
  | cons line lines induction =>
      rcases Checked.bind_eq_ok_iff.mp loaded with ⟨middle, first, rest⟩
      refine induction ?_ rest
      rcases loadLine_cases valid first with ⟨_, rfl⟩ | ⟨_, _, _, rfl⟩
      · exact valid
      · exact valid_inserted valid

theorem valid_start {useSlots : Bool} (accepted : config.validate = .ok config)
    (started : start useSlots config hasher file = .ok initial) : initial.Valid := by
  have empty := valid_withStorage accepted useSlots hasher
  cases file with
  | none =>
      cases started
      exact empty
  | some lines => exact valid_loadLeases empty started

theorem valid_main (accepted : config.validate = .ok config)
    (loaded : main config hasher file = .ok initial) : initial.Valid :=
  valid_start accepted ((main_eq_start config hasher file).symm.trans loaded)

/-- What no reservation touches is as the configuration has it. -/
theorem kept_of_main {View : Type} {view : MyServer → View}
    (each : ∀ (store : MyServer) ip entry,
      view (store.withTable (store.table.insert store.layout ip entry)) = view store)
    (accepted : config.validate = .ok config)
    (loaded : main config hasher file = .ok initial) :
    view initial = view (ofConfig config hasher) := by
  cases file with
  | none =>
      cases loaded
      rfl
  | some lines =>
      have start : (ofConfig config hasher).Valid := valid_ofConfig accepted hasher
      change (ofConfig config hasher).loadLeases lines = .ok initial at loaded
      generalize ofConfig config hasher = store at start loaded ⊢
      induction lines generalizing store with
      | nil =>
          cases loaded
          rfl
      | cons line lines induction =>
          rcases Checked.bind_eq_ok_iff.mp loaded with ⟨middle, first, rest⟩
          rcases loadLine_cases start first with ⟨_, rfl⟩ | ⟨_, _, _, rfl⟩
          · exact induction _ start rest
          · exact (induction _ (valid_inserted start) rest).trans (each store _ _)

theorem valid_of_run (valid : initial.Valid)
    (run : Run (handleRequest server) initial past state) : state.Valid :=
  run.invariant valid fun before handled => (effect_of_handled before handled).valid before

theorem valid_reached (accepted : config.validate = .ok config)
    (loaded : main config hasher file = .ok initial)
    (run : Run (handleRequest server) initial past state) : state.Valid :=
  valid_of_run (valid_main accepted loaded) run

/-! ## What validity means for the fields -/

/-- The redundant parts of a store agree with each other. -/
structure Consistent (store : MyServer) : Prop where
  slots_length : store.slots.length = if store.useSlots then store.leaseNum.toNat else 0
  filled_eq : store.filled = store.slots.countP Option.isSome
  overflow_outside : store.useSlots = true → ∀ ip entry,
    store.overflow.get? ip = some entry → store.inPool ip = false
  cursor : store.lastLease.toNat < store.leaseNum.toNat ∨ store.leaseNum.toNat = 0
  hints : ∀ mac ip, store.byMac.get? mac = some ip →
    ∃ entry, store.lookup ip = .ok (some entry) ∧ entry.mac = mac
  hints_size : store.byMac.size ≤ store.filled + store.overflow.size
  current_held : ∀ mac ip, store.currentLease mac = .ok (some ip) →
    ∃ entry, store.lookup ip = .ok (some entry) ∧ entry.mac = mac
  current_missing : ∀ mac, store.currentLease mac = .ok none →
    (∀ slot ∈ store.slots, ∀ entry, slot = some entry → entry.mac ≠ mac) ∧
      ∀ ip entry, store.overflow.get? ip = some entry → entry.mac ≠ mac

theorem lookup_of_heldBy (valid : store.Valid) {ip : Ipv4Addr} {mac : Mac}
    (held : store.HeldBy ip mac) :
    ∃ entry, store.lookup ip = .ok (some entry) ∧ entry.mac = mac := by
  rcases held with ⟨entry, found, owner⟩
  exact ⟨entry, by rw [lookup_eq valid, MyServer.entry, found], owner⟩

theorem Valid.consistent (valid : store.Valid) : store.Consistent where
  slots_length := valid.table.slots_length
  filled_eq := valid.table.filled_eq
  overflow_outside slots ip entry found := by
    have outside : store.idx ip = none := valid.table.overflow_outside found
    by_contra inside
    rw [Bool.not_eq_false] at inside
    rw [useSlots_eq_false_of_idx inside outside] at slots
    cases slots
  cursor := valid.cursor
  hints mac ip pointed := lookup_of_heldBy valid (valid.hints pointed)
  hints_size := SlotTable.size_hints_le valid.table valid.hints
  current_held mac ip found := by
    rw [currentLease_eq valid, Except.ok.injEq] at found
    exact lookup_of_heldBy valid (heldBy_of_current valid found)
  current_missing mac missing := by
    rw [currentLease_eq valid, Except.ok.injEq] at missing
    have nothing := (current_eq_none_iff valid).mp missing
    refine ⟨?_, ?_⟩
    · intro slot member entry occupied owner
      rcases List.getElem?_of_mem member with ⟨position, read⟩
      rw [occupied] at read
      exact nothing _ ⟨entry, SlotTable.lookup_slot valid.table read, owner⟩
    · intro ip entry found owner
      exact nothing ip ⟨entry, SlotTable.lookup_overflow valid.table found, owner⟩

/-- The server that `main` builds stays consistent, and no packet makes it
panic: no index is out of bounds, no counter underflows, no address overflows
and nothing is divided by an empty pool. -/
theorem consistent_of_run (accepted : config.validate = .ok config)
    (loaded : main config hasher file = .ok initial)
    (run : Run (handleRequest server) initial past state) :
    state.Consistent ∧
      ∀ incoming, ∃ result, handleRequest server state incoming = .ok result := by
  have valid := valid_reached accepted loaded run
  refine ⟨valid.consistent, ?_⟩
  intro incoming
  rcases handleRequest_effect valid server incoming with ⟨next, reply, handled, _⟩
  exact ⟨(next, reply), handled⟩

/-- The default configuration with a pool of two addresses. -/
def twoLeases : Config := { Config.defaults with leaseNum := 2 }

def requestFor (mac : Mac) (ip : Ipv4Addr) : Packet :=
  .ofClient mac [.dhcpMessageType .request, .requestedIpAddress ip]

/-- A reserved MAC appears twice in the file, and somebody else takes over the
reservation that lies in the pool. -/
theorem consistent_of_run_takeover :
    ∃ session, simulate (handleRequest ⟨.new 192 168 2 1⟩)
        (main twoLeases Hasher.newestFirst
          (some [some "01:02:03:04:05:06,192.168.2.3".toList,
            some "01:02:03:04:05:06,10.0.0.1".toList]))
        [⟨requestFor #v[1, 2, 3, 4, 5, 7] (.new 192 168 2 3), 5⟩] = .ok session ∧
      session.past.length = 1 ∧ session.state.Consistent := by
  have computed : Checked.passes (simulate (handleRequest ⟨.new 192 168 2 1⟩)
      (main twoLeases Hasher.newestFirst
        (some [some "01:02:03:04:05:06,192.168.2.3".toList,
          some "01:02:03:04:05:06,10.0.0.1".toList]))
      [⟨requestFor #v[1, 2, 3, 4, 5, 7] (.new 192 168 2 3), 5⟩])
      (fun session => session.past.length = 1) = true := by decide
  rcases Checked.exists_of_passes computed with ⟨session, simulated, handled⟩
  rcases Run.of_simulate simulated with ⟨loaded, run⟩
  exact ⟨session, simulated, of_decide_eq_true handled,
    (consistent_of_run rfl loaded run).1⟩

end RustyDhcp.MyServer
