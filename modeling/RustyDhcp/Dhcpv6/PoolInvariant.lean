import RustyDhcp.Dhcpv6.PoolEffect

/-! # The bookkeeping of the DHCPv6 pool

The counters and the search are exact in every state that calls can reach,
whatever the hints say. The hints themselves stay correct as long as no request
takes an address over from a client whose hint leads there. -/

namespace RustyDhcp.Dhcpv6.V6Pool

/-- A call that was answered, between the pools around it. -/
abbrev Called := Handled V6Pool PoolCall PoolAnswer

variable {pool initial state next : V6Pool} {call : PoolCall} {answer : PoolAnswer}
variable {past : List Called}

theorem valid_of_run (valid : initial.Valid) (run : Run V6Pool.call initial past state) :
    state.Valid :=
  run.invariant valid fun before called => (effect_of_called before called).valid before

theorem remains_of_run (valid : initial.Valid) (run : Run V6Pool.call initial past state) :
    initial.Remains state := by
  apply run.invariant ⟨valid, rfl⟩
  intro before call next answer kept called
  have remains := (effect_of_called kept.valid called).remains kept.valid
  exact ⟨remains.valid, remains.leaseDuration.trans kept.leaseDuration⟩

theorem valid_reached {hasher : Hasher Ipv6Addr Entry} {start : Ipv6Addr} {count : U64}
    {leaseDuration : Duration}
    (run : Run V6Pool.call (new hasher start count leaseDuration) past state) : state.Valid :=
  valid_of_run (valid_withStorage _ _ _ _ _) run

/-! ## Counters and search -/

/-- The counters count the leases and the search finds exactly those who have
one. -/
structure Exact (pool : V6Pool) : Prop where
  filled_eq : pool.filled = pool.slots.countP Option.isSome
  len_eq : pool.len = {addr | ∃ entry, pool.get addr = .ok (some entry)}.ncard
  cursor : pool.last.toNat < pool.count.toNat ∨ pool.last = 0 ∧ pool.count = 0
  current_held : ∀ duid addr, pool.currentLease duid = .ok (some addr) →
    ∃ entry, pool.get addr = .ok (some entry) ∧ entry.duid = duid
  current_missing : ∀ duid, pool.currentLease duid = .ok none ↔
    (∀ slot ∈ pool.slots, ∀ entry, slot = some entry → entry.duid ≠ duid) ∧
      ∀ addr entry, pool.overflow.get? addr = some entry → entry.duid ≠ duid

theorem get_eq_iff (valid : pool.Valid) {addr : Ipv6Addr} {entry : Entry} :
    pool.get addr = .ok (some entry) ↔ pool.entry addr = some entry := by
  rw [get, lookup_eq valid, Except.ok.injEq]

/-- Nobody has an entry exactly when no slot and no overflow entry is theirs. -/
theorem not_heldBy_iff (valid : pool.Valid) {duid : Duid} :
    (∀ held, ¬pool.HeldBy held duid) ↔
      (∀ slot ∈ pool.slots, ∀ entry, slot = some entry → entry.duid ≠ duid) ∧
        ∀ addr entry, pool.overflow.get? addr = some entry → entry.duid ≠ duid := by
  constructor
  · intro nothing
    refine ⟨?_, ?_⟩
    · intro slot member entry occupied owner
      rcases List.getElem?_of_mem member with ⟨position, read⟩
      rw [occupied] at read
      exact nothing _ ⟨entry, SlotTable.lookup_slot valid.table read, owner⟩
    · intro addr entry found owner
      exact nothing addr ⟨entry, SlotTable.lookup_overflow valid.table found, owner⟩
  · intro nowhere held holds
    rcases holds with ⟨entry, found, owner⟩
    rcases SlotTable.lookup_eq_some_cases found with ⟨position, _, occupied⟩ | inOverflow
    · exact nowhere.1 _ (List.mem_of_getElem? occupied) entry rfl owner
    · exact nowhere.2 held entry inOverflow owner

theorem Valid.exact (valid : pool.Valid) : pool.Exact where
  filled_eq := valid.table.filled_eq
  len_eq := by
    have counted := SlotTable.ncard_held valid.table
    have same : {addr | ∃ entry, pool.get addr = .ok (some entry)} =
        {addr | (pool.table.lookup pool.layout addr).isSome} := by
      ext addr
      simp only [Set.mem_ofPred_eq, get_eq_iff valid, Option.isSome_iff_exists]
      rfl
    rw [same, counted]
    rfl
  cursor := valid.cursor
  current_held duid addr found := by
    rw [currentLease_eq valid, Except.ok.injEq] at found
    rcases heldBy_of_current valid found with ⟨entry, read, owner⟩
    exact ⟨entry, (get_eq_iff valid).mpr read, owner⟩
  current_missing duid := by
    rw [currentLease_eq valid, Except.ok.injEq, current_eq_none_iff valid,
      not_heldBy_iff valid]

/-- Whatever calls are made of a pool, its counters and its search stay exact, and no
call panics if the leases are no longer than can be configured. -/
theorem exact_of_run {hasher : Hasher Ipv6Addr Entry} {start : Ipv6Addr} {count : U64}
    {leaseDuration : Duration}
    (run : Run V6Pool.call (new hasher start count leaseDuration) past state) :
    state.Exact ∧ (leaseDuration ≤ Duration.longest →
      ∀ call, ∃ result, state.call call = .ok result) := by
  have valid := valid_reached run
  refine ⟨valid.exact, ?_⟩
  intro short call
  have kept : state.leaseDuration = leaseDuration :=
    (remains_of_run (valid_withStorage _ _ _ _ _) run).leaseDuration
  rcases call_effect valid call (call.fits (kept.trans_le short)) with ⟨next, answer, called, _⟩
  exact ⟨(next, answer), called⟩

def firstAddress : Ipv6Addr := .new 0xfd00 0 0 0 0 0 0 0x100

def secondAddress : Ipv6Addr := .new 0xfd00 0 0 0 0 0 0 0x101

/-- Two addresses, leased for ten seconds. -/
def twoAddresses : V6Pool := new Hasher.newestFirst firstAddress 2 10000000000

/-- A client is reserved two addresses and loses one of them. -/
theorem exact_of_run_duplicate :
    ∃ session, simulate V6Pool.call (.ok twoAddresses)
        [.insert firstAddress [1] none, .insert (.new 0xfd00 0 0 0 0 0 0 0x1) [1] none,
          .insert firstAddress [2] none, .release [1]] = .ok session ∧
      session.past.length = 4 ∧ session.state.Exact ∧
        ∀ call, ∃ result, session.state.call call = .ok result := by
  have computed : Checked.passes (simulate V6Pool.call (.ok twoAddresses)
      [.insert firstAddress [1] none, .insert (.new 0xfd00 0 0 0 0 0 0 0x1) [1] none,
        .insert firstAddress [2] none, .release [1]])
      (fun session => session.past.length = 4) = true := by decide
  rcases Checked.exists_of_passes computed with ⟨session, simulated, handled⟩
  rcases Run.of_simulate simulated with ⟨started, run⟩
  rw [← Except.ok.inj started] at run
  rcases exact_of_run run with ⟨exact, ends⟩
  exact ⟨session, simulated, of_decide_eq_true handled, exact, ends (by decide)⟩

/-! ## Hints -/

/-- Every hint points at an entry of the client it belongs to. -/
def HintsValid (pool : V6Pool) : Prop :=
  ∀ duid addr, pool.byDuid.get? duid = some addr →
    ∃ entry, pool.get addr = .ok (some entry) ∧ entry.duid = duid

/-- The call is no takeover that leaves a hint behind: no request of a client
without a lease for an available address to which somebody else's hint
leads. -/
def KeepsHints (pool : V6Pool) : PoolCall → Prop
  | .request duid addr now =>
      (∀ held, ¬pool.HeldBy held duid) → pool.available duid addr now = true →
        ∀ other, pool.byDuid.get? other = some addr → other = duid
  | _ => True

theorem hintsValid_iff (valid : pool.Valid) :
    pool.HintsValid ↔ pool.table.HintsValid pool.layout := by
  constructor
  · intro hints duid addr pointed
    rcases hints duid addr pointed with ⟨entry, found, owner⟩
    exact ⟨entry, (get_eq_iff valid).mp found, owner⟩
  · intro hints duid addr pointed
    rcases hints pointed with ⟨entry, found, owner⟩
    exact ⟨entry, (get_eq_iff valid).mpr found, owner⟩

/-- A call keeps correct hints correct exactly when it is no such takeover. -/
theorem Effect.hintsValid_iff (effect : Effect pool call next answer) (valid : pool.Valid)
    (hints : pool.HintsValid) : next.HintsValid ↔ pool.KeepsHints call := by
  have tableHints : pool.table.HintsValid pool.layout := (V6Pool.hintsValid_iff valid).mp hints
  cases effect with
  | inserted =>
      refine iff_of_true ?_ trivial
      exact (V6Pool.hintsValid_iff (valid_inserted valid)).mpr
        (SlotTable.hintsValid_insert valid.table tableHints)
  | released current =>
      refine iff_of_true ?_ trivial
      exact (V6Pool.hintsValid_iff (valid_released valid)).mpr
        (SlotTable.hintsValid_release valid.table tableHints (heldBy_of_current valid current))
  | requestedFree nothing free =>
      rw [V6Pool.hintsValid_iff (valid_leased valid)]
      refine (SlotTable.hintsValid_settle_iff valid.table tableHints).trans ⟨?_, ?_⟩
      · exact fun nobody _ _ => nobody
      · exact fun keeps => keeps nothing free
  | requestedHeld current =>
      have holds := heldBy_of_current valid current
      exact iff_of_true hints fun nothing => absurd holds (nothing _)
  | requestRefused _ taken =>
      apply iff_of_true hints
      intro _ free
      rw [taken] at free
      cases free
  | _ => exact iff_of_true hints trivial

theorem hintsValid_new {useSlots : Bool} {hasher : Hasher Ipv6Addr Entry} {start : Ipv6Addr}
    {count : U64} {leaseDuration : Duration} :
    (withStorage useSlots hasher start count leaseDuration).HintsValid := by
  intro duid addr pointed
  cases pointed

/-- Correct hints are never more than the leases. -/
theorem HintsValid.size_le (hints : pool.HintsValid) (valid : pool.Valid) :
    pool.byDuid.size ≤ pool.len :=
  SlotTable.size_hints_le valid.table ((hintsValid_iff valid).mp hints)

theorem hintsValid_run_iff (valid : initial.Valid) (start : initial.HintsValid)
    (run : Run V6Pool.call initial past state) :
    (state.HintsValid ∧ ∀ called ∈ past, called.before.HintsValid) ↔
      ∀ called ∈ past, called.before.KeepsHints called.input := by
  induction run with
  | start => simp [start]
  | @next past before call after answer earlier stepped induction =>
      have validBefore := valid_of_run valid earlier
      have effect := effect_of_called validBefore stepped
      simp only [List.forall_mem_cons]
      constructor
      · intro hints
        exact ⟨(effect.hintsValid_iff validBefore hints.2.1).mp hints.1,
          induction.mp hints.2⟩
      · intro keeps
        have hints := induction.mpr keeps.2
        exact ⟨(effect.hintsValid_iff validBefore hints.1).mpr keeps.1, hints⟩

/-- Every hint is correct in every state of a run exactly when no call of the
run is a takeover that leaves a hint behind. Then there are never more hints
than leases. -/
theorem hintsValid_of_run {hasher : Hasher Ipv6Addr Entry} {start : Ipv6Addr} {count : U64}
    {leaseDuration : Duration}
    (run : Run V6Pool.call (new hasher start count leaseDuration) past state) :
    ((state.HintsValid ∧ ∀ called ∈ past, called.before.HintsValid) ↔
        ∀ called ∈ past, called.before.KeepsHints called.input) ∧
      ((∀ called ∈ past, called.before.KeepsHints called.input) →
        state.byDuid.size ≤ state.len ∧
          ∀ called ∈ past, called.before.byDuid.size ≤ called.before.len) := by
  have valid : (new hasher start count leaseDuration).Valid := valid_withStorage _ _ _ _ _
  have exactly := hintsValid_run_iff valid hintsValid_new run
  refine ⟨exactly, ?_⟩
  intro keeps
  rcases exactly.mpr keeps with ⟨hints, earlierHints⟩
  refine ⟨hints.size_le (valid_of_run valid run), ?_⟩
  intro called listed
  rcases run.of_mem listed with ⟨_, earlier, _⟩
  exact (earlierHints called listed).size_le (valid_of_run valid earlier)

/-- Another client is offered an address before the first one leaves. -/
theorem hintsValid_of_run_offer :
    ∃ session, simulate V6Pool.call
        (.ok twoAddresses)
        [.request [1] firstAddress 0, .discover [2] 5, .release [1]] = .ok session ∧
      ((session.state.HintsValid ∧ ∀ called ∈ session.past, called.before.HintsValid) ↔
        ∀ called ∈ session.past, called.before.KeepsHints called.input) := by
  have computed : Checked.passes (simulate V6Pool.call
      (.ok twoAddresses)
      [.request [1] firstAddress 0, .discover [2] 5, .release [1]])
      (fun session => session.past.length = 3) = true := by decide
  rcases Checked.exists_of_passes computed with ⟨session, simulated, _⟩
  rcases Run.of_simulate simulated with ⟨started, run⟩
  rw [← Except.ok.inj started] at run
  exact ⟨session, simulated, (hintsValid_of_run run).1⟩

/-- The lease of a client expires and its address goes to another client: the
first client's hint stays. -/
theorem hint_left_behind :
    ∃ session, simulate V6Pool.call
        (.ok twoAddresses)
        [.request [1] firstAddress 0, .request [2] firstAddress 11000000000] = .ok session ∧
      ¬session.state.HintsValid ∧ session.state.len < session.state.byDuid.size := by
  have computed : Checked.passes (simulate V6Pool.call
      (.ok twoAddresses)
      [.request [1] firstAddress 0, .request [2] firstAddress 11000000000])
      (fun session => session.state.len < session.state.byDuid.size) = true := by decide
  rcases Checked.exists_of_passes computed with ⟨session, simulated, grown⟩
  have outgrown := of_decide_eq_true grown
  rcases Run.of_simulate simulated with ⟨started, run⟩
  rw [← Except.ok.inj started] at run
  have valid := valid_reached run
  exact ⟨session, simulated, fun hints => Nat.not_le.mpr outgrown (hints.size_le valid),
    outgrown⟩

end RustyDhcp.Dhcpv6.V6Pool
