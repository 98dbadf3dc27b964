import RustyDhcp.Dhcpv6.PoolInvariant

/-! # Isolation between DHCPv6 clients -/

namespace RustyDhcp.Dhcpv6.V6Pool

variable {pool state next : V6Pool}
variable {duid : Duid} {addr : Ipv6Addr} {now : Instant} {past : List Called}

/-- What a request leaves behind: nothing new, or one entry at a place of the
range that was empty or whose time was over. -/
inductive RequestChange (pool : V6Pool) (duid : Duid) (addr : Ipv6Addr) (now : Instant) :
    V6Pool → Except String Ipv6Addr → Prop
  | refused {message} : RequestChange pool duid addr now pool (.error message)
  | held {current} : pool.HeldBy current duid →
      RequestChange pool duid addr now pool (.ok current)
  | written {next : V6Pool} :
      pool.start.toNat ≤ addr.bits.toNat →
      addr.bits.toNat < pool.start.toNat + pool.count.toNat →
      (∀ old, pool.entry addr = some old →
        old.duid ≠ duid ∧ ∃ limit, old.expiry = some limit ∧ limit < now) →
      next.entry = Function.update pool.entry addr
        (some ⟨duid, some (now + pool.leaseDuration)⟩) →
      RequestChange pool duid addr now next (.ok addr)

inductive ReleaseChange (pool : V6Pool) (duid : Duid) : V6Pool → Bool → Prop
  | removed {next : V6Pool} {freed} : pool.HeldBy freed duid →
      next.entry = Function.update pool.entry freed none →
      ReleaseChange pool duid next true
  | nothing : (∀ held, ¬pool.HeldBy held duid) → ReleaseChange pool duid pool false

/-- What the calls of `duid` do to the entries, whoever holds them. A request for a lease
that would run out behind the last `Instant` panics, before it has written anything. -/
structure Isolated (pool : V6Pool) (duid : Duid) (addr : Ipv6Addr) (now : Instant) :
    Prop where
  discover : ∃ next found, pool.discover duid now = .ok (next, found) ∧
    next.entry = pool.entry
  request : (∃ next result, pool.request duid addr now = .ok (next, result) ∧
      RequestChange pool duid addr now next result) ∨
    ¬Instant.Fits now pool.leaseDuration ∧ pool.request duid addr now = .error .unwrapFailed
  release : ∃ next held, pool.release duid = .ok (next, held) ∧
    ReleaseChange pool duid next held
  protects : ∀ other old, pool.entry other = some old → old.duid ≠ duid →
    (∀ limit, old.expiry = some limit → now ≤ limit) →
    (∀ discovered, pool.discover duid now = .ok discovered →
        discovered.1.entry other = some old) ∧
      (∀ requested, pool.request duid addr now = .ok requested →
        requested.1.entry other = some old) ∧
      ∀ released, pool.release duid = .ok released → released.1.entry other = some old

theorem discover_isolated (valid : pool.Valid) :
    ∃ next found, pool.discover duid now = .ok (next, found) ∧ next.entry = pool.entry := by
  cases current : pool.current duid with
  | some held => exact ⟨pool, some held, discover_held valid current, rfl⟩
  | none =>
      rcases discover_free valid current now with ⟨offset, _, discovered⟩ | ⟨_, discovered⟩
      · exact ⟨_, _, discovered, rfl⟩
      · exact ⟨_, _, discovered, rfl⟩

theorem request_isolated (valid : pool.Valid) :
    (∃ next result, pool.request duid addr now = .ok (next, result) ∧
        RequestChange pool duid addr now next result) ∨
      ¬Instant.Fits now pool.leaseDuration ∧
        pool.request duid addr now = .error .unwrapFailed := by
  cases current : pool.current duid with
  | some held =>
      exact .inl ⟨_, _, request_held valid current, .held (heldBy_of_current valid current)⟩
  | none =>
      cases accepted : pool.available duid addr now with
      | false => exact .inl ⟨_, _, request_refused valid current accepted, .refused⟩
      | true =>
          by_cases fits : Instant.Fits now pool.leaseDuration
          · have nothing := (current_eq_none_iff valid).mp current
            rcases foreign_of_available nothing accepted with ⟨inside, free⟩
            have range := valid.inRange_iff.mp inside
            exact .inl ⟨_, _, request_free valid current accepted fits,
              .written range.2.1 range.2.2 free (entry_leased valid)⟩
          · exact .inr ⟨fits, request_late valid current accepted fits⟩

theorem release_isolated (valid : pool.Valid) :
    ∃ next held, pool.release duid = .ok (next, held) ∧ ReleaseChange pool duid next held := by
  cases current : pool.current duid with
  | some held =>
      exact ⟨_, _, release_held valid current,
        .removed (heldBy_of_current valid current) (entry_released valid)⟩
  | none =>
      exact ⟨_, _, release_nothing valid current,
        .nothing ((current_eq_none_iff valid).mp current)⟩

section

variable {other : Ipv6Addr} {old : Entry}

theorem RequestChange.protects {result : Except String Ipv6Addr}
    (change : RequestChange pool duid addr now next result)
    (found : pool.entry other = some old)
    (running : ∀ limit, old.expiry = some limit → now ≤ limit) :
    next.entry other = some old := by
  cases change with
  | refused => exact found
  | held => exact found
  | written _ _ free updated =>
      have different : other ≠ addr := by
        intro same
        subst same
        rcases (free old found).2 with ⟨limit, timed, passed⟩
        exact Nat.not_lt.mpr (running limit timed) passed
      rw [updated, Function.update_of_ne different, found]

theorem ReleaseChange.protects {held : Bool} (change : ReleaseChange pool duid next held)
    (found : pool.entry other = some old) (foreign : old.duid ≠ duid) :
    next.entry other = some old := by
  cases change with
  | nothing => exact found
  | @removed _ freed holds updated =>
      have different : other ≠ freed := by
        intro same
        subst same
        rcases holds with ⟨entry, read, owner⟩
        change pool.entry other = some entry at read
        rw [found] at read
        cases read
        exact foreign owner
      rw [updated, Function.update_of_ne different, found]

end

theorem Valid.isolated (valid : pool.Valid) : pool.Isolated duid addr now where
  discover := discover_isolated valid
  request := request_isolated valid
  release := release_isolated valid
  protects other old found foreign running := by
    refine ⟨?_, ?_, ?_⟩
    · intro discovered ran
      rcases discover_isolated valid with ⟨next, answer, answered, same⟩
      cases answered.symm.trans ran
      rw [same, found]
    · intro requested ran
      rcases request_isolated valid with ⟨next, result, asked, change⟩ | ⟨_, panicked⟩
      · cases asked.symm.trans ran
        exact change.protects found running
      · cases panicked.symm.trans ran
    · intro released ran
      rcases release_isolated valid with ⟨next, held, freed, removal⟩
      cases freed.symm.trans ran
      exact removal.protects found foreign

/-- In every state that calls can reach, the calls of a client touch no more
than its own business. With the lease times that can be configured, no request panics. -/
theorem isolated_of_calls {hasher : Hasher Ipv6Addr Entry} {start : Ipv6Addr} {count : U64}
    {leaseDuration : Duration}
    (run : Run V6Pool.call (new hasher start count leaseDuration) past state)
    (duid : Duid) (addr : Ipv6Addr) (now : Instant) :
    state.Isolated duid addr now ∧ (leaseDuration ≤ Duration.longest → ∀ reading : Reading,
      ∃ next result, state.request duid addr reading = .ok (next, result) ∧
        RequestChange state duid addr reading next result) := by
  refine ⟨(valid_reached run).isolated, ?_⟩
  intro short reading
  have kept : state.leaseDuration = leaseDuration :=
    (remains_of_run (valid_withStorage _ _ _ _ _) run).leaseDuration
  rcases request_isolated (valid_reached run) with returns | ⟨late, _⟩
  · exact returns
  · exact absurd (reading.fits (kept.trans_le short)) late

/-- A third client's calls while one client has a timed lease and another one a
reservation. -/
theorem isolated_of_calls_reservation :
    ∃ session, simulate V6Pool.call (.ok twoAddresses)
        [.request [1] firstAddress 0,
          .insert (.new 0xfd00 0 0 0 0 0 0 0x101) [2] none] = .ok session ∧
      session.state.Isolated [3] firstAddress 5 ∧ ∃ next result,
        session.state.request [3] firstAddress 5 = .ok (next, result) ∧
          RequestChange session.state [3] firstAddress 5 next result := by
  have computed : Checked.passes (simulate V6Pool.call (.ok twoAddresses)
      [.request [1] firstAddress 0, .insert (.new 0xfd00 0 0 0 0 0 0 0x101) [2] none])
      (fun session => session.past.length = 2) = true := by decide
  rcases Checked.exists_of_passes computed with ⟨session, simulated, _⟩
  rcases Run.of_simulate simulated with ⟨started, run⟩
  rw [← Except.ok.inj started] at run
  rcases isolated_of_calls run [3] firstAddress 5 with ⟨isolated, requests⟩
  exact ⟨session, simulated, isolated, requests (by decide) 5⟩

end RustyDhcp.Dhcpv6.V6Pool
