import RustyDhcp.Dhcpv6.Serving

/-! # Offers of the DHCPv6 server

An offered address can be committed later, and a Solicit is answered with the
same address whether it asks for rapid commit or not. -/

namespace RustyDhcp.Dhcpv6

namespace V6Pool

variable {pool next : V6Pool} {addr : Ipv6Addr} {duid : Duid} {now earlier later : Instant}

/-- What is available stays available until somebody takes it. -/
theorem available_later (ordered : earlier ≤ later)
    (available : pool.available duid addr earlier = true) :
    pool.available duid addr later = true := by
  rw [available_iff] at available ⊢
  rcases available with ⟨inside, free⟩
  refine ⟨inside, ?_⟩
  intro old found
  rcases free old found with owner | ⟨limit, runsOut, past⟩
  · exact .inl owner
  · exact .inr ⟨limit, runsOut, Nat.lt_of_lt_of_le past ordered⟩

/-- The hint of a new lease leads to it. -/
theorem current_leased (valid : pool.Valid) :
    (pool.leased duid addr now).current duid = some addr := by
  have hint : (pool.leased duid addr now).table.hints.get? duid = some addr := by
    simp [leased, SlotTable.settle, layout]
  have found : (pool.leased duid addr now).entry addr =
      some ⟨duid, some (now + pool.leaseDuration)⟩ := by
    rw [entry_leased valid, Function.update_self]
  exact SlotTable.current_of_hint (valid_leased valid).table hint ⟨_, found, rfl⟩

/-- What the search stops at is still free later, and can be committed then. -/
theorem request_first {offset : Nat} (valid : pool.Valid) (nothing : pool.current duid = none)
    (first : pool.FirstFree duid earlier offset) (ordered : earlier ≤ later)
    (fits : Instant.Fits later pool.leaseDuration) :
    (pool.atOffset offset).request duid (pool.address offset) later =
      .ok ((pool.atOffset offset).leased duid (pool.address offset) later,
        .ok (pool.address offset)) := by
  have moved : (pool.atOffset offset).Valid := valid.atOffset first.lt
  have free : (pool.atOffset offset).available duid (pool.address offset) later = true :=
    available_later ordered first.available
  exact request_free moved nothing free fits

/-- An offer can be committed, and then it is the lease of the client. -/
theorem request_of_discover (valid : pool.Valid) (ordered : earlier ≤ later)
    (fits : Instant.Fits later pool.leaseDuration)
    (discovered : pool.discover duid earlier = .ok (next, some addr)) :
    ∃ committed, next.request duid addr later = .ok (committed, .ok addr) ∧
      committed.current duid = some addr ∧ committed.Valid := by
  cases current : pool.current duid with
  | some held =>
      rw [discover_held valid current] at discovered
      cases discovered
      exact ⟨pool, request_held valid current, current, valid⟩
  | none =>
      rcases discover_free valid current earlier with ⟨offset, first, found⟩ | ⟨_, found⟩
      · rw [found] at discovered
        cases discovered
        have moved : (pool.atOffset offset).Valid := valid.atOffset first.lt
        have requested := request_first valid current first ordered fits
        exact ⟨_, requested, current_leased moved, valid_leased moved⟩
      · rw [found] at discovered
        cases discovered

end V6Pool

/-! ## Solicits -/

/-- Rapid commit has to be enabled and asked for. -/
def asksRapid (config : Config) (packet : Packet) : Bool :=
  config.enableRapidCommit && (packet.option optRapidCommit).isSome

/-- The type of the answer to a Solicit. -/
def solicitType (config : Config) (packet : Packet) : MsgType :=
  if asksRapid config packet then .reply else .advertise

variable {config : Config} {pool next : V6Pool} {received : Received} {duid : Duid}
variable {addr : Ipv6Addr}

theorem solicit_held (valid : pool.Valid) (current : pool.current duid = some addr) :
    solicit config pool duid received = .ok (pool,
      some (success config duid received (solicitType config received.packet) addr)) := by
  rw [solicit, solicitType, ← asksRapid]
  cases asksRapid config received.packet with
  | false =>
      simp only [Bool.false_eq_true, if_false, V6Pool.discover_held valid current,
        Checked.bind_ok]
      rfl
  | true =>
      simp only [if_true, V6Pool.discover_held valid current, Checked.bind_ok,
        V6Pool.request_held valid current]
      rfl

/-- Rapid commit leases the first free address at once. -/
theorem solicit_free {offset : Nat} (serves : Serves config pool)
    (missing : pool.current duid = none)
    (first : pool.FirstFree duid received.discovered offset) :
    solicit config pool duid received = .ok
      (if asksRapid config received.packet then
          (pool.atOffset offset).leased duid (pool.address offset) received.requested
        else pool.atOffset offset,
      some (success config duid received (solicitType config received.packet)
        (pool.address offset))) := by
  have found := V6Pool.discover_first serves.valid missing first
  rw [solicit, solicitType, ← asksRapid]
  cases asksRapid config received.packet with
  | false =>
      simp only [Bool.false_eq_true, if_false, found, Checked.bind_ok]
      rfl
  | true =>
      have requested := V6Pool.request_first serves.valid missing first received.ordered
        (serves.fits received.requested)
      simp only [if_true, found, requested, Checked.bind_ok]
      rfl

theorem solicit_exhausted (valid : pool.Valid) (missing : pool.current duid = none)
    (full : ∀ addr, pool.available duid addr received.discovered = false) :
    solicit config pool duid received = .ok (pool,
      some (failure config duid received (solicitType config received.packet))) := by
  have nothing := V6Pool.discover_exhausted valid missing full
  rw [solicit, solicitType, ← asksRapid]
  cases asksRapid config received.packet with
  | false =>
      simp only [Bool.false_eq_true, if_false, nothing, Checked.bind_ok]
      rfl
  | true =>
      simp only [if_true, nothing, Checked.bind_ok]
      rfl

/-! ## Serving is calling

Every pool that the server gets to can be got to by calls. -/

/-- Calls lead from one pool to the other. -/
def Leads (pool next : V6Pool) : Prop := ∃ past, Run V6Pool.call pool past next

theorem Leads.refl (pool : V6Pool) : Leads pool pool := ⟨[], .start⟩

theorem Leads.trans {middle : V6Pool} (first : Leads pool middle) (second : Leads middle next) :
    Leads pool next := by
  rcases first with ⟨earlier, first⟩
  rcases second with ⟨later, second⟩
  exact ⟨later ++ earlier, first.append second⟩

theorem Leads.of_call {call : PoolCall} {answer : PoolAnswer}
    (called : pool.call call = .ok (next, answer)) : Leads pool next :=
  ⟨_, .next .start called⟩

theorem Leads.of_discover {now : Reading} {found : Option Ipv6Addr}
    (discovered : pool.discover duid now = .ok (next, found)) : Leads pool next := by
  have called : pool.call (.discover duid now) = .ok (next, .discovered found) := by
    rw [V6Pool.call, discovered]
    rfl
  exact .of_call called

theorem Leads.of_request {now : Reading} {result : Except String Ipv6Addr}
    (requested : pool.request duid addr now = .ok (next, result)) : Leads pool next := by
  have called : pool.call (.request duid addr now) = .ok (next, .requested result) := by
    rw [V6Pool.call, requested]
    rfl
  exact .of_call called

theorem Leads.of_release {held : Bool} (released : pool.release duid = .ok (next, held)) :
    Leads pool next := by
  have called : pool.call (.release duid) = .ok (next, .released held) := by
    rw [V6Pool.call, released]
    rfl
  exact .of_call called

theorem leads_of_solicit {sent : Option Sent}
    (served : solicit config pool duid received = .ok (next, sent)) : Leads pool next := by
  rw [solicit] at served
  split at served
  · rcases Checked.bind_eq_ok_iff.mp served with ⟨⟨middle, found⟩, discovered, rest⟩
    cases found with
    | none =>
        cases rest
        exact .of_discover discovered
    | some offered =>
        rcases Checked.bind_eq_ok_iff.mp rest with ⟨⟨last, result⟩, requested, finish⟩
        cases result <;> cases finish <;>
          exact (Leads.of_discover discovered).trans (.of_request requested)
  · rcases Checked.bind_eq_ok_iff.mp served with ⟨⟨middle, found⟩, discovered, rest⟩
    cases found <;> cases rest <;> exact .of_discover discovered

theorem leads_of_request {sent : Option Sent}
    (served : request config pool duid received = .ok (next, sent)) : Leads pool next := by
  rw [request] at served
  split at served
  · cases served
    exact .refl pool
  · rcases Checked.bind_eq_ok_iff.mp served with ⟨⟨last, result⟩, requested, finish⟩
    cases result <;> cases finish <;> exact .of_request requested

theorem leads_of_release {sent : Option Sent}
    (served : release config pool duid received = .ok (next, sent)) : Leads pool next := by
  rw [release] at served
  split at served
  · rcases Checked.bind_eq_ok_iff.mp served with ⟨⟨last, held⟩, released, finish⟩
    cases finish
    exact .of_release released
  · cases served
    exact .refl pool

theorem leads_of_served {sent : Option Sent}
    (served : serveV6 config pool received = .ok (next, sent)) : Leads pool next := by
  rw [serveV6] at served
  split at served
  · cases served
    exact .refl pool
  · split at served
    · exact leads_of_solicit served
    · exact leads_of_request served
    · exact leads_of_request served
    · exact leads_of_request served
    · exact leads_of_release served
    · exact leads_of_release served
    · cases served
      exact .refl pool

theorem leads_of_loadLeases {lines : List (Option Text)}
    (loaded : loadLeases pool lines = .ok next) : Leads pool next := by
  induction lines generalizing pool with
  | nil =>
      cases loaded
      exact .refl _
  | cons line lines induction =>
      rcases Checked.bind_eq_ok_iff.mp loaded with ⟨middle, first, rest⟩
      rw [loadLine] at first
      split at first
      · rename_i duid ip _
        have called : pool.call (.insert ip duid none) = .ok (middle, .inserted) := by
          rw [V6Pool.call, first]
          rfl
        exact (Leads.of_call called).trans (induction rest)
      · cases first
        exact induction rest

/-- Whatever the server serves, its pool is one that calls lead to. -/
theorem leads_of_serving {hasher : Hasher Ipv6Addr V6Pool.Entry} {file : LeasesFile}
    {initial state : V6Pool} {past : List Serving}
    (started : startPool config hasher file = .ok initial)
    (run : Run (serveV6 config) initial past state) : Leads (emptyPool config hasher) state := by
  have start : Leads (emptyPool config hasher) initial := by
    cases file with
    | none =>
        cases started
        exact .refl _
    | some lines => exact leads_of_loadLeases started
  exact run.invariant start fun before served => before.trans (leads_of_served served)

/-! ## The Solicit that does not ask for rapid commit -/

def Packet.withoutRapidCommit (packet : Packet) : Packet :=
  { packet with options := packet.options.filter fun option => option.code ≠ optRapidCommit }

def Received.plain (received : Received) : Received :=
  { received with packet := received.packet.withoutRapidCommit }

theorem option_withoutRapidCommit {packet : Packet} {code : U16} (other : code ≠ optRapidCommit) :
    packet.withoutRapidCommit.option code = packet.option code := by
  rw [Packet.option, Packet.option, Packet.withoutRapidCommit, List.find?_filter]
  congr 1
  funext option
  by_cases same : option.code = code
  · simp [same, other]
  · simp [same]

theorem clientDuid_plain : received.plain.packet.clientDuid = received.packet.clientDuid := by
  have same : received.plain.packet.option optClientid = received.packet.option optClientid :=
    option_withoutRapidCommit (by decide)
  rw [Packet.clientDuid, Packet.clientDuid, same]

theorem asksRapid_plain : asksRapid config received.plain.packet = false := by
  have none : received.plain.packet.option optRapidCommit = none := by
    apply List.find?_eq_none.mpr
    intro option listed
    simpa using (List.mem_filter.mp listed).2
  rw [asksRapid, none]
  exact Bool.and_false _

/-! ## Committing an offer -/

/-- The packet says that there is no address. -/
def Packet.Refuses (packet : Packet) : Prop :=
  ∃ text, .statusCode statusNoAddrsAvail text ∈ packet.options

theorem refuses_failure {msgType : MsgType} :
    (failure config duid received msgType).packet.Refuses :=
  ⟨"NoAddrsAvail".toList, by simp [failure, sendV6Nodata]⟩

theorem not_refuses_success {msgType : MsgType} :
    ¬(success config duid received msgType addr).packet.Refuses := by
  intro refuses
  rcases refuses with ⟨text, listed⟩
  cases dns : config.ipv6Dns <;> simp [success, sendV6, dns] at listed

theorem serveV6_solicit (sender : received.packet.clientDuid = some duid)
    (kind : received.packet.msgType = .solicit) :
    serveV6 config pool received = solicit config pool duid received := by
  simp only [serveV6, sender, kind]

/-- Rapid commit never fails to commit what it found, and finds nothing exactly
when nothing would be offered. -/
theorem rapid_refuses_iff (serves : Serves config pool)
    (sender : received.packet.clientDuid = some duid)
    (kind : received.packet.msgType = .solicit) (rapid : asksRapid config received.packet = true) :
    ∃ next answer plainNext plainAnswer,
      serveV6 config pool received = .ok (next, some answer) ∧
      serveV6 config pool received.plain = .ok (plainNext, some plainAnswer) ∧
      answer.packet.msgType = .reply ∧ plainAnswer.packet.msgType = .advertise ∧
      (answer.packet.Refuses ↔ plainAnswer.packet.Refuses) := by
  have valid := serves.valid
  have plainSender : received.plain.packet.clientDuid = some duid :=
    clientDuid_plain.trans sender
  rw [serveV6_solicit sender kind, serveV6_solicit plainSender kind]
  cases current : pool.current duid with
  | some addr =>
      rw [solicit_held valid current, solicit_held valid current, solicitType, solicitType,
        rapid, asksRapid_plain]
      exact ⟨_, _, _, _, rfl, rfl, rfl, rfl,
        iff_of_false not_refuses_success not_refuses_success⟩
  | none =>
      rcases V6Pool.firstFree_or_full valid duid received.discovered with ⟨offset, first⟩ | full
      · have plainFirst : pool.FirstFree duid received.plain.discovered offset := first
        rw [solicit_free serves current first, solicit_free serves current plainFirst, solicitType,
          solicitType, rapid, asksRapid_plain]
        exact ⟨_, _, _, _, rfl, rfl, rfl, rfl,
          iff_of_false not_refuses_success not_refuses_success⟩
      · have plainFull : ∀ addr, pool.available duid addr received.plain.discovered = false :=
          full
        rw [solicit_exhausted valid current full, solicit_exhausted valid current plainFull,
          solicitType, solicitType, rapid, asksRapid_plain]
        exact ⟨_, _, _, _, rfl, rfl, rfl, rfl, iff_of_true refuses_failure refuses_failure⟩

/-- What the pool offers can be committed later. -/
theorem V6Pool.commits_of_run {hasher : Hasher Ipv6Addr V6Pool.Entry} {start : Ipv6Addr}
    {count : U64} {leaseDuration : Duration} {past : List V6Pool.Called} {state : V6Pool}
    (run : Run V6Pool.call (V6Pool.new hasher start count leaseDuration) past state)
    {earlier later : Instant} (ordered : earlier ≤ later)
    (fits : Instant.Fits later leaseDuration)
    (discovered : state.discover duid earlier = .ok (next, some addr)) :
    ∃ committed, next.request duid addr later = .ok (committed, .ok addr) ∧
      committed.currentLease duid = .ok (some addr) := by
  have remains := V6Pool.remains_of_run (V6Pool.valid_withStorage _ _ _ _ _) run
  rw [← show state.leaseDuration = leaseDuration from remains.leaseDuration] at fits
  rcases V6Pool.request_of_discover remains.valid ordered fits discovered with
    ⟨committed, requested, current, kept⟩
  exact ⟨committed, requested, by rw [V6Pool.currentLease_eq kept, current]⟩

/-- Every offer can be committed later, if the lease runs out at an `Instant`, as every lease
of the server does, and then it is the lease of the client. So a rapid commit never ends with
an offer that is refused, and answers that there is no address exactly when nothing would be
offered. -/
theorem offer_commits_of_run :
    (∀ {hasher start count leaseDuration past state},
      Run V6Pool.call (V6Pool.new hasher start count leaseDuration) past state →
      ∀ {duid earlier later next addr}, earlier ≤ later → Instant.Fits later leaseDuration →
        state.discover duid earlier = .ok (next, some addr) →
        ∃ committed, next.request duid addr later = .ok (committed, .ok addr) ∧
          committed.currentLease duid = .ok (some addr)) ∧
    ∀ {config hasher file initial past state}, startPool config hasher file = .ok initial →
      Run (serveV6 config) initial past state →
      ∀ {received duid}, received.packet.clientDuid = some duid →
        received.packet.msgType = .solicit → asksRapid config received.packet = true →
        (∀ {middle offered},
          state.discover duid received.discovered = .ok (middle, some offered) →
          ∀ next message,
            middle.request duid offered received.requested ≠ .ok (next, .error message)) ∧
        ∃ next answer plainNext plainAnswer,
          serveV6 config state received = .ok (next, some answer) ∧
          serveV6 config state received.plain = .ok (plainNext, some plainAnswer) ∧
          answer.packet.msgType = .reply ∧ plainAnswer.packet.msgType = .advertise ∧
          (answer.packet.Refuses ↔ plainAnswer.packet.Refuses) := by
  refine ⟨?_, ?_⟩
  · intro hasher start count leaseDuration past state run duid earlier later next addr
    exact V6Pool.commits_of_run run
  · intro config hasher file initial past state started run received duid sender kind rapid
    rcases leads_of_serving started run with ⟨calls, reached⟩
    have serves := serves_of_run (serves_of_started started) run
    refine ⟨?_, rapid_refuses_iff serves sender kind rapid⟩
    intro middle offered discovered next message refused
    have fits := received.requested.fits (Duration.ofSecs_le_longest config.ipv6LeaseDurationSecs)
    rcases V6Pool.commits_of_run reached received.ordered fits discovered with
      ⟨committed, requested, _⟩
    rw [refused] at requested
    cases requested

def rapidConfig : Config := { twoAddressConfig with enableRapidCommit := true }

/-- A Solicit that asks for rapid commit. -/
def rapidSolicit : Received where
  src := .v6 .unspecified 546
  packet :=
    { msgType := .solicit
      transactionId := 1
      options := [.clientId [2], .unrecognized ⟨14, []⟩, .iaNa ⟨1, 0, 0, []⟩] }
  discovered := 6
  requested := 7
  ordered := by decide

/-- A newcomer to a pool with one of its two addresses leased. -/
theorem offer_commits_of_run_newcomer :
    (∃ session, simulate V6Pool.call (.ok V6Pool.twoAddresses)
        [.request [1] V6Pool.firstAddress 5] = .ok session ∧
      ∃ next addr, session.state.discover [2] 6 = .ok (next, some addr) ∧
        ∃ committed, next.request [2] addr 7 = .ok (committed, .ok addr) ∧
          committed.currentLease [2] = .ok (some addr)) ∧
    ∃ session, simulate (serveV6 rapidConfig) (startPool rapidConfig Hasher.newestFirst none)
        [.fromClient .request [1] V6Pool.firstAddress 5] = .ok session ∧
      ∃ next answer plainNext plainAnswer,
        serveV6 rapidConfig session.state rapidSolicit = .ok (next, some answer) ∧
        serveV6 rapidConfig session.state rapidSolicit.plain = .ok (plainNext, some plainAnswer) ∧
        answer.packet.msgType = .reply ∧ plainAnswer.packet.msgType = .advertise ∧
        (answer.packet.Refuses ↔ plainAnswer.packet.Refuses) := by
  refine ⟨?_, ?_⟩
  · have computed : Checked.passes (simulate V6Pool.call (.ok V6Pool.twoAddresses)
        [.request [1] V6Pool.firstAddress 5])
        (fun session => Checked.passes (session.state.discover [2] 6)
          fun result => result.2.isSome) = true := by decide
    rcases Checked.exists_of_passes computed with ⟨session, simulated, tested⟩
    rcases Checked.exists_some_of_passes tested with ⟨next, addr, discovered⟩
    rcases Run.of_simulate simulated with ⟨started, run⟩
    rw [← Except.ok.inj started] at run
    exact ⟨session, simulated, next, addr, discovered,
      offer_commits_of_run.1 run (show 6 ≤ 7 by decide) (by decide) discovered⟩
  · have computed : Checked.passes (simulate (serveV6 rapidConfig)
        (startPool rapidConfig Hasher.newestFirst none)
        [.fromClient .request [1] V6Pool.firstAddress 5])
        (fun session => session.past.length = 1) = true := by decide
    rcases Checked.exists_of_passes computed with ⟨session, simulated, _⟩
    rcases Run.of_simulate simulated with ⟨started, run⟩
    exact ⟨session, simulated, (offer_commits_of_run.2 started run rfl rfl rfl).2⟩

end RustyDhcp.Dhcpv6
