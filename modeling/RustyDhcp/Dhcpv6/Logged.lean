import RustyDhcp.Dhcpv6.Console

/-! # Serving a packet, with what is printed

`serveV6Logged` is `serveV6` with its notes. -/

namespace RustyDhcp.Dhcpv6

section

variable (config : Config) (pool : V6Pool) (duid : Duid) (received : Received)

/-- The note that a Solicit begins with. -/
def solicitNote : Note :=
  .solicit duid received.packet.transactionId
    ((received.packet.firstIana.map IaNa.iaid).getD 0) (asksRapid config received.packet)

/-- How many leases there are, and how many addresses the pool has. -/
def exhaustedNote : Note :=
  .exhausted duid received.packet.transactionId (asksRapid config received.packet) pool.len
    pool.count.toNat

def solicitLogged : Checked (V6Pool × List Note × Option Sent) :=
  let tid := received.packet.transactionId
  let asked := solicitNote config duid received
  if asksRapid config received.packet then do
    match ← pool.discover duid received.discovered with
    | (pool, some offered) =>
        match ← pool.request duid offered received.requested with
        | (pool, .ok ip) =>
            return (pool, [asked, .committed duid tid ip],
              some (success config duid received .reply ip))
        | (pool, .error _) =>
            return (pool, [asked, exhaustedNote config pool duid received],
              some (failure config duid received .reply))
    | (pool, none) =>
        return (pool, [asked, exhaustedNote config pool duid received],
          some (failure config duid received .reply))
  else do
    match ← pool.discover duid received.discovered with
    | (pool, some ip) =>
        return (pool, [asked, .advertised duid tid ip],
          some (success config duid received .advertise ip))
    | (pool, none) =>
        return (pool, [asked, exhaustedNote config pool duid received],
          some (failure config duid received .advertise))

def requestLogged : Checked (V6Pool × List Note × Option Sent) :=
  let kind := received.packet.msgType
  let tid := received.packet.transactionId
  match received.packet.wanted with
  | none => .ok (pool, [.incomplete kind duid tid], none)
  | some addr => do
      match ← pool.request duid addr received.requested with
      | (pool, .ok ip) =>
          return (pool, [.replied kind duid tid addr ip],
            some (success config duid received .reply ip))
      | (pool, .error _) =>
          return (pool, [.refused kind duid tid addr],
            some (failure config duid received .reply))

def releaseLogged : Checked (V6Pool × List Note × Option Sent) :=
  let kind := received.packet.msgType
  let tid := received.packet.transactionId
  if isForServer config.serverDuid received.packet then do
    let (pool, held) ← pool.release duid
    return (pool, [if held then .freed kind duid tid else .noLease kind duid tid], none)
  else .ok (pool, [.ignored kind duid tid], none)

end

def serveV6Logged (config : Config) (pool : V6Pool) (received : Received) :
    Checked (V6Pool × List Note × Option Sent) :=
  match received.packet.clientDuid with
  | none => .ok (pool, [.anonymous received.packet.transactionId], none)
  | some duid =>
      match received.packet.msgType with
      | .solicit => solicitLogged config pool duid received
      | .request | .renew | .rebind => requestLogged config pool duid received
      | .release | .decline => releaseLogged config pool duid received
      | kind => .ok (pool, [.unsupported kind received.packet.transactionId], none)

/-- What serving a packet does and prints. -/
inductive Report (config : Config) (pool : V6Pool) (received : Received) :
    V6Pool → List Note → Option Sent → Prop
  | anonymous :
      received.packet.clientDuid = none →
      Report config pool received pool [.anonymous received.packet.transactionId] none
  | unsupported {duid} :
      received.packet.clientDuid = some duid →
      received.packet.msgType ∉
        [.solicit, .request, .renew, .rebind, .release, .decline] →
      Report config pool received pool
        [.unsupported received.packet.msgType received.packet.transactionId] none
  | heldCommitted {duid addr} :
      received.packet.clientDuid = some duid → received.packet.msgType = .solicit →
      asksRapid config received.packet = true → pool.current duid = some addr →
      Report config pool received pool
        [solicitNote config duid received,
          .committed duid received.packet.transactionId addr]
        (some (success config duid received .reply addr))
  | freeCommitted {duid offset} :
      received.packet.clientDuid = some duid → received.packet.msgType = .solicit →
      asksRapid config received.packet = true → pool.current duid = none →
      pool.FirstFree duid received.discovered offset →
      Report config pool received
        ((pool.atOffset offset).leased duid (pool.address offset) received.requested)
        [solicitNote config duid received,
          .committed duid received.packet.transactionId (pool.address offset)]
        (some (success config duid received .reply (pool.address offset)))
  | heldAdvertised {duid addr} :
      received.packet.clientDuid = some duid → received.packet.msgType = .solicit →
      asksRapid config received.packet = false → pool.current duid = some addr →
      Report config pool received pool
        [solicitNote config duid received,
          .advertised duid received.packet.transactionId addr]
        (some (success config duid received .advertise addr))
  | freeAdvertised {duid offset} :
      received.packet.clientDuid = some duid → received.packet.msgType = .solicit →
      asksRapid config received.packet = false → pool.current duid = none →
      pool.FirstFree duid received.discovered offset →
      Report config pool received (pool.atOffset offset)
        [solicitNote config duid received,
          .advertised duid received.packet.transactionId (pool.address offset)]
        (some (success config duid received .advertise (pool.address offset)))
  | exhausted {duid} :
      received.packet.clientDuid = some duid → received.packet.msgType = .solicit →
      pool.current duid = none →
      (∀ addr, pool.available duid addr received.discovered = false) →
      Report config pool received pool
        [solicitNote config duid received, exhaustedNote config pool duid received]
        (some (failure config duid received (solicitType config received.packet)))
  | incomplete {duid} :
      received.packet.clientDuid = some duid →
      received.packet.msgType ∈ [.request, .renew, .rebind] → received.packet.wanted = none →
      Report config pool received pool
        [.incomplete received.packet.msgType duid received.packet.transactionId] none
  | heldReplied {duid want addr} :
      received.packet.clientDuid = some duid →
      received.packet.msgType ∈ [.request, .renew, .rebind] →
      received.packet.wanted = some want → pool.current duid = some addr →
      Report config pool received pool
        [.replied received.packet.msgType duid received.packet.transactionId want addr]
        (some (success config duid received .reply addr))
  | freeReplied {duid want} :
      received.packet.clientDuid = some duid →
      received.packet.msgType ∈ [.request, .renew, .rebind] →
      received.packet.wanted = some want → pool.current duid = none →
      pool.available duid want received.requested = true →
      Report config pool received (pool.leased duid want received.requested)
        [.replied received.packet.msgType duid received.packet.transactionId want want]
        (some (success config duid received .reply want))
  | refused {duid want} :
      received.packet.clientDuid = some duid →
      received.packet.msgType ∈ [.request, .renew, .rebind] →
      received.packet.wanted = some want → pool.current duid = none →
      pool.available duid want received.requested = false →
      Report config pool received pool
        [.refused received.packet.msgType duid received.packet.transactionId want]
        (some (failure config duid received .reply))
  | freed {duid addr} :
      received.packet.clientDuid = some duid →
      received.packet.msgType ∈ [.release, .decline] →
      isForServer config.serverDuid received.packet = true → pool.current duid = some addr →
      Report config pool received (pool.released duid addr)
        [.freed received.packet.msgType duid received.packet.transactionId] none
  | nothingFreed {duid} :
      received.packet.clientDuid = some duid →
      received.packet.msgType ∈ [.release, .decline] →
      isForServer config.serverDuid received.packet = true → pool.current duid = none →
      Report config pool received pool
        [.noLease received.packet.msgType duid received.packet.transactionId] none
  | ignored {duid} :
      received.packet.clientDuid = some duid →
      received.packet.msgType ∈ [.release, .decline] →
      isForServer config.serverDuid received.packet = false →
      Report config pool received pool
        [.ignored received.packet.msgType duid received.packet.transactionId] none

variable {config : Config} {pool next : V6Pool} {received : Received} {duid : Duid}
variable {notes : List Note} {sent : Option Sent}

theorem solicitLogged_report (serves : Serves config pool)
    (client : received.packet.clientDuid = some duid)
    (kind : received.packet.msgType = .solicit) :
    ∃ next notes sent, solicitLogged config pool duid received = .ok (next, notes, sent) ∧
      Report config pool received next notes sent := by
  have valid := serves.valid
  cases found : pool.current duid with
  | some addr =>
      cases rapid : asksRapid config received.packet with
      | true =>
          simp only [solicitLogged, rapid, if_true, V6Pool.discover_held valid found,
            V6Pool.request_held valid found, Checked.bind_ok, Checked.pure_eq_ok]
          exact ⟨_, _, _, rfl, .heldCommitted client kind rapid found⟩
      | false =>
          simp only [solicitLogged, rapid, Bool.false_eq_true, if_false,
            V6Pool.discover_held valid found, Checked.bind_ok, Checked.pure_eq_ok]
          exact ⟨_, _, _, rfl, .heldAdvertised client kind rapid found⟩
  | none =>
      rcases V6Pool.firstFree_or_full valid duid received.discovered with ⟨offset, first⟩ | full
      · have discovered := V6Pool.discover_first valid found first
        cases rapid : asksRapid config received.packet with
        | true =>
            have requested := V6Pool.request_first valid found first received.ordered
              (serves.fits received.requested)
            simp only [solicitLogged, rapid, if_true, discovered, requested, Checked.bind_ok,
              Checked.pure_eq_ok]
            exact ⟨_, _, _, rfl, .freeCommitted client kind rapid found first⟩
        | false =>
            simp only [solicitLogged, rapid, Bool.false_eq_true, if_false, discovered,
              Checked.bind_ok, Checked.pure_eq_ok]
            exact ⟨_, _, _, rfl, .freeAdvertised client kind rapid found first⟩
      · have told := @Report.exhausted config pool received duid client kind found full
        rw [solicitType] at told
        cases rapid : asksRapid config received.packet with
        | true =>
            rw [rapid] at told
            simp only [solicitLogged, rapid, if_true, V6Pool.discover_exhausted valid found full,
              Checked.bind_ok, Checked.pure_eq_ok]
            exact ⟨_, _, _, rfl, told⟩
        | false =>
            rw [rapid] at told
            simp only [solicitLogged, rapid, Bool.false_eq_true, if_false,
              V6Pool.discover_exhausted valid found full, Checked.bind_ok, Checked.pure_eq_ok]
            exact ⟨_, _, _, rfl, told⟩

theorem requestLogged_report (serves : Serves config pool)
    (client : received.packet.clientDuid = some duid)
    (kind : received.packet.msgType ∈ [.request, .renew, .rebind]) :
    ∃ next notes sent, requestLogged config pool duid received = .ok (next, notes, sent) ∧
      Report config pool received next notes sent := by
  have valid := serves.valid
  cases wanted : received.packet.wanted with
  | none =>
      simp only [requestLogged, wanted]
      exact ⟨_, _, _, rfl, .incomplete client kind wanted⟩
  | some want =>
      cases found : pool.current duid with
      | some addr =>
          simp only [requestLogged, wanted, V6Pool.request_held valid found, Checked.bind_ok,
            Checked.pure_eq_ok]
          exact ⟨_, _, _, rfl, .heldReplied client kind wanted found⟩
      | none =>
          cases free : pool.available duid want received.requested with
          | true =>
              simp only [requestLogged, wanted, serves.request_free found free, Checked.bind_ok,
                Checked.pure_eq_ok]
              exact ⟨_, _, _, rfl, .freeReplied client kind wanted found free⟩
          | false =>
              simp only [requestLogged, wanted, V6Pool.request_refused valid found free,
                Checked.bind_ok, Checked.pure_eq_ok]
              exact ⟨_, _, _, rfl, .refused client kind wanted found free⟩

theorem releaseLogged_report (valid : pool.Valid)
    (client : received.packet.clientDuid = some duid)
    (kind : received.packet.msgType ∈ [.release, .decline]) :
    ∃ next notes sent, releaseLogged config pool duid received = .ok (next, notes, sent) ∧
      Report config pool received next notes sent := by
  cases ours : isForServer config.serverDuid received.packet with
  | false =>
      simp only [releaseLogged, ours, Bool.false_eq_true, if_false]
      exact ⟨_, _, _, rfl, .ignored client kind ours⟩
  | true =>
      cases found : pool.current duid with
      | some addr =>
          simp only [releaseLogged, ours, if_true, V6Pool.release_held valid found,
            Checked.bind_ok, Checked.pure_eq_ok]
          exact ⟨_, _, _, rfl, .freed client kind ours found⟩
      | none =>
          simp only [releaseLogged, ours, if_true, V6Pool.release_nothing valid found,
            Bool.false_eq_true, if_false, Checked.bind_ok, Checked.pure_eq_ok]
          exact ⟨_, _, _, rfl, .nothingFreed client kind ours found⟩

/-- The server serves every packet and prints what it does. -/
theorem serveV6Logged_report (serves : Serves config pool) (received : Received) :
    ∃ next notes sent, serveV6Logged config pool received = .ok (next, notes, sent) ∧
      Report config pool received next notes sent := by
  rw [serveV6Logged]
  cases client : received.packet.clientDuid with
  | none => exact ⟨_, _, _, rfl, .anonymous client⟩
  | some duid =>
      dsimp only
      cases kind : received.packet.msgType with
      | solicit => exact solicitLogged_report serves client kind
      | request | renew | rebind =>
          exact requestLogged_report serves client (by rw [kind]; decide)
      | release | decline =>
          exact releaseLogged_report serves.valid client (by rw [kind]; decide)
      | _ =>
          refine ⟨_, _, _, rfl, ?_⟩
          rw [← kind]
          exact .unsupported client (by rw [kind]; decide)

/-- What is done and answered, without the notes. -/
def unlogged (told : V6Pool × List Note × Option Sent) : V6Pool × Option Sent :=
  (told.1, told.2.2)

theorem solicitLogged_unlogged (duid : Duid) :
    (solicitLogged config pool duid received).map unlogged =
      solicit config pool duid received := by
  rw [solicitLogged, solicit, ← asksRapid]
  cases asksRapid config received.packet with
  | false =>
      simp only [Bool.false_eq_true, if_false]
      rcases pool.discover duid received.discovered with reason | ⟨next, _ | offered⟩
      · rfl
      · rfl
      · rfl
  | true =>
      simp only [if_true]
      rcases pool.discover duid received.discovered with reason | ⟨next, _ | offered⟩
      · rfl
      · rfl
      · simp only [Checked.bind_ok]
        rcases next.request duid offered received.requested with reason | ⟨last, _ | ip⟩
        · rfl
        · rfl
        · rfl

theorem requestLogged_unlogged (duid : Duid) :
    (requestLogged config pool duid received).map unlogged =
      request config pool duid received := by
  rw [requestLogged, request]
  cases received.packet.wanted with
  | none => rfl
  | some want =>
      dsimp only
      rcases pool.request duid want received.requested with reason | ⟨next, _ | ip⟩
      · rfl
      · rfl
      · rfl

theorem releaseLogged_unlogged (duid : Duid) :
    (releaseLogged config pool duid received).map unlogged =
      release config pool duid received := by
  rw [releaseLogged, release]
  cases isForServer config.serverDuid received.packet with
  | false => rfl
  | true =>
      simp only [if_true]
      rcases pool.release duid with reason | ⟨next, held⟩
      · rfl
      · rfl

/-- Printing changes nothing about what is done and answered. -/
theorem serveV6Logged_unlogged (config : Config) (pool : V6Pool) (received : Received) :
    (serveV6Logged config pool received).map unlogged = serveV6 config pool received := by
  rw [serveV6Logged, serveV6]
  cases received.packet.clientDuid with
  | none => rfl
  | some duid =>
      dsimp only
      cases received.packet.msgType with
      | solicit => exact solicitLogged_unlogged duid
      | request | renew | rebind => exact requestLogged_unlogged duid
      | release | decline => exact releaseLogged_unlogged duid
      | _ => rfl

end RustyDhcp.Dhcpv6
