import RustyDhcp.Dhcpv6.Logged

/-! # Reading the DHCPv6 log

No client can put a blank or a line break into a line, so that the printed text alone
tells who holds which address. -/

namespace RustyDhcp.Dhcpv6

/-- Who holds which address, to a reader of the log. -/
abbrev Ledger := Ipv6Addr → Option Duid

/-- What a line tells about the leases. -/
inductive Posting where
  | granted (duid : Duid) (ip : Ipv6Addr)
  | freed (duid : Duid)
deriving DecidableEq

def Posting.enter (ledger : Ledger) : Posting → Ledger
  | granted duid ip => Function.update ledger ip (some duid)
  -- The line does not name the address.
  | freed duid => fun addr => (ledger addr).filter fun holder => holder ≠ duid

def Note.posting : Note → Option Posting
  | committed duid _ ip => some (.granted duid ip)
  | replied _ duid _ _ ip => some (.granted duid ip)
  | freed _ duid _ => some (.freed duid)
  | _ => none

/-! ## From the text to the notes -/

/-- The client in a word `duid=…`. -/
def readClient (word : Text) : Option Duid :=
  let client := word.drop 5
  if client = "-".toList then some [] else (parseDuidHex client).toOption

def readGrant (client ip : Text) : Option Posting := do
  return .granted (← readClient client) (← parseIpv6Addr ip)

/-- What a line tells about the leases. The number of its words says which line it is,
but for two. -/
def readPosting (line : Text) : Option Posting :=
  match line.splitOn ' ' with
  | [_, _, client, _, _, _, ip, _, _] => readGrant client ip
  | [_, _, client, _, _, _, _, ip] => readGrant client ip
  | [_, _, client, _, done, _] =>
      if done = "freed".toList then (readClient client).map .freed else none
  | _ => none

/-- Each note on a line of its own. -/
def printed (notes : List Note) : Text := notes.flatMap fun note => note.text ++ ['\n']

theorem readClient_clientText (duid : Duid) :
    readClient ("duid=".toList ++ clientText duid) = some duid := by
  have client : ("duid=".toList ++ clientText duid).drop 5 = clientText duid := rfl
  rw [readClient, client]
  cases duid with
  | nil => rfl
  | cons byte rest =>
      have read : parseDuidHex (clientText (byte :: rest)) = .ok (byte :: rest) := by
        rw [clientText_cons]
        exact RustyDhcp.Duid.parseDuidHex_of_writes (RustyDhcp.Duid.writes_intercalate _)
          (List.cons_ne_nil byte rest)
      have digits : clientText (byte :: rest) ≠ "-".toList := by
        intro dash
        rw [dash] at read
        cases read
      rw [if_neg digits, read]
      rfl

theorem readGrant_eq (duid : Duid) (ip : Ipv6Addr) :
    readGrant ("duid=".toList ++ clientText duid) ip.toText = some (.granted duid ip) := by
  rw [readGrant, readClient_clientText, Ipv6Addr.parseIpv6Addr_toText]
  rfl

/-- A line tells what its note does. -/
theorem readPosting_text (note : Note) : readPosting note.text = note.posting := by
  rw [readPosting, Note.splitOn_text]
  cases note with
  | committed duid tid ip => exact readGrant_eq duid ip
  | replied kind duid tid want ip => exact readGrant_eq duid ip
  | freed kind duid tid =>
      exact congrArg (Option.map Posting.freed) (readClient_clientText duid)
  | _ => rfl

/-- The lines are those that were printed. -/
theorem lines_printed (notes : List Note) :
    Lines.of '\n' '\r' (printed notes) = notes.map Note.text := by
  apply Lines.of_flatMap Note.text
  · exact fun note _ => note.not_mem_text rfl (by decide)
  · exact fun note _ last => note.not_mem_text rfl (by decide) (List.mem_of_getLast? last)

/-! ## From the notes to the leases -/

namespace V6Pool

variable {pool next : V6Pool} {addr : Ipv6Addr} {duid : Duid} {now : Instant}

def holder (pool : V6Pool) (addr : Ipv6Addr) : Option Duid :=
  (pool.leases addr).map Lease.holder

theorem heldBy_iff_holder : pool.HeldBy addr duid ↔ pool.holder addr = some duid := by
  rw [← leases_heldBy_iff, holder, Option.map_eq_some_iff]
  exact Iff.rfl

theorem holder_of_leases_update {lease : Option (Lease Duid)}
    (updated : next.leases = Function.update pool.leases addr lease) :
    next.holder = Function.update pool.holder addr (lease.map Lease.holder) := by
  funext other
  rw [holder, updated]
  by_cases same : other = addr
  · rw [same, Function.update_self, Function.update_self]
  · rw [Function.update_of_ne same, Function.update_of_ne same]
    rfl

theorem holder_leased (valid : pool.Valid) :
    (pool.leased duid addr now).holder = Function.update pool.holder addr (some duid) :=
  holder_of_leases_update (leases_leased valid)

theorem enter_held (valid : pool.Valid) (current : pool.current duid = some addr) :
    Posting.enter pool.holder (.granted duid addr) = pool.holder := by
  rw [Posting.enter, ← heldBy_iff_holder.mp (heldBy_of_current valid current)]
  exact Function.update_eq_self addr pool.holder

/-- Where nobody holds two addresses, it is clear which one is given up. -/
theorem enter_freed (valid : pool.Valid) (single : pool.leases.SingleHolding)
    (current : pool.current duid = some addr) :
    Posting.enter pool.holder (.freed duid) = (pool.released duid addr).holder := by
  have held := heldBy_of_current valid current
  rw [holder_of_leases_update (leases_released valid)]
  funext other
  rw [Posting.enter]
  dsimp only
  by_cases same : other = addr
  · rw [same, heldBy_iff_holder.mp held, Function.update_self]
    simp
  · rw [Function.update_of_ne same]
    cases found : pool.holder other with
    | none => rw [Option.filter_none]
    | some owner =>
        have different : owner ≠ duid := by
          intro equal
          subst equal
          exact same (single (leases_heldBy_iff.mpr (heldBy_iff_holder.mpr found))
            (leases_heldBy_iff.mpr held))
        simp [different]

end V6Pool

variable {config : Config} {pool next initial state : V6Pool} {received : Received}
variable {notes : List Note} {sent : Option Sent}

/-- The notes about a packet are what it does to the leases. -/
theorem Report.ledger (report : Report config pool received next notes sent)
    (steady : V6Pool.Steady config pool) :
    (notes.filterMap Note.posting).foldl Posting.enter pool.holder = next.holder := by
  have valid := steady.serves.valid
  cases report with
  | heldCommitted _ _ _ current => exact V6Pool.enter_held valid current
  | heldReplied _ _ _ current => exact V6Pool.enter_held valid current
  | freeCommitted _ _ _ _ first => exact (V6Pool.holder_leased (valid.atOffset first.lt)).symm
  | freeReplied => exact (V6Pool.holder_leased valid).symm
  | freed _ _ _ current => exact V6Pool.enter_freed valid steady.single current
  | _ => rfl

/-! ## The log of a run -/

/-- `round` with its notes. -/
def roundLogged (config : Config) (pool : V6Pool) (arrival : Arrival IoError) :
    Checked (V6Pool × List Note × Reaction) :=
  match Packet.fromBytes arrival.received with
  | .ok packet => do
      let (pool, notes, answer) ← serveV6Logged config pool (arrival.carrying packet)
      match answer with
      | none => return (pool, notes, .handled none)
      | some answer => return (pool, notes, .handled (← transmit arrival.outcome answer))
  | .error (.refused _) => .ok (pool, [], .noted (malformedNote arrival.received.length))
  | .error (.panic reason) => .error reason
  | .error .endless => .error .assertionFailed

/-- What is printed over a history, the oldest note first. -/
def notesOf (past : List (Handled V6Pool (Arrival IoError) (List Note × Reaction))) :
    List Note :=
  past.reverse.flatMap fun handled => handled.output.1

variable {IoError : Type} {arrival : Arrival IoError} {reaction : Reaction}
variable {past : List (Handled V6Pool (Arrival IoError) (List Note × Reaction))}

/-- What a round does and prints. -/
inductive LoggedRound (config : Config) (pool : V6Pool) (arrival : Arrival IoError) :
    V6Pool → List Note → Reaction → Prop
  | malformed {error} :
      Packet.fromBytes arrival.received = Fallible.refuse error →
      LoggedRound config pool arrival pool [] (.noted (malformedNote arrival.received.length))
  | served {packet next notes sent} :
      Packet.fromBytes arrival.received = .ok packet →
      serveV6 config pool (arrival.carrying packet) = .ok (next, sent) →
      Report config pool (arrival.carrying packet) next notes sent →
      LoggedRound config pool arrival next notes
        (.handled (sent.bind (Sent.datagram arrival.outcome)))

theorem loggedRound_of_done (serves : Serves config pool)
    (done : roundLogged config pool arrival = .ok (next, notes, reaction)) :
    LoggedRound config pool arrival next notes reaction := by
  rw [roundLogged] at done
  split at done
  · rename_i packet decoded
    rcases serveV6Logged_report serves (arrival.carrying packet) with
      ⟨after, told, sent, logged, report⟩
    have served := serveV6Logged_unlogged config pool (arrival.carrying packet)
    rw [logged] at served
    simp only [logged, Checked.bind_ok] at done
    cases sent with
    | none =>
        cases done
        exact .served decoded served.symm report
    | some answer =>
        simp only [transmit_eq, Checked.bind_ok, Checked.pure_eq_ok] at done
        cases done
        exact .served decoded served.symm report
  · rename_i error decoded
    cases done
    exact .malformed decoded
  · cases done
  · cases done

/-- Without its notes, a round is one of the daemon. -/
theorem LoggedRound.round (logged : LoggedRound config pool arrival next notes reaction) :
    Dhcpv6.round config pool arrival = .ok (next, reaction) := by
  cases logged with
  | malformed decoded =>
      rw [Dhcpv6.round, decoded]
      rfl
  | @served packet next notes sent decoded served =>
      rw [Dhcpv6.round, decoded]
      cases sent with
      | none => simp only [served, Checked.bind_ok, Checked.pure_eq_ok, Option.bind_none]
      | some answer =>
          simp only [served, transmit_eq, Checked.bind_ok, Checked.pure_eq_ok, Option.bind_some]

theorem LoggedRound.ledger (logged : LoggedRound config pool arrival next notes reaction)
    (steady : V6Pool.Steady config pool) :
    (notes.filterMap Note.posting).foldl Posting.enter pool.holder = next.holder := by
  cases logged with
  | malformed => rfl
  | served _ _ report => exact report.ledger steady

/-- In a run, what every round keeps holds before each of them. -/
theorem loggedRound_of_run {Holds : V6Pool → Prop}
    {handled : Handled V6Pool (Arrival IoError) (List Note × Reaction)}
    (serves : ∀ {pool}, Holds pool → Serves config pool)
    (kept : ∀ {pool next notes reaction} {arrival : Arrival IoError}, Holds pool →
      LoggedRound config pool arrival next notes reaction → Holds next)
    (start : Holds initial) (run : Run (roundLogged config) initial past state)
    (member : handled ∈ past) :
    Holds handled.before ∧ LoggedRound config handled.before handled.input handled.after
      handled.output.1 handled.output.2 := by
  rcases run.of_mem member with ⟨earlier, before, stepped⟩
  have holds : Holds handled.before :=
    before.invariant start fun holds done => kept holds (loggedRound_of_done (serves holds) done)
  exact ⟨holds, loggedRound_of_done (serves holds) stepped⟩

/-- The lines of a leases file, to a reader of the log. -/
def opening (file : LeasesFile) : List Posting :=
  (reservations file).map fun lease => .granted lease.1 lease.2

theorem foldl_opening (leases : List (Duid × Ipv6Addr)) (table : LeaseTable Ipv6Addr Duid) :
    (leases.map fun lease => Posting.granted lease.1 lease.2).foldl Posting.enter
        (fun addr => (table addr).map Lease.holder) =
      fun addr => (table.reserve leases addr).map Lease.holder := by
  induction leases generalizing table with
  | nil => rfl
  | cons lease leases induction =>
      rcases lease with ⟨duid, ip⟩
      have entered : Posting.enter (fun addr => (table addr).map Lease.holder) (.granted duid ip) =
          fun addr => (Function.update table ip (some ⟨duid, none⟩) addr).map Lease.holder := by
        funext addr
        by_cases same : addr = ip
        · rw [Posting.enter, same, Function.update_self, Function.update_self]
          rfl
        · rw [Posting.enter, Function.update_of_ne same, Function.update_of_ne same]
      rw [List.map_cons, List.foldl_cons, entered]
      exact induction _

theorem rounds_of_run {hasher : Hasher Ipv6Addr V6Pool.Entry} {file : LeasesFile}
    {handled : Handled V6Pool (Arrival IoError) (List Note × Reaction)}
    (duids : ((reservations file).map Prod.fst).Nodup)
    (started : startPool config hasher file = .ok initial)
    (run : Run (roundLogged config) initial past state) (member : handled ∈ past) :
    V6Pool.Steady config handled.before ∧ LoggedRound config handled.before handled.input
      handled.after handled.output.1 handled.output.2 :=
  loggedRound_of_run (fun steady => steady.serves)
    (fun steady logged => steady.round logged.round) (V6Pool.steady_startPool duids started) run
    member

/-- The reservations and then the notes are who holds which address. -/
theorem postings_of_run {hasher : Hasher Ipv6Addr V6Pool.Entry} {file : LeasesFile}
    (duids : ((reservations file).map Prod.fst).Nodup)
    (started : startPool config hasher file = .ok initial)
    (run : Run (roundLogged config) initial past state) :
    (opening file ++ (notesOf past).filterMap Note.posting).foldl Posting.enter (fun _ => none) =
      state.holder := by
  have opened : (opening file).foldl Posting.enter (fun _ => none) = initial.holder := by
    rcases startPool_reserves config hasher file with ⟨_, again, _, reserved⟩
    rw [started] at again
    cases again
    funext addr
    rw [V6Pool.holder, reserved]
    exact congrFun (foldl_opening (reservations file) fun _ => none) addr
  have replayed : state.holder = past.foldr
      (fun handled ledger => (handled.output.1.filterMap Note.posting).foldl Posting.enter ledger)
      initial.holder := by
    apply run.replay
    intro handled member
    rcases rounds_of_run duids started run member with ⟨steady, logged⟩
    exact logged.ledger steady
  rw [List.foldl_append, opened, replayed, notesOf, List.filterMap_flatMap, List.foldl_flatMap,
    List.foldl_reverse]

/-- What a run prints is as many lines as there were notes, whatever the clients send, and
who reads the leases file and then these lines knows who holds which address. Printing
changes nothing about what is done and answered. -/
theorem ledger_of_run {hasher : Hasher Ipv6Addr V6Pool.Entry} {file : LeasesFile}
    (duids : ((reservations file).map Prod.fst).Nodup)
    (started : startPool config hasher file = .ok initial)
    (run : Run (roundLogged config) initial past state) :
    Lines.of '\n' '\r' (printed (notesOf past)) = (notesOf past).map Note.text ∧
      (opening file ++
          (Lines.of '\n' '\r' (printed (notesOf past))).filterMap readPosting).foldl
        Posting.enter (fun _ => none) = state.holder ∧
      ∀ handled ∈ past, round config handled.before handled.input =
        .ok (handled.after, handled.output.2) := by
  have read : (notesOf past).filterMap (readPosting ∘ Note.text) =
      (notesOf past).filterMap Note.posting :=
    List.filterMap_congr fun note _ => readPosting_text note
  refine ⟨lines_printed _, ?_, ?_⟩
  · rw [lines_printed, List.filterMap_map, read, postings_of_run duids started run]
  · intro handled member
    exact (rounds_of_run duids started run member).2.round

/-- A Request for the second address. -/
def oneRequest : List (Arrival String) :=
  [.ofPacket (requestFor [7] (.new 0xfd00 0 0 0 0 0 0 0x101)) 0]

set_option maxRecDepth 10000 in
/-- A client gets the address beside a reservation, and the text tells so. -/
theorem ledger_of_run_request : ∃ session,
    simulate (roundLogged twoAddressConfig)
        (startPool twoAddressConfig Hasher.newestFirst oneReservation) oneRequest = .ok session ∧
      session.state.holder (.new 0xfd00 0 0 0 0 0 0 0x101) = some [7] ∧
      (opening oneReservation ++ (Lines.of '\n' '\r'
          (printed (notesOf session.past))).filterMap readPosting).foldl Posting.enter
        (fun _ => none) = session.state.holder := by
  have computed : Checked.passes (simulate (roundLogged twoAddressConfig)
      (startPool twoAddressConfig Hasher.newestFirst oneReservation) oneRequest)
      (fun session => session.state.holder (.new 0xfd00 0 0 0 0 0 0 0x101) = some [7]) = true := by
    decide
  rcases Checked.exists_of_passes computed with ⟨session, simulated, granted⟩
  rcases Run.of_simulate simulated with ⟨started, run⟩
  exact ⟨session, simulated, of_decide_eq_true granted,
    (ledger_of_run (by decide) started run).2.1⟩

end RustyDhcp.Dhcpv6
