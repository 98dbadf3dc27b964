import RustyDhcp.Dhcpv6.AuditTrail
import RustyDhcp.Server.Monitor

/-! # What the process prints

Both services print to one place, and their lines get there in any order. A reader can
tell them apart as long as no DHCPv4 client breaks a line. -/

namespace RustyDhcp

/-- A line of one of the services. -/
abbrev Line := Note ⊕ Dhcpv6.Note

def Line.text : Line → Text := Sum.elim Note.text Dhcpv6.Note.text

/-- What gets to the standard output. -/
def stdout (lines : List Line) : Text := lines.flatMap fun line => line.text ++ ['\n']

/-- The lines are those of the two services, each in its order. -/
structure Interleaves (lines : List Line) (v4 : List Note) (v6 : List Dhcpv6.Note) : Prop where
  v4 : lines.filterMap Sum.getLeft? = v4
  v6 : lines.filterMap Sum.getRight? = v6

/-- The DHCPv6 lines tell about the leases, and no other ones. -/
def readV6 (line : Text) : Option Dhcpv6.Posting :=
  if line.take 3 = "v6 ".toList then Dhcpv6.readPosting line else none

/-! ## How lines begin -/

theorem take_text_of_quiet {note : Note} (quiet : note.Quiet) :
    note.text.take 3 = "v4 ".toList := by
  cases note with
  | online => cases quiet
  | _ => rfl

theorem Dhcpv6.Note.take_text (note : Dhcpv6.Note) : note.text.take 3 = "v6 ".toList := by
  cases note <;> rfl

theorem not_mem_zeroPadded (width number : Nat) : 'v' ∉ zeroPadded width number := by
  intro member
  rcases List.mem_append.mp member with padding | digits
  · have zero := List.eq_of_mem_replicate padding
    cases zero
  · have plain := isPlain_of_mem_decimal digits
    cases plain

theorem not_mem_utcNowIso {secs : U64} {time : Text} (printed : utcNowIso secs = .ok time) :
    'v' ∉ time := by
  rcases Checked.bind_eq_ok_iff.mp printed with ⟨⟨y, m, d⟩, _, rest⟩
  cases rest
  have year : 'v' ∉ zeroPaddedInt 4 y := by
    rw [zeroPaddedInt]
    split
    · rw [List.mem_cons, not_or]
      exact ⟨by decide, not_mem_zeroPadded _ _⟩
    · exact not_mem_zeroPadded _ _
  simp [year, not_mem_zeroPadded]

theorem take_text_online {time : Text} (stamp : 'v' ∉ time) (mac : Mac) (ip : Ipv4Addr)
    (hostname : Option Text) :
    (Note.online time mac ip hostname).text.take 3 ≠ "v6 ".toList := by
  intro same
  have head := congrArg List.head? same
  have begins : ∃ rest, (Note.online time mac ip hostname).text = time ++ '\t' :: rest :=
    ⟨_, rfl⟩
  rcases begins with ⟨rest, begins⟩
  rw [begins] at head
  cases time with
  | nil => cases head
  | cons char time =>
      have first : char = 'v' := Option.some.inj head
      subst first
      exact stamp List.mem_cons_self

namespace MyServer

variable {scene : Scene} {store next : MyServer} {packet : Packet} {now : Instant}
variable {notes : List Note} {reply : Option Reply}

/-- A note that does not begin like one of DHCPv6. -/
def Distinct (note : Note) : Prop := note.text.take 3 ≠ "v6 ".toList

theorem distinct_of_quiet {note : Note} (quiet : note.Quiet) : Distinct note := by
  rw [Distinct, take_text_of_quiet quiet]
  decide

theorem Report.distinct (report : Report scene store packet now next notes reply) :
    ∀ note ∈ notes, Distinct note := by
  refine report.forall_notes ?_ ?_
  · intro note quiet _
    exact distinct_of_quiet quiet
  · intro time printed _
    exact take_text_online (not_mem_utcNowIso printed) _ _ _

end MyServer

theorem Daemon.LoggedRound.distinct {daemon : Daemon} {broadcasts : List Ipv4Addr}
    {store next : MyServer} {timed : Timed IoError} {notes : List Note} {reaction : Reaction}
    (logged : LoggedRound daemon broadcasts store timed next notes reaction) :
    ∀ note ∈ notes, MyServer.Distinct note := by
  cases logged with
  | refused => exact fun note listed => by cases listed
  | silent _ report => exact report.distinct
  | answered _ report => exact report.distinct

/-! ## Reading both logs -/

variable {lines : List Line} {v4 : List Note} {v6 : List Dhcpv6.Note}

theorem Interleaves.forall_v4 {Holds : Note → Prop} (order : Interleaves lines v4 v6)
    (holds : ∀ note ∈ v4, Holds note) {note : Note} (listed : .inl note ∈ lines) : Holds note := by
  apply holds note
  rw [← order.v4]
  exact List.mem_filterMap.mpr ⟨_, listed, rfl⟩

/-- The lines are those that were printed, if no DHCPv4 note has a line break. -/
theorem lines_stdout (order : Interleaves lines v4 v6)
    (unbroken : ∀ note ∈ v4, '\n' ∉ note.text)
    (ended : ∀ note ∈ v4, note.text.getLast? ≠ some '\r') :
    Lines.of '\n' '\r' (stdout lines) = lines.map Line.text := by
  apply Lines.of_flatMap Line.text
  · intro line listed
    cases line with
    | inl note => exact order.forall_v4 unbroken listed
    | inr note => exact note.not_mem_text rfl (by decide)
  · intro line listed
    cases line with
    | inl note => exact order.forall_v4 ended listed
    | inr note =>
        exact fun last => note.not_mem_text rfl (by decide) (List.mem_of_getLast? last)

theorem readV6_text (note : Dhcpv6.Note) : readV6 note.text = note.posting := by
  rw [readV6, if_pos note.take_text, Dhcpv6.readPosting_text]

theorem readOnline_v6 (note : Dhcpv6.Note) : readOnline note.text = none := by
  rw [readOnline, List.splitOn_eq_singleton (note.not_mem_text rfl (by decide))]

theorem filterMap_readV6 (order : Interleaves lines v4 v6)
    (distinct : ∀ note ∈ v4, MyServer.Distinct note) :
    (lines.map Line.text).filterMap readV6 = v6.filterMap Dhcpv6.Note.posting := by
  rw [← order.v6, List.filterMap_filterMap, List.filterMap_map]
  apply List.filterMap_congr
  intro line listed
  cases line with
  | inl note => exact if_neg (order.forall_v4 distinct listed)
  | inr note => exact readV6_text note

theorem filterMap_readOnline (order : Interleaves lines v4 v6) :
    (lines.map Line.text).filterMap readOnline = (v4.map Note.text).filterMap readOnline := by
  rw [← order.v4, List.filterMap_map, List.filterMap_map, List.filterMap_filterMap]
  apply List.filterMap_congr
  intro line listed
  cases line with
  | inl note => rfl
  | inr note => exact readOnline_v6 note

/-! ## Runs of both services -/

namespace Process

variable {config : Config} {hasher : Hasher Ipv4Addr MyServer.Entry} {file v6File : LeasesFile}
variable {v6Hasher : Hasher Ipv6Addr Dhcpv6.V6Pool.Entry} {initial state : MyServer}
variable {started reached : Dhcpv6.V6Pool} {daemon : Daemon} {broadcasts : List Ipv4Addr}
variable {IoError : Type}
variable {past : List (Handled MyServer (Timed IoError) (List Note × Reaction))}
variable {v6Past : List (Handled Dhcpv6.V6Pool (Dhcpv6.Arrival IoError)
  (List Dhcpv6.Note × Dhcpv6.Reaction))}

/-- As long as no DHCPv4 client announces a host name with a line break, the standard
output tells who holds which IPv6 address, and without a tab in a host name it tells the
DHCPv4 Requests, in whatever order the lines of the services got there. -/
theorem stdout_of_runs (accepted : config.validate = .ok config)
    (loaded : MyServer.main config hasher file = .ok initial)
    (run : Run (daemon.roundLogged broadcasts) initial past state)
    (duids : ((Dhcpv6.reservations v6File).map Prod.fst).Nodup)
    (booted : Dhcpv6.startPool config v6Hasher v6File = .ok started)
    (v6Run : Run (Dhcpv6.roundLogged config) started v6Past reached)
    (order : Interleaves lines (notesOf past) (Dhcpv6.notesOf v6Past))
    (newline : Spared past '\n') :
    (Dhcpv6.opening v6File ++ (Lines.of '\n' '\r' (stdout lines)).filterMap readV6).foldl
        Dhcpv6.Posting.enter (fun _ => none) = reached.holder ∧
      (Spared past '\t' → (Lines.of '\n' '\r' (stdout lines)).filterMap readOnline =
        past.reverse.flatMap fun handled => onlineIn handled.input.received) := by
  rcases Daemon.unbroken_of_run accepted loaded run newline with ⟨unbroken, ended⟩
  have distinct : ∀ note ∈ notesOf past, MyServer.Distinct note := by
    rw [Daemon.forall_mem_notesOf]
    intro handled member
    exact (Daemon.loggedRound_of_run accepted loaded run member).2.distinct
  rw [lines_stdout order unbroken ended]
  constructor
  · rw [filterMap_readV6 order distinct, Dhcpv6.postings_of_run duids booted v6Run]
  · intro tab
    rw [filterMap_readOnline order, Daemon.filterMap_readOnline_of_run accepted loaded run tab]

/-- A host name of three lines, one of which looks like one about a DHCPv6 lease. -/
def forgedName : Packet :=
  .ofClient #v[2, 0, 0, 0, 7, 11] [.dhcpMessageType .request,
    .hostName "a\nv6 R duid=07 t w -> R fd00::1\nb".toList]

set_option maxRecDepth 10000 in
/-- A DHCPv4 client that breaks a line makes up a DHCPv6 lease. -/
example : Checked.passes (simulate ((Daemon.serveWithBroadcasts (.new 192 168 2 1) []).roundLogged
      []) (MyServer.main MyServer.twoLeases Hasher.newestFirst none)
      [⟨Daemon.fromClient forgedName.wire, 1700000000⟩])
      (fun session => (Lines.of '\n' '\r' (stdout ((notesOf session.past).map .inl))).filterMap
        readV6 = [.granted [7] (.new 0xfd00 0 0 0 0 0 0 1)]) = true := by
  decide +kernel

theorem interleaves_append (v4 : List Note) (v6 : List Dhcpv6.Note) :
    Interleaves (v6.map .inr ++ v4.map .inl) v4 v6 := by
  constructor
  · rw [List.filterMap_append, List.filterMap_map, List.filterMap_map]
    simp [Function.comp_def]
  · rw [List.filterMap_append, List.filterMap_map, List.filterMap_map]
    simp [Function.comp_def]

set_option maxRecDepth 10000 in
/-- A DHCPv6 client gets an address, and then a DHCPv4 client asks for one. -/
theorem stdout_of_runs_both : ∃ v4 v6,
    simulate ((Daemon.serveWithBroadcasts (.new 192 168 2 1) []).roundLogged [])
        (MyServer.main MyServer.twoLeases Hasher.newestFirst none)
        [Daemon.lampAtNoon] = .ok v4 ∧
      simulate (Dhcpv6.roundLogged MyServer.twoLeases)
        (Dhcpv6.startPool MyServer.twoLeases Hasher.newestFirst Dhcpv6.oneReservation)
        Dhcpv6.oneRequest = .ok v6 ∧
      v6.state.holder (.new 0xfd00 0 0 0 0 0 0 0x101) = some [7] ∧
      (Dhcpv6.opening Dhcpv6.oneReservation ++ (Lines.of '\n' '\r' (stdout
          ((Dhcpv6.notesOf v6.past).map .inr ++ (notesOf v4.past).map .inl))).filterMap
        readV6).foldl Dhcpv6.Posting.enter (fun _ => none) = v6.state.holder := by
  have asked : Checked.passes (simulate ((Daemon.serveWithBroadcasts (.new 192 168 2 1)
      []).roundLogged []) (MyServer.main MyServer.twoLeases Hasher.newestFirst none)
      [Daemon.lampAtNoon])
      (fun session => (session.past.map fun handled => handled.input.received) =
        [Daemon.lamp.wire]) = true := by
    decide
  have leased : Checked.passes (simulate (Dhcpv6.roundLogged MyServer.twoLeases)
      (Dhcpv6.startPool MyServer.twoLeases Hasher.newestFirst Dhcpv6.oneReservation)
      Dhcpv6.oneRequest)
      (fun session => session.state.holder (.new 0xfd00 0 0 0 0 0 0 0x101) = some [7]) = true := by
    decide
  rcases Checked.exists_of_passes asked with ⟨v4, simulated, one⟩
  rcases Checked.exists_of_passes leased with ⟨v6, v6Simulated, granted⟩
  rcases Run.of_simulate simulated with ⟨loaded, run⟩
  rcases Run.of_simulate v6Simulated with ⟨booted, v6Run⟩
  exact ⟨v4, v6, simulated, v6Simulated, of_decide_eq_true granted,
    (stdout_of_runs rfl loaded run (by decide) booted v6Run (interleaves_append _ _)
      (Daemon.spared_of_received (of_decide_eq_true one) (by decide))).1⟩

end Process

end RustyDhcp
