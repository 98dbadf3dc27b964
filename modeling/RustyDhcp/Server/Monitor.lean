import RustyDhcp.Server.AuditTrail
import RustyDhcp.Server.Restart

/-! # Reading the log back

The log is text. Whoever reads it line by line gets the notes back, and at the tabs the
Requests, unless a client announces a host name with a line break or a tab in it. -/

namespace RustyDhcp

def isPrintable (char : Char) : Bool := 32 ≤ char.toNat && char.toNat < 127

/-- ASCII without control characters. -/
def Printable (text : Text) : Prop := text.all isPrintable = true

instance (text : Text) : Decidable (Printable text) :=
  inferInstanceAs (Decidable (text.all isPrintable = true))

namespace Printable

variable {text first second : Text}

theorem iff_forall : Printable text ↔ ∀ char ∈ text, isPrintable char = true := List.all_eq_true

theorem of_plain (plain : ∀ char ∈ text, isPlain char = true) : Printable text := by
  rw [iff_forall]
  intro char member
  have ascii := toNat_of_isPlain (plain char member)
  have checked : ∀ code < 128, isPlain (Char.ofNat code) = true →
      isPrintable (Char.ofNat code) = true := by
    decide +kernel
  have here := plain char member
  rw [← Char.ofNat_toNat char] at here ⊢
  exact checked char.toNat ascii here

theorem append (front : Printable first) (back : Printable second) :
    Printable (first ++ second) := by
  rw [iff_forall] at front back ⊢
  exact List.forall_mem_append.mpr ⟨front, back⟩

theorem cons {char : Char} (front : isPrintable char = true) (back : Printable text) :
    Printable (char :: text) := by
  rw [iff_forall] at back ⊢
  exact List.forall_mem_cons.mpr ⟨front, back⟩

theorem flatten {parts : List Text} (all : ∀ part ∈ parts, Printable part) :
    Printable parts.flatten := by
  rw [iff_forall]
  intro char member
  rcases List.mem_flatten.mp member with ⟨part, listed, inside⟩
  exact iff_forall.mp (all part listed) char inside

theorem commaSeparated {parts : List Text} (all : ∀ part ∈ parts, Printable part) :
    Printable (Note.commaSeparated parts) := by
  rw [iff_forall]
  intro char member
  rcases of_mem_intercalate member with rfl | ⟨part, listed, inside⟩
  · decide
  · exact iff_forall.mp (all part listed) char inside

theorem chaddr (mac : Mac) : Printable (RustyDhcp.chaddr mac) :=
  of_plain fun _ => isPlain_of_mem_chaddr

theorem decimal (number : Nat) : Printable (RustyDhcp.decimal number) :=
  of_plain fun _ => isPlain_of_mem_decimal

theorem ipv4 (ip : Ipv4Addr) : Printable ip.toText := of_plain fun _ => isPlain_of_mem_ipv4

theorem socketAddr (addr : SocketAddr) : Printable addr.toText :=
  of_plain fun _ => isPlain_of_mem_socketAddr

theorem codes (opts : List UInt8) : Printable (Note.codes opts) := by
  apply commaSeparated
  intro part listed
  rcases List.mem_map.mp listed with ⟨code, _, rfl⟩
  exact decimal _

theorem places (dsts : List SocketAddr) : Printable (Note.places dsts) := by
  apply commaSeparated
  intro part listed
  rcases List.mem_map.mp listed with ⟨dst, _, rfl⟩
  exact socketAddr dst

theorem flag (value : Bool) : Printable (Note.flag value) := by
  cases value <;> decide

theorem zeroPadded (width number : Nat) : Printable (RustyDhcp.zeroPadded width number) := by
  apply append _ (decimal number)
  rw [iff_forall]
  intro char member
  rw [List.eq_of_mem_replicate member]
  decide

theorem zeroPaddedInt (width : Nat) (number : Int) :
    Printable (RustyDhcp.zeroPaddedInt width number) := by
  rw [RustyDhcp.zeroPaddedInt]
  split
  · exact cons (by decide) (zeroPadded _ _)
  · exact zeroPadded _ _

theorem utcNowIso {secs : U64} {time : Text} (printed : RustyDhcp.utcNowIso secs = .ok time) :
    Printable time := by
  rcases Checked.bind_eq_ok_iff.mp printed with ⟨⟨y, m, d⟩, _, rest⟩
  cases rest
  have field : ∀ {separator : Char}, isPrintable separator = true → ∀ number,
      Printable (separator :: RustyDhcp.zeroPadded 2 number) :=
    fun ascii number => cons ascii (zeroPadded 2 number)
  have dash := @field '-' (by decide)
  have colon := @field ':' (by decide)
  exact (((((zeroPaddedInt 4 y).append (dash m)).append (dash d)).append
    (field (by decide) _)).append (colon _)).append (colon _)

end Printable

/-! ## The text of a note -/

namespace Note

/-- A note other than the line of the monitor, with a printable reason if it has one. -/
def Quiet : Note → Prop
  | online .. => False
  | untyped _ _ _ error => Printable error.toList
  | _ => True

theorem printable_kindName (kind : MessageType) : Printable (kindName kind).toList := by
  rw [kindName]
  split <;> decide

theorem printable_debug (kind : MessageType) : Printable kind.debug.toList := by
  cases kind <;> decide

theorem printable_age (existing : Bool) : Printable (age existing).toList := by
  cases existing <;> decide

theorem printable_heading {kind : String} (ascii : Printable kind.toList) (mac : Mac)
    (xid : U32) : ∀ part ∈ heading kind mac xid, Printable part := by
  simp only [heading, List.forall_mem_cons, ascii, Printable.chaddr, Printable.decimal,
    true_and]
  decide

theorem printable_text {note : Note} (quiet : note.Quiet) : Printable note.text := by
  apply Printable.flatten
  have named : ∀ {kind : String} {mac : Mac} {xid : U32} {others : List Text},
      Printable kind.toList → (∀ part ∈ others, Printable part) →
      ∀ part ∈ heading kind mac xid ++ others, Printable part :=
    fun ascii others => List.forall_mem_append.mpr ⟨printable_heading ascii _ _, others⟩
  cases note with
  | online => cases quiet
  | discover mac xid rapid broadcast src opts prl =>
      apply named (by decide)
      have asked : Printable ((prl.map codes).getD "-".toList) := by
        cases prl with
        | none => decide
        | some opts => exact .codes opts
      simp only [List.forall_mem_cons, Printable.flag, Printable.socketAddr, Printable.codes,
        asked, true_and]
      decide
  | offered mac xid ip dsts existing =>
      apply named (by decide)
      simp only [List.forall_mem_cons, Printable.ipv4, Printable.places, printable_age, true_and]
      decide
  | committed mac xid ip dsts existing =>
      apply named (by decide)
      simp only [List.forall_mem_cons, Printable.ipv4, Printable.places, printable_age, true_and]
      decide
  | exhausted mac xid rapid used total =>
      apply named (by decide)
      simp only [List.forall_mem_cons, Printable.decimal, true_and]
      cases rapid <;> decide
  | request mac xid reqIp ciaddr serverId broadcast src opts =>
      apply named (by decide)
      have server : Printable ((serverId.map Ipv4Addr.toText).getD "-".toList) := by
        cases serverId with
        | none => decide
        | some ip => exact .ipv4 ip
      simp only [List.forall_mem_cons, Printable.ipv4, Printable.flag, Printable.socketAddr,
        Printable.codes, server, true_and]
      decide
  | mismatch mac xid => exact named (by decide) (by decide)
  | acked mac xid ip dsts existing =>
      apply named (by decide)
      simp only [List.forall_mem_cons, Printable.ipv4, Printable.places, printable_age, true_and]
      decide
  | refused mac xid ip dsts inPool =>
      apply named (by decide)
      simp only [List.forall_mem_cons, Printable.ipv4, Printable.places, true_and]
      cases inPool <;> decide
  | ignored kind mac xid src =>
      apply named (printable_kindName kind)
      simp only [List.forall_mem_cons, Printable.socketAddr, true_and]
      decide
  | freed kind mac xid src ip =>
      apply named (printable_kindName kind)
      simp only [List.forall_mem_cons, Printable.socketAddr, Printable.ipv4, true_and]
      decide
  | noLease kind mac xid src =>
      apply named (printable_kindName kind)
      simp only [List.forall_mem_cons, Printable.socketAddr, true_and]
      decide
  | unsupported kind mac xid src =>
      apply named (printable_debug kind)
      simp only [List.forall_mem_cons, Printable.socketAddr, true_and]
      decide
  | untyped mac xid src error =>
      have reason : Printable error.toList := quiet
      apply named (by decide)
      simp only [List.forall_mem_cons, Printable.socketAddr, reason, true_and]
      decide

end Note

theorem printable_messageType {packet : Packet} {error : String}
    (failed : packet.messageType = .error error) : Printable error.toList := by
  rw [Packet.messageType] at failed
  generalize packet.options = options at failed
  induction options with
  | nil =>
      cases failed
      decide
  | cons option options induction =>
      cases option with
      | dhcpMessageType => cases failed
      | unrecognized raw =>
          rw [Packet.messageTypeOf] at failed
          split at failed
          · rename_i typed
            rw [typed] at failed
            cases failed
            decide +kernel
          · exact induction failed
      | _ => exact induction failed

/-! ## Lines -/

/-- Each note on a line of its own. -/
def printed (notes : List Note) : Text := notes.flatMap fun note => note.text ++ ['\n']

theorem ends_printed (notes : List Note) :
    printed notes = [] ∨ (printed notes).getLast? = some '\n' := by
  induction notes with
  | nil => exact .inl rfl
  | cons note notes induction =>
      right
      rw [printed, List.flatMap_cons]
      rcases induction with nothing | last
      · rw [printed] at nothing
        rw [nothing, List.append_nil, List.getLast?_concat]
      · rw [printed] at last
        rw [List.getLast?_append, last]
        rfl

theorem length_le_count_printed (notes : List Note) :
    notes.length ≤ (printed notes).count '\n' := by
  induction notes with
  | nil => exact Nat.le_refl _
  | cons note notes induction =>
      rw [printed] at induction ⊢
      rw [List.flatMap_cons, List.count_append, List.count_append, List.count_singleton_self,
        List.length_cons]
      omega

/-- There are as many lines as notes exactly if no note has a line break in it. -/
theorem length_lines_iff (notes : List Note) :
    (Lines.of '\n' '\r' (printed notes)).length = notes.length ↔
      ∀ note ∈ notes, '\n' ∉ note.text := by
  rw [Lines.of, List.length_map, Lines.length_pieces (ends_printed notes)]
  induction notes with
  | nil => simp [printed]
  | cons note notes induction =>
      have enough := length_le_count_printed notes
      rw [List.forall_mem_cons, ← induction, ← List.count_eq_zero]
      rw [printed] at enough ⊢
      rw [List.flatMap_cons, List.count_append, List.count_append, List.count_singleton_self,
        List.length_cons, printed]
      omega

theorem lines_printed {notes : List Note} (unbroken : ∀ note ∈ notes, '\n' ∉ note.text)
    (ended : ∀ note ∈ notes, note.text.getLast? ≠ some '\r') :
    Lines.of '\n' '\r' (printed notes) = notes.map Note.text :=
  Lines.of_flatMap Note.text notes unbroken ended

theorem not_mem_of_printable {text : Text} {char : Char} (printable : Printable text)
    (control : isPrintable char = false) : char ∉ text := by
  intro member
  rw [Printable.iff_forall.mp printable char member] at control
  cases control

/-! ## The line of the monitor -/

/-- What the line of the monitor tells of a Request. -/
abbrev Online := Mac × Ipv4Addr × Text

/-- The fields of a line of the monitor. The first one is the time. -/
def readOnline (line : Text) : Option Online :=
  match line.splitOn '\t' with
  | [_, macText, ipText, hostname, online] =>
      if online = "Online".toList then
        (MyServer.listed (macText ++ ',' :: ipText)).map fun lease => (lease.1, lease.2, hostname)
      else none
  | _ => none

def Note.monitored : Note → Option Online
  | online _ mac ip hostname => some (mac, ip, hostname.getD "-".toList)
  | _ => none

/-- What a packet has the monitor print. -/
def Packet.online (packet : Packet) : List Online :=
  if packet.messageType = .ok .request then
    [(packet.chaddr, packet.requestedIp, (hostnameOf packet).getD "-".toList)]
  else []

/-- A character that is in no host name that a Request announces. -/
def Packet.Spares (packet : Packet) (stop : Char) : Prop :=
  packet.messageType = .ok .request → ∀ name, hostnameOf packet = some name → stop ∉ name

theorem text_online (time : Text) (mac : Mac) (ip : Ipv4Addr) (hostname : Option Text) :
    (Note.online time mac ip hostname).text =
      ['\t'].intercalate [time, chaddr mac, ip.toText, hostname.getD "-".toList,
        "Online".toList] := rfl

theorem readOnline_text {time : Text} {mac : Mac} {ip : Ipv4Addr} {hostname : Option Text}
    (ascii : Printable time) (spared : ∀ name, hostname = some name → '\t' ∉ name) :
    readOnline (Note.online time mac ip hostname).text =
      some (mac, ip, hostname.getD "-".toList) := by
  have tab : isPrintable '\t' = false := rfl
  have name : '\t' ∉ hostname.getD "-".toList := by
    cases hostname with
    | none => decide
    | some name => exact spared name rfl
  have fields : ∀ part ∈ [time, chaddr mac, ip.toText, hostname.getD "-".toList,
      "Online".toList], '\t' ∉ part := by
    simp only [List.forall_mem_cons, not_mem_of_printable ascii tab,
      not_mem_of_printable (.chaddr mac) tab, not_mem_of_printable (.ipv4 ip) tab, name,
      not_false_eq_true, true_and]
    decide
  have listed : MyServer.listed (chaddr mac ++ ',' :: ip.toText) = some (mac, ip) :=
    listed_leasesLine (mac, ip)
  rw [readOnline, text_online, List.splitOn_intercalate '\t' fields (List.cons_ne_nil _ _)]
  simp only [if_true, listed, Option.map_some]

theorem readOnline_of_quiet {note : Note} (quiet : note.Quiet) : readOnline note.text = none := by
  rw [readOnline, List.splitOn_eq_singleton
    (not_mem_of_printable (Note.printable_text quiet) rfl)]

/-- A note is printable, or it is the line of the monitor for a Request. -/
inductive Note.Plain (packet : Packet) : Note → Prop
  | quiet {note : Note} : note.Quiet → note.monitored = none → Plain packet note
  | online {time : Text} :
      Printable time → packet.messageType = .ok .request →
      Plain packet (.online time packet.chaddr packet.requestedIp (hostnameOf packet))

theorem readOnline_of_plain {packet : Packet} {note : Note} (plain : note.Plain packet)
    (spared : packet.Spares '\t') : readOnline note.text = note.monitored := by
  cases plain with
  | quiet quiet unmonitored => rw [readOnline_of_quiet quiet, unmonitored]
  | online ascii sent => exact readOnline_text ascii (spared sent)

theorem getLast?_text_of_plain {packet : Packet} {note : Note} (plain : note.Plain packet) :
    note.text.getLast? ≠ some '\r' := by
  cases plain with
  | quiet quiet =>
      intro last
      exact not_mem_of_printable (Note.printable_text quiet) rfl (List.mem_of_getLast? last)
  | @online time =>
      have ends : (Note.online time packet.chaddr packet.requestedIp (hostnameOf packet)).text =
          (time ++ '\t' :: chaddr packet.chaddr ++ '\t' :: packet.requestedIp.toText ++
            '\t' :: (hostnameOf packet).getD "-".toList ++ ['\t']) ++ "Online".toList := by
        simp [Note.text, Note.parts]
      have last : "Online".toList.getLast? = some 'e' := by decide
      rw [ends, List.getLast?_append, last, Option.some_or]
      decide

namespace MyServer

variable {scene : Scene} {store next : MyServer} {packet : Packet} {now : Instant}
variable {notes : List Note} {reply : Option Reply} {time : Text}

theorem forall_requestNotes {Holds : Note → Prop}
    (quiet : ∀ {note : Note}, note.Quiet → note.monitored = none → Holds note)
    (online : Holds (.online time packet.chaddr packet.requestedIp (hostnameOf packet))) :
    ∀ note ∈ requestNotes scene packet time, Holds note := by
  intro note listed
  rw [requestNotes, List.mem_append, List.mem_append, List.mem_singleton,
    List.mem_singleton] at listed
  rcases listed with (rfl | mismatch) | rfl
  · exact quiet trivial rfl
  · split at mismatch
    · cases mismatch
    · rw [List.mem_singleton.mp mismatch]
      exact quiet trivial rfl
  · exact online

/-- What holds of the quiet notes and of the line of the monitor holds of all. -/
theorem Report.forall_notes {Holds : Note → Prop}
    (report : Report scene store packet now next notes reply)
    (quiet : ∀ {note : Note}, note.Quiet → note.monitored = none → Holds note)
    (online : ∀ {time : Text}, utcNowIso scene.secs = .ok time →
      packet.messageType = .ok .request →
      Holds (.online time packet.chaddr packet.requestedIp (hostnameOf packet))) :
    ∀ note ∈ notes, Holds note := by
  have one : ∀ {last : Note}, last.Quiet → last.monitored = none →
      ∀ note ∈ [last], Holds note :=
    fun calm unmonitored => List.forall_mem_singleton.mpr (quiet calm unmonitored)
  have asked : Holds (discoverNote scene store packet) := quiet trivial rfl
  have behind : ∀ {last : Note} {time : Text}, utcNowIso scene.secs = .ok time →
      packet.messageType = .ok .request → last.Quiet → last.monitored = none →
      ∀ note ∈ requestNotes scene packet time ++ [last], Holds note :=
    fun printed sent calm unmonitored => List.forall_mem_append.mpr
      ⟨forall_requestNotes quiet (online printed sent), one calm unmonitored⟩
  cases report with
  | unsupported => exact one trivial rfl
  | untyped failed => exact one (printable_messageType failed) rfl
  | ignored => exact one trivial rfl
  | heldOffered => exact List.forall_mem_cons.mpr ⟨asked, one trivial rfl⟩
  | freeOffered => exact List.forall_mem_cons.mpr ⟨asked, one trivial rfl⟩
  | exhausted => exact List.forall_mem_cons.mpr ⟨asked, one trivial rfl⟩
  | heldCommitted => exact List.forall_mem_cons.mpr ⟨asked, one trivial rfl⟩
  | freeCommitted => exact List.forall_mem_cons.mpr ⟨asked, one trivial rfl⟩
  | heldAcked printed sent => exact behind printed sent trivial rfl
  | requestAcked printed sent => exact behind printed sent trivial rfl
  | requestRefused printed sent => exact behind printed sent trivial rfl
  | freed => exact one trivial rfl
  | nothingFreed => exact one trivial rfl

theorem Report.plain (report : Report scene store packet now next notes reply) :
    ∀ note ∈ notes, note.Plain packet := by
  refine report.forall_notes ?_ ?_
  · intro note quiet unmonitored
    exact .quiet quiet unmonitored
  · intro time printed sent
    exact .online (.utcNowIso printed) sent

theorem monitored_requestNotes (sent : packet.messageType = .ok .request) :
    (requestNotes scene packet time).filterMap Note.monitored = packet.online := by
  rw [requestNotes, Packet.online, if_pos sent]
  split <;> rfl

/-- Every Request has one line of the monitor, and nothing else has one. -/
theorem Report.monitored (report : Report scene store packet now next notes reply) :
    notes.filterMap Note.monitored = packet.online := by
  have other : ∀ {kind}, packet.messageType = .ok kind → kind ≠ .request →
      [] = packet.online := by
    intro kind sent different
    rw [Packet.online, if_neg]
    intro request
    rw [sent, Except.ok.injEq] at request
    exact different request
  have released : ∀ {kind : MessageType}, kind = .release ∨ kind = .decline → kind ≠ .request := by
    rintro kind (rfl | rfl) <;> decide
  cases report with
  | unsupported sent _ notRequest => exact other sent notRequest
  | untyped failed =>
      rw [Packet.online, if_neg (by simp [failed])]
      rfl
  | ignored sent gives => exact other sent (released gives)
  | freed sent gives => exact other sent (released gives)
  | nothingFreed sent gives => exact other sent (released gives)
  | heldOffered sent => exact other sent (by decide)
  | freeOffered sent => exact other sent (by decide)
  | exhausted sent => exact other sent (by decide)
  | heldCommitted sent => exact other sent (by decide)
  | freeCommitted sent => exact other sent (by decide)
  | heldAcked _ sent =>
      rw [List.filterMap_append, monitored_requestNotes sent]
      exact List.append_nil _
  | requestAcked _ sent =>
      rw [List.filterMap_append, monitored_requestNotes sent]
      exact List.append_nil _
  | requestRefused _ sent =>
      rw [List.filterMap_append, monitored_requestNotes sent]
      exact List.append_nil _

/-- The notes about a packet stay on their lines exactly if it spares line breaks. -/
theorem Report.unbroken_iff (report : Report scene store packet now next notes reply) :
    (∀ note ∈ notes, '\n' ∉ note.text) ↔ packet.Spares '\n' := by
  constructor
  · intro unbroken sent name announced broken
    have listed : (packet.chaddr, packet.requestedIp, name) ∈ notes.filterMap Note.monitored := by
      rw [report.monitored, Packet.online, if_pos sent, announced]
      exact List.mem_singleton_self _
    rcases List.mem_filterMap.mp listed with ⟨note, member, told⟩
    have clean := unbroken note member
    cases report.plain note member with
    | quiet _ unmonitored =>
        rw [unmonitored] at told
        cases told
    | online =>
        rw [announced] at clean
        exact clean (List.mem_flatten.mpr ⟨name, by simp [Note.parts], broken⟩)
  · intro spared note member
    cases report.plain note member with
    | quiet quiet => exact not_mem_of_printable (Note.printable_text quiet) rfl
    | @online time ascii sent =>
        have newline : isPrintable '\n' = false := rfl
        have name : '\n' ∉ (hostnameOf packet).getD "-".toList := by
          cases announced : hostnameOf packet with
          | none => decide
          | some name => exact spared sent name announced
        have clean : ∀ part ∈ [time, ['\t'], chaddr packet.chaddr, ['\t'],
            packet.requestedIp.toText, ['\t'], (hostnameOf packet).getD "-".toList, ['\t'],
            "Online".toList], '\n' ∉ part := by
          simp only [List.forall_mem_cons, not_mem_of_printable ascii newline,
            not_mem_of_printable (.chaddr packet.chaddr) newline,
            not_mem_of_printable (.ipv4 packet.requestedIp) newline, name, not_false_eq_true,
            true_and]
          decide
        intro broken
        rcases List.mem_flatten.mp broken with ⟨part, listed, inside⟩
        exact clean part listed inside

end MyServer

/-! ## The log of a run, as text -/

variable {past : List (Handled MyServer (Timed IoError) (List Note × Reaction))}

/-- All notes of a run, the oldest first. -/
def notesOf (past : List (Handled MyServer (Timed IoError) (List Note × Reaction))) :
    List Note :=
  past.reverse.flatMap fun handled => handled.output.1

def onlineIn (bytes : List UInt8) : List Online :=
  match Packet.fromBytes bytes with
  | .ok packet => packet.online
  | .error _ => []

/-- No Request that arrives in a run announces a host name with the character in it. -/
def Spared (past : List (Handled MyServer (Timed IoError) (List Note × Reaction)))
    (stop : Char) : Prop :=
  ∀ handled ∈ past, ∀ packet, Packet.fromBytes handled.input.received = .ok packet →
    packet.Spares stop

namespace Daemon

variable {config : Config} {hasher : Hasher Ipv4Addr MyServer.Entry} {file : LeasesFile}
variable {daemon : Daemon} {broadcasts : List Ipv4Addr} {initial state store next : MyServer}
variable {timed : Timed IoError} {notes : List Note} {reaction : Reaction}

theorem LoggedRound.plain
    (logged : LoggedRound daemon broadcasts store timed next notes reaction) :
    ∀ note ∈ notes, ∃ packet, Packet.fromBytes timed.received = .ok packet ∧
      note.Plain packet := by
  intro note listed
  cases logged with
  | refused => cases listed
  | silent decoded report => exact ⟨_, decoded, report.plain note listed⟩
  | answered decoded report => exact ⟨_, decoded, report.plain note listed⟩

theorem LoggedRound.monitored
    (logged : LoggedRound daemon broadcasts store timed next notes reaction) :
    notes.filterMap Note.monitored = onlineIn timed.received := by
  rw [onlineIn]
  cases logged with
  | refused decoded =>
      rw [decoded]
      rfl
  | silent decoded report =>
      rw [decoded]
      exact report.monitored
  | answered decoded report =>
      rw [decoded]
      exact report.monitored

theorem LoggedRound.unbroken_iff
    (logged : LoggedRound daemon broadcasts store timed next notes reaction) :
    (∀ note ∈ notes, '\n' ∉ note.text) ↔
      ∀ packet, Packet.fromBytes timed.received = .ok packet → packet.Spares '\n' := by
  have decides : ∀ {packet}, Packet.fromBytes timed.received = .ok packet →
      (packet.Spares '\n' ↔
        ∀ packet, Packet.fromBytes timed.received = .ok packet → packet.Spares '\n') := by
    intro packet decoded
    constructor
    · intro spared other again
      cases decoded.symm.trans again
      exact spared
    · intro spared
      exact spared packet decoded
  cases logged with
  | refused decoded =>
      refine ⟨fun _ packet again => ?_, fun _ note listed => by cases listed⟩
      cases decoded.symm.trans again
  | silent decoded report => exact report.unbroken_iff.trans (decides decoded)
  | answered decoded report => exact report.unbroken_iff.trans (decides decoded)

theorem forall_mem_notesOf {Holds : Note → Prop} : (∀ note ∈ notesOf past, Holds note) ↔
    ∀ handled ∈ past, ∀ note ∈ handled.output.1, Holds note := by
  simp only [notesOf, List.forall_mem_flatMap, List.mem_reverse]

/-- A client can break a line of the log, and so write lines of its own, but only with a
line break in the host name of a Request. -/
theorem lines_of_run (accepted : config.validate = .ok config)
    (loaded : MyServer.main config hasher file = .ok initial)
    (run : Run (daemon.roundLogged broadcasts) initial past state) :
    (Lines.of '\n' '\r' (printed (notesOf past))).length = (notesOf past).length ↔
      Spared past '\n' := by
  rw [length_lines_iff, forall_mem_notesOf]
  refine forall₂_congr fun handled member => ?_
  exact (loggedRound_of_run accepted loaded run member).2.unbroken_iff

/-- A Request with a host name of two lines. -/
def brokenName : Packet :=
  .ofClient #v[2, 0, 0, 0, 7, 9] [.dhcpMessageType .request, .hostName "a\nb".toList]

set_option maxRecDepth 10000 in
/-- Four notes of a Request take five lines. -/
theorem lines_of_run_broken : ∃ session,
    simulate ((serveWithBroadcasts (.new 192 168 2 1) []).roundLogged [])
        (MyServer.main MyServer.twoLeases Hasher.newestFirst none)
        [⟨fromClient brokenName.wire, 1700000000⟩] = .ok session ∧
      (Lines.of '\n' '\r' (printed (notesOf session.past))).length = 5 ∧
      (notesOf session.past).length = 4 ∧ ¬Spared session.past '\n' := by
  have computed : Checked.passes (simulate ((serveWithBroadcasts (.new 192 168 2 1) []).roundLogged
      []) (MyServer.main MyServer.twoLeases Hasher.newestFirst none)
      [⟨fromClient brokenName.wire, 1700000000⟩])
      (fun session => (Lines.of '\n' '\r' (printed (notesOf session.past))).length = 5 ∧
        (notesOf session.past).length = 4) = true := by
    decide +kernel
  rcases Checked.exists_of_passes computed with ⟨session, simulated, counted⟩
  rcases Run.of_simulate simulated with ⟨loaded, run⟩
  rcases of_decide_eq_true counted with ⟨lines, notes⟩
  refine ⟨session, simulated, lines, notes, ?_⟩
  rw [← lines_of_run rfl loaded run, lines, notes]
  decide

/-- Every note of a run that spares line breaks stays on its line. -/
theorem unbroken_of_run (accepted : config.validate = .ok config)
    (loaded : MyServer.main config hasher file = .ok initial)
    (run : Run (daemon.roundLogged broadcasts) initial past state) (newline : Spared past '\n') :
    (∀ note ∈ notesOf past, '\n' ∉ note.text) ∧
      ∀ note ∈ notesOf past, note.text.getLast? ≠ some '\r' := by
  rw [forall_mem_notesOf, forall_mem_notesOf]
  constructor
  · intro handled member
    have logged := (loggedRound_of_run accepted loaded run member).2
    exact logged.unbroken_iff.mpr (newline handled member)
  · intro handled member note listed
    have logged := (loggedRound_of_run accepted loaded run member).2
    rcases logged.plain note listed with ⟨packet, _, plain⟩
    exact getLast?_text_of_plain plain

/-- The notes of a run, read one by one, are the Requests that arrived. -/
theorem filterMap_readOnline_of_run (accepted : config.validate = .ok config)
    (loaded : MyServer.main config hasher file = .ok initial)
    (run : Run (daemon.roundLogged broadcasts) initial past state) (tab : Spared past '\t') :
    ((notesOf past).map Note.text).filterMap readOnline =
      past.reverse.flatMap fun handled => onlineIn handled.input.received := by
  have plain : ∀ note ∈ notesOf past, readOnline note.text = note.monitored := by
    rw [forall_mem_notesOf]
    intro handled member note listed
    have logged := (loggedRound_of_run accepted loaded run member).2
    rcases logged.plain note listed with ⟨packet, decoded, plain⟩
    exact readOnline_of_plain plain (tab handled member packet decoded)
  have read : (notesOf past).filterMap (readOnline ∘ Note.text) =
      (notesOf past).filterMap Note.monitored :=
    List.filterMap_congr plain
  rw [List.filterMap_map, read, notesOf, List.filterMap_flatMap]
  apply List.flatMap_congr
  intro handled member
  rw [List.mem_reverse] at member
  exact (loggedRound_of_run accepted loaded run member).2.monitored

/-- Who reads the log at its tabs finds one line for each Request that arrived, in order,
with the MAC, the address and the host name that were in it. -/
theorem monitor_of_run (accepted : config.validate = .ok config)
    (loaded : MyServer.main config hasher file = .ok initial)
    (run : Run (daemon.roundLogged broadcasts) initial past state)
    (newline : Spared past '\n') (tab : Spared past '\t') :
    (Lines.of '\n' '\r' (printed (notesOf past))).filterMap readOnline =
      past.reverse.flatMap fun handled => onlineIn handled.input.received := by
  rcases unbroken_of_run accepted loaded run newline with ⟨unbroken, ended⟩
  rw [lines_printed unbroken ended, filterMap_readOnline_of_run accepted loaded run tab]

/-- A client with a host name asks for an address. -/
def lamp : Packet :=
  .ofClient #v[2, 0, 0, 0, 7, 8] [.dhcpMessageType .request,
    .requestedIpAddress (.new 10 0 0 9), .hostName "lamp".toList]

theorem fromBytes_lamp : Packet.fromBytes lamp.wire = .ok lamp := by
  apply fromBytes_whole _ (List.cons_ne_nil _ _) (by decide)
  simp [lamp, Packet.ofClient, DhcpOption.Readable]

def lampAtNoon : Timed String where
  toArrival := fromClient lamp.wire
  secs := 1700000000

/-- The Request spares every character that is not in its host name. -/
theorem spared_of_received {stop : Char}
    (received : (past.map fun handled => handled.input.received) = [lamp.wire])
    (absent : stop ∉ "lamp".toList) : Spared past stop := by
  intro handled member packet decoded sent name announced
  have listed := List.mem_map_of_mem (f := fun handled => handled.input.received) member
  rw [received, List.mem_singleton] at listed
  rw [listed, fromBytes_lamp] at decoded
  cases decoded
  have named : hostnameOf lamp = some "lamp".toList := rfl
  rw [named] at announced
  cases announced
  exact absent

set_option maxRecDepth 10000 in
/-- The line of a Request with a host name. -/
theorem monitor_of_run_request : ∃ session,
    simulate ((serveWithBroadcasts (.new 192 168 2 1) []).roundLogged [])
        (MyServer.main MyServer.twoLeases Hasher.newestFirst none) [lampAtNoon] = .ok session ∧
      (Lines.of '\n' '\r' (printed (notesOf session.past))).filterMap readOnline =
        [(#v[2, 0, 0, 0, 7, 8], .new 10 0 0 9, "lamp".toList)] := by
  have computed : Checked.passes (simulate ((serveWithBroadcasts (.new 192 168 2 1) []).roundLogged
      []) (MyServer.main MyServer.twoLeases Hasher.newestFirst none) [lampAtNoon])
      (fun session => (session.past.map fun handled => handled.input.received) = [lamp.wire]) =
        true := by
    decide
  rcases Checked.exists_of_passes computed with ⟨session, simulated, one⟩
  rcases Run.of_simulate simulated with ⟨loaded, run⟩
  have received := of_decide_eq_true one
  refine ⟨session, simulated, ?_⟩
  rw [monitor_of_run rfl loaded run (spared_of_received received (by decide))
    (spared_of_received received (by decide))]
  have same : (session.past.reverse.flatMap fun handled => onlineIn handled.input.received) =
      (session.past.map fun handled => handled.input.received).reverse.flatMap onlineIn := by
    rw [← List.map_reverse, List.flatMap_map]
  rw [same, received]
  decide

end Daemon

end RustyDhcp
