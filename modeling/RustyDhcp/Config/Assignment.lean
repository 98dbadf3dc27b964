import RustyDhcp.Config.Parse
import RustyDhcp.Readers

/-! # Assignments

What a line of the file does to the configuration, apart from how it is
written. Every setting is replaced by its assignment, but the extra broadcast
addresses, which only ever grow. -/

namespace RustyDhcp.Config

inductive Assignment where
  | serverIp (ip : Ipv4Addr)
  | ipStart (ip : Ipv4Addr)
  | leaseNum (count : U32)
  | subnetMask (mask : Ipv4Addr)
  | routerIp (ip : Ipv4Addr)
  | dnsIps (ips : List Ipv4Addr)
  | enableNtp (enabled : Bool)
  | ntpIps (ips : List Ipv4Addr)
  | enableRapidCommit (enabled : Bool)
  | broadcastIp (ip : Ipv4Addr) (extra : List Ipv4Addr)
  | extraBroadcastIps (extra : List Ipv4Addr)
  | leaseDurationSecs (secs : U32)
  | leasesFile (path : Text)
  | listenAddr (addr : SocketAddr)
  | enableDhcpv6 (enabled : Bool)
  | serverDuid (duid : List UInt8)
  | ipv6Start (ip : Ipv6Addr)
  | ipv6LeaseNum (count : U64)
  | ipv6Dns (ips : List Ipv6Addr)
  | ipv6LeaseDurationSecs (secs : U32)
  | leasesFileV6 (path : Text)
  | listenAddrV6 (addr : SocketAddr)

theorem eq_some_of_require {what : String} {found : Option α} {value : α}
    (required : require what found = .ok value) : found = some value := by
  cases found with
  | none => cases required
  | some result =>
      cases required
      rfl

namespace Assignment

def key : Assignment → Key
  | serverIp _ => .serverIp
  | ipStart _ => .ipStart
  | leaseNum _ => .leaseNum
  | subnetMask _ => .subnetMask
  | routerIp _ => .routerIp
  | dnsIps _ => .dnsIps
  | enableNtp _ => .enableNtp
  | ntpIps _ => .ntpIps
  | enableRapidCommit _ => .enableRapidCommit
  | broadcastIp _ _ => .broadcastIp
  | extraBroadcastIps _ => .extraBroadcastIps
  | leaseDurationSecs _ => .leaseDurationSecs
  | leasesFile _ => .leasesFile
  | listenAddr _ => .listenAddr
  | enableDhcpv6 _ => .enableDhcpv6
  | serverDuid _ => .serverDuid
  | ipv6Start _ => .ipv6Start
  | ipv6LeaseNum _ => .ipv6LeaseNum
  | ipv6Dns _ => .ipv6Dns
  | ipv6LeaseDurationSecs _ => .ipv6LeaseDurationSecs
  | leasesFileV6 _ => .leasesFileV6
  | listenAddrV6 _ => .listenAddrV6

def run (assignment : Assignment) (config : Config) : Config :=
  match assignment with
  | serverIp ip => { config with serverIp := ip }
  | ipStart ip => { config with ipStart := ip }
  | leaseNum count => { config with leaseNum := count }
  | subnetMask mask => { config with subnetMask := mask }
  | routerIp ip => { config with routerIp := ip }
  | dnsIps ips => { config with dnsIps := ips }
  | enableNtp enabled => { config with enableNtp := enabled }
  | ntpIps ips => { config with ntpIps := ips }
  | enableRapidCommit enabled => { config with enableRapidCommit := enabled }
  | broadcastIp ip extra => addExtra { config with broadcastIp := ip } extra
  | extraBroadcastIps extra => config.addExtra extra
  | leaseDurationSecs secs => { config with leaseDurationSecs := secs }
  | leasesFile path => { config with leasesFile := path }
  | listenAddr addr => { config with listenAddr := addr }
  | enableDhcpv6 enabled => { config with enableDhcpv6 := enabled }
  | serverDuid duid => { config with serverDuid := duid }
  | ipv6Start ip => { config with ipv6Start := ip }
  | ipv6LeaseNum count => { config with ipv6LeaseNum := count }
  | ipv6Dns ips => { config with ipv6Dns := ips }
  | ipv6LeaseDurationSecs secs => { config with ipv6LeaseDurationSecs := secs }
  | leasesFileV6 path => { config with leasesFileV6 := path }
  | listenAddrV6 addr => { config with listenAddrV6 := addr }

/-- The addresses that the assignment adds to those of the lines before it. -/
def added : Assignment → List Ipv4Addr
  | broadcastIp _ extra | extraBroadcastIps extra => extra
  | _ => []

/-- What a value assigns to a key. -/
def read (lower : Lowercase) (key : Key) (value : Text) : Except String Assignment :=
  match key with
  | .serverIp => (require "IPv4 address" (parseIpv4Addr value)).map serverIp
  | .ipStart => (require "IPv4 address" (parseIpv4Addr value)).map ipStart
  | .leaseNum => (require "u32" (parseU32 value)).map leaseNum
  | .subnetMask => (require "IPv4 address" (parseIpv4Addr value)).map subnetMask
  | .routerIp => (require "IPv4 address" (parseIpv4Addr value)).map routerIp
  | .dnsIps => (require "IPv4 list" (parseIpv4List value)).map dnsIps
  | .enableNtp => (require "bool" (parseBool lower value)).map enableNtp
  | .ntpIps => (require "IPv4 list" (parseIpv4List value)).map ntpIps
  | .enableRapidCommit => (require "bool" (parseBool lower value)).map enableRapidCommit
  | .broadcastIp =>
      (require "IPv4 address" (parseIpv4List value)).map fun ips =>
        broadcastIp (ips.headD .unspecified) ips.tail
  | .extraBroadcastIps => (require "IPv4 list" (parseIpv4List value)).map extraBroadcastIps
  | .leaseDurationSecs => (require "u32" (parseU32 value)).map leaseDurationSecs
  | .leasesFile => .ok (leasesFile value)
  | .listenAddr => (require "socket address" (parseSocketAddr value)).map listenAddr
  | .enableDhcpv6 => (require "bool" (parseBool lower value)).map enableDhcpv6
  | .serverDuid => (require "DUID hex" (parseDuidHex value).toOption).map serverDuid
  | .ipv6Start => (require "IPv6 address" (parseIpv6Addr value)).map ipv6Start
  | .ipv6LeaseNum => (require "u64" (parseU64 value)).map ipv6LeaseNum
  | .ipv6Dns => (require "IPv6 list" (parseIpv6List value)).map ipv6Dns
  | .ipv6LeaseDurationSecs => (require "u32" (parseU32 value)).map ipv6LeaseDurationSecs
  | .leasesFileV6 => .ok (leasesFileV6 value)
  | .listenAddrV6 => (require "socket address" (parseSocketAddr value)).map listenAddrV6

variable {lower : Lowercase} {config : Config} {value : Text} {first second assignment : Assignment}

theorem map_require {what : String} {found : Option α} {build : α → Assignment}
    {update : α → Config} (same : ∀ value, update value = (build value).run config) :
    (do return update (← require what found)) =
      ((require what found).map build).map fun assignment => assignment.run config := by
  cases found with
  | none => rfl
  | some value => exact congrArg Except.ok (same value)

theorem addExtra_nil (config : Config) : config.addExtra [] = config := by
  rw [addExtra, List.append_nil]

theorem addExtra_addExtra (config : Config) (first second : List Ipv4Addr) :
    (config.addExtra first).addExtra second = config.addExtra (first ++ second) := by
  rw [addExtra, addExtra, addExtra, List.append_assoc]

/-- The further addresses of a list are added one by one. -/
theorem foldlM_pushExtra (parts : List Text) (config : Config) :
    parts.foldlM pushExtra config =
      (require "IPv4 address" (parts.mapM fun part => parseIpv4Addr (trim part))).map
        config.addExtra := by
  induction parts generalizing config with
  | nil => exact congrArg Except.ok (addExtra_nil config).symm
  | cons part parts induction =>
      rw [List.foldlM_cons, List.mapM_cons, pushExtra]
      cases parseIpv4Addr (trim part) with
      | none => rfl
      | some ip =>
          refine Eq.trans (induction (config.addExtra [ip])) ?_
          cases parts.mapM fun part => parseIpv4Addr (trim part) with
          | none => rfl
          | some extra => exact congrArg Except.ok (addExtra_addExtra config [ip] extra)

theorem apply_broadcastIp : apply lower config .broadcastIp value =
    (read lower .broadcastIp value).map fun assignment => assignment.run config := by
  rw [apply, read, parseIpv4List]
  cases fields : value.splitOn ',' with
  | nil => exact absurd fields (List.splitOn_ne_nil ',' value)
  | cons first parts =>
      dsimp only
      rw [List.mapM_cons]
      cases parseIpv4Addr (trim first) with
      | none => rfl
      | some ip =>
          refine Eq.trans (foldlM_pushExtra parts { config with broadcastIp := ip }) ?_
          cases parts.mapM fun part => parseIpv4Addr (trim part) <;> rfl

/-- A line does to the configuration what it assigns. -/
theorem apply_eq (key : Key) : apply lower config key value =
    (read lower key value).map fun assignment => assignment.run config := by
  cases key with
  | broadcastIp => exact apply_broadcastIp
  | leasesFile => rfl
  | leasesFileV6 => rfl
  | _ =>
      rw [apply, read]
      exact map_require fun _ => rfl

theorem added_run (assignment : Assignment) (config : Config) :
    (assignment.run config).extraBroadcastIps = config.extraBroadcastIps ++ assignment.added := by
  cases assignment <;> first | rfl | exact (List.append_nil _).symm

theorem run_run (different : first.key ≠ second.key) (settled : first.added = []) :
    second.run (first.run config) = first.run (second.run config) := by
  cases first <;> cases second <;> first
    | rfl
    | exact absurd rfl different
    | (cases settled; simp only [run, addExtra, List.append_nil])

theorem run_again (same : first.key = second.key) (settled : first.added = []) :
    second.run (first.run config) = second.run config := by
  cases first <;> cases second <;> cases same
  all_goals first
    | rfl
    | (cases settled; simp only [run, addExtra, List.append_nil])

/-- Only these two add to what is there. -/
theorem key_of_added (more : assignment.added ≠ []) :
    assignment.key = .broadcastIp ∨ assignment.key = .extraBroadcastIps := by
  cases assignment with
  | broadcastIp => exact .inl rfl
  | extraBroadcastIps => exact .inr rfl
  | _ => exact absurd rfl more

theorem exists_of_map_eq_ok {found : Except String α} {build : α → Assignment}
    (built : found.map build = .ok assignment) :
    ∃ value, found = .ok value ∧ build value = assignment := by
  cases found with
  | error what => cases built
  | ok value =>
      cases built
      exact ⟨value, rfl, rfl⟩

theorem key_of_read {key : Key} (found : read lower key value = .ok assignment) :
    assignment.key = key := by
  cases key with
  | leasesFile =>
      cases found
      rfl
  | leasesFileV6 =>
      cases found
      rfl
  | _ =>
      rcases exists_of_map_eq_ok found with ⟨_, _, rfl⟩
      rfl

end Assignment

/-! ## Lines -/

/-- The key that a line assigns to. -/
def keyOf (lower : Lowercase) (rawLine : Text) : Option Text :=
  let line := trim rawLine
  if isIgnored line then none
  else (find ['='] line).map fun eq => lower.map (trim (line.take eq))

/-- What a line says behind its first `=`, without a comment. -/
def valueOf (rawLine : Text) : Text :=
  let line := trim rawLine
  stripComment (trim (line.drop ((find ['='] line).getD 0 + 1)))

def assignmentOf (lower : Lowercase) (rawLine : Text) : Option Assignment := do
  let key ← keyOf lower rawLine
  let setting ← Key.ofName key
  (Assignment.read lower setting (valueOf rawLine)).toOption

/-- What a line makes of the configuration before it. -/
def effect (lower : Lowercase) (config : Config) (rawLine : Text) : Config :=
  match assignmentOf lower rawLine with
  | some assignment => assignment.run config
  | none => config

/-- The line is no error, wherever it stands. -/
def Readable (lower : Lowercase) (rawLine : Text) : Prop :=
  ∀ config lineNo, parseLine lower config lineNo rawLine = .ok (effect lower config rawLine)

variable {lower : Lowercase} {line rawLine : Text} {config : Config} {lineNo : Nat}

/-- Line breaks are whitespace. -/
theorem trim_chomp (piece : Text) : trim (Lines.chomp '\n' '\r' piece) = trim piece := by
  have blank : ∀ char, isWhitespace char = true → ∀ text : Text, text.getLast? = some char →
      trim text.dropLast = trim text := by
    intro char whitespace text last
    have whole := List.dropLast_append_getLast? char last
    have trimmed : trim (text.dropLast ++ [char]) = trim text.dropLast := by
      apply trim_append
      intro other member
      rw [List.mem_singleton.mp member]
      exact whitespace
    rw [← trimmed, whole]
  rw [Lines.chomp]
  split
  · rename_i newline
    split
    · rename_i carriage
      rw [blank '\r' (by decide) _ carriage, blank '\n' (by decide) _ newline]
    · exact blank '\n' (by decide) _ newline
  · rfl

theorem keyOf_of_assignmentOf {assignment : Assignment}
    (assigns : assignmentOf lower line = some assignment) :
    keyOf lower line = some assignment.key.name.toList := by
  rcases Option.bind_eq_some_iff.mp assigns with ⟨key, known, assigns⟩
  rcases Option.bind_eq_some_iff.mp assigns with ⟨setting, named, assigns⟩
  cases found : Assignment.read lower setting (valueOf line) with
  | error what =>
      rw [found] at assigns
      cases assigns
  | ok read =>
      rw [found] at assigns
      cases assigns
      rw [known, Assignment.key_of_read found, Key.name_of_ofName named]

theorem keyOf_cases (lower : Lowercase) (line : Text) :
    isIgnored (trim line) = true ∧ keyOf lower line = none ∨
      isIgnored (trim line) = false ∧ find ['='] (trim line) = none ∧ keyOf lower line = none ∨
      isIgnored (trim line) = false ∧ ∃ eq, find ['='] (trim line) = some eq ∧
        keyOf lower line = some (lower.map (trim ((trim line).take eq))) := by
  cases ignored : isIgnored (trim line) with
  | true => exact .inl ⟨rfl, if_pos ignored⟩
  | false =>
      have shown : keyOf lower line =
          (find ['='] (trim line)).map fun eq => lower.map (trim ((trim line).take eq)) :=
        if_neg (by rw [ignored]; decide)
      rw [shown]
      cases find ['='] (trim line) with
      | none => exact .inr (.inl ⟨rfl, rfl, rfl⟩)
      | some eq => exact .inr (.inr ⟨rfl, eq, rfl, rfl⟩)

/-- What happens to a line with a key. -/
theorem parseLine_of_keyOf {key : Text} (known : keyOf lower line = some key) :
    parseLine lower config lineNo line =
      if key.isEmpty then .error (.emptyKey lineNo)
      else if (valueOf line).isEmpty then .error (.emptyValue lineNo key)
      else
        match Key.ofName key with
        | some setting =>
            (apply lower config setting (valueOf line)).mapError fun what =>
              .invalid lineNo what key (valueOf line)
        | none => .ok config := by
  rcases keyOf_cases lower line with ⟨_, noKey⟩ | ⟨_, _, noKey⟩ | ⟨shown, eq, found, keyEq⟩
  · rw [noKey] at known
    cases known
  · rw [noKey] at known
    cases known
  · rw [keyEq, Option.some.injEq] at known
    subst known
    rw [parseLine, if_neg (by rw [shown]; decide), valueOf, found]
    rfl

theorem readable_or_error_of_no_key (noKey : keyOf lower line = none) : Readable lower line ∨
    ∀ config lineNo, ∃ error, parseLine lower config lineNo line = .error error := by
  have same : ∀ config, effect lower config line = config := by
    intro config
    rw [effect, assignmentOf, noKey]
    rfl
  rcases keyOf_cases lower line with ⟨ignored, _⟩ | ⟨shown, absent, _⟩ | ⟨_, _, _, known⟩
  · refine .inl fun config lineNo => ?_
    rw [same]
    exact if_pos ignored
  · refine .inr fun config lineNo => ⟨.expectedKeyValue lineNo (trim line), ?_⟩
    rw [parseLine, if_neg (by rw [shown]; decide), absent]
  · rw [known] at noKey
    cases noKey

/-- What happens to a line with a key and a value. -/
theorem parseLine_of_value {key : Text} (known : keyOf lower line = some key)
    (someKey : ¬key.isEmpty = true) (someValue : ¬(valueOf line).isEmpty = true) :
    parseLine lower config lineNo line =
      match Key.ofName key with
      | some setting =>
          (Assignment.read lower setting (valueOf line)).map
              (fun assignment => assignment.run config) |>.mapError fun what =>
            .invalid lineNo what key (valueOf line)
      | none => .ok config := by
  rw [parseLine_of_keyOf known, if_neg someKey, if_neg someValue]
  cases Key.ofName key with
  | none => rfl
  | some setting =>
      dsimp only
      rw [Assignment.apply_eq]

theorem readable_or_error_of_value {key : Text} (known : keyOf lower line = some key)
    (someKey : ¬key.isEmpty = true) (someValue : ¬(valueOf line).isEmpty = true) :
    Readable lower line ∨
      ∀ config lineNo, ∃ error, parseLine lower config lineNo line = .error error := by
  have assigns : assignmentOf lower line = (Key.ofName key).bind fun setting =>
      (Assignment.read lower setting (valueOf line)).toOption := by
    rw [assignmentOf, known]
    rfl
  cases named : Key.ofName key with
  | none =>
      rw [named] at assigns
      refine .inl fun config lineNo => ?_
      rw [parseLine_of_value known someKey someValue, named, effect, assigns]
      rfl
  | some setting =>
      rw [named, Option.bind_some] at assigns
      cases read : Assignment.read lower setting (valueOf line) with
      | error what =>
          refine .inr fun config lineNo => ⟨.invalid lineNo what key (valueOf line), ?_⟩
          rw [parseLine_of_value known someKey someValue, named]
          dsimp only
          rw [read]
          rfl
      | ok assignment =>
          rw [read] at assigns
          refine .inl fun config lineNo => ?_
          rw [parseLine_of_value known someKey someValue, named, effect, assigns]
          dsimp only
          rw [read]
          rfl

/-- A line is an error wherever it stands, or nowhere. -/
theorem readable_or_error (lower : Lowercase) (line : Text) : Readable lower line ∨
    ∀ config lineNo, ∃ error, parseLine lower config lineNo line = .error error := by
  cases known : keyOf lower line with
  | none => exact readable_or_error_of_no_key known
  | some key =>
      by_cases noKey : key.isEmpty = true
      · exact .inr fun config lineNo => ⟨_, (parseLine_of_keyOf known).trans (if_pos noKey)⟩
      · by_cases noValue : (valueOf line).isEmpty = true
        · exact .inr fun config lineNo =>
            ⟨_, (parseLine_of_keyOf known).trans ((if_neg noKey).trans (if_pos noValue))⟩
        · exact readable_or_error_of_value known noKey noValue

/-- A file is read when all its lines can be, one after the other. -/
theorem parseLines_eq_ok_iff {lines : List Text} {result : Config} :
    parseLines lower config lineNo lines = .ok result ↔
      (∀ line ∈ lines, Readable lower line) ∧ lines.foldl (effect lower) config = result := by
  induction lines generalizing config lineNo with
  | nil => simp [parseLines]
  | cons line lines induction =>
      rw [parseLines, List.forall_mem_cons, List.foldl_cons]
      rcases readable_or_error lower line with readable | failing
      · have step := readable config lineNo
        rw [step]
        constructor
        · intro parsed
          have rest := induction.mp parsed
          exact ⟨⟨readable, rest.1⟩, rest.2⟩
        · exact fun found => induction.mpr ⟨found.1.2, found.2⟩
      · constructor
        · intro parsed
          rcases failing config lineNo with ⟨error, failed⟩
          rw [failed] at parsed
          cases parsed
        · intro found
          rcases failing config lineNo with ⟨error, failed⟩
          rw [found.1.1 config lineNo] at failed
          cases failed

end RustyDhcp.Config
