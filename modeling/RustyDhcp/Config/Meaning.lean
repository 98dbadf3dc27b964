import Mathlib.Data.List.Induction
import RustyDhcp.Config.DuplicateKeys

/-! # What a file means

The reader changes the defaults line by line, and gives up in between. What it
makes of a file is said here without that state: the first line that is wrong
is the error, and otherwise each setting is what the last line of its key says,
with the broadcast addresses of all lines. -/

namespace RustyDhcp.Config

/-- What is wrong with a line, for the number it has. -/
def fault (lower : Lowercase) (rawLine : Text) : Option (Nat → ParseError) :=
  if isIgnored (trim rawLine) then none
  else
    match keyOf lower rawLine with
    | none => some fun lineNo => .expectedKeyValue lineNo (trim rawLine)
    | some key =>
        if key.isEmpty then some .emptyKey
        else if (valueOf rawLine).isEmpty then some fun lineNo => .emptyValue lineNo key
        else
          match (Key.ofName key).map fun setting =>
            Assignment.read lower setting (valueOf rawLine) with
          | some (.error what) => some fun lineNo => .invalid lineNo what key (valueOf rawLine)
          | _ => none

/-- The settings of a file, from the last assignment to each key and the broadcast
addresses that are added. -/
def said (last : Key → Option Assignment) (extra : List Ipv4Addr) : Config where
  serverIp := match last .serverIp with | some (.serverIp ip) => ip | _ => defaults.serverIp
  ipStart := match last .ipStart with | some (.ipStart ip) => ip | _ => defaults.ipStart
  leaseNum := match last .leaseNum with | some (.leaseNum count) => count | _ => defaults.leaseNum
  subnetMask :=
    match last .subnetMask with
    | some (.subnetMask mask) => mask
    | _ => defaults.subnetMask
  routerIp := match last .routerIp with | some (.routerIp ip) => ip | _ => defaults.routerIp
  dnsIps := match last .dnsIps with | some (.dnsIps ips) => ips | _ => defaults.dnsIps
  enableNtp :=
    match last .enableNtp with
    | some (.enableNtp enabled) => enabled
    | _ => defaults.enableNtp
  ntpIps := match last .ntpIps with | some (.ntpIps ips) => ips | _ => defaults.ntpIps
  enableRapidCommit :=
    match last .enableRapidCommit with
    | some (.enableRapidCommit enabled) => enabled
    | _ => defaults.enableRapidCommit
  broadcastIp :=
    match last .broadcastIp with
    | some (.broadcastIp ip _) => ip
    | _ => defaults.broadcastIp
  extraBroadcastIps := extra
  leaseDurationSecs :=
    match last .leaseDurationSecs with
    | some (.leaseDurationSecs secs) => secs
    | _ => defaults.leaseDurationSecs
  leasesFile :=
    match last .leasesFile with
    | some (.leasesFile path) => path
    | _ => defaults.leasesFile
  listenAddr :=
    match last .listenAddr with
    | some (.listenAddr addr) => addr
    | _ => defaults.listenAddr
  enableDhcpv6 :=
    match last .enableDhcpv6 with
    | some (.enableDhcpv6 enabled) => enabled
    | _ => defaults.enableDhcpv6
  serverDuid :=
    match last .serverDuid with
    | some (.serverDuid duid) => duid
    | _ => defaults.serverDuid
  ipv6Start := match last .ipv6Start with | some (.ipv6Start ip) => ip | _ => defaults.ipv6Start
  ipv6LeaseNum :=
    match last .ipv6LeaseNum with
    | some (.ipv6LeaseNum count) => count
    | _ => defaults.ipv6LeaseNum
  ipv6Dns := match last .ipv6Dns with | some (.ipv6Dns ips) => ips | _ => defaults.ipv6Dns
  ipv6LeaseDurationSecs :=
    match last .ipv6LeaseDurationSecs with
    | some (.ipv6LeaseDurationSecs secs) => secs
    | _ => defaults.ipv6LeaseDurationSecs
  leasesFileV6 :=
    match last .leasesFileV6 with
    | some (.leasesFileV6 path) => path
    | _ => defaults.leasesFileV6
  listenAddrV6 :=
    match last .listenAddrV6 with
    | some (.listenAddrV6 addr) => addr
    | _ => defaults.listenAddrV6

/-- The last assignment to a key. -/
def lastOf (assignments : List Assignment) (key : Key) : Option Assignment :=
  (assignments.filter fun assignment => assignment.key = key).getLast?

/-- What is wrong with the first of the lines that is wrong. -/
def firstFault (lower : Lowercase) (lineNo : Nat) (lines : List Text) : Option ParseError :=
  (lines.zipIdx lineNo).findSome? fun numbered =>
    (fault lower numbered.1).map fun error => error numbered.2

/-- What a file is read as. -/
def meaning (lower : Lowercase) (text : Text) : Except ParseError Config :=
  let lines := Lines.of '\n' '\r' text
  match firstFault lower 1 lines with
  | some error => .error error
  | none =>
      let assignments := lines.filterMap (assignmentOf lower)
      (said (lastOf assignments) (assignments.flatMap Assignment.added)).validate.mapError .rejected

variable {lower : Lowercase} {config : Config} {line text : Text} {lineNo : Nat}

/-! ## Lines -/

theorem parseLine_eq : parseLine lower config lineNo line =
    match fault lower line with
    | some error => .error (error lineNo)
    | none => .ok (effect lower config line) := by
  rcases keyOf_cases lower line with
    ⟨ignored, noKey⟩ | ⟨shown, absent, noKey⟩ | ⟨shown, _, _, known⟩
  · rw [fault, if_pos ignored, parseLine, if_pos ignored, effect, assignmentOf, noKey]
    rfl
  · rw [fault, if_neg (by rw [shown]; decide), noKey, parseLine, if_neg (by rw [shown]; decide),
      absent]
  · rw [fault, if_neg (by rw [shown]; decide), known, parseLine_of_keyOf known]
    dsimp only
    split
    · rfl
    · split
      · rfl
      · rw [effect, assignmentOf, known, Option.bind_eq_bind, Option.bind_some]
        cases named : Key.ofName _ with
        | none => rfl
        | some setting =>
            rw [Option.map_some, Option.bind_eq_bind, Option.bind_some]
            dsimp only
            rw [Assignment.apply_eq]
            cases Assignment.read lower setting (valueOf line) <;> rfl

theorem foldl_effect (lines : List Text) (config : Config) :
    lines.foldl (effect lower) config =
      (lines.filterMap (assignmentOf lower)).foldl (fun config assignment =>
        assignment.run config) config := by
  rw [List.foldl_filterMap]
  congr 1
  funext config line
  rw [effect]
  cases assignmentOf lower line <;> rfl

theorem parseLines_eq (lines : List Text) :
    parseLines lower config lineNo lines =
      match firstFault lower lineNo lines with
      | some error => .error error
      | none => .ok (lines.foldl (effect lower) config) := by
  induction lines generalizing config lineNo with
  | nil => rfl
  | cons line lines induction =>
      rw [parseLines, parseLine_eq, firstFault, List.zipIdx_cons, List.findSome?_cons]
      dsimp only
      cases fault lower line with
      | some error => rfl
      | none => exact induction

/-! ## Settings -/

theorem lastOf_concat (assignments : List Assignment) (assignment : Assignment) (key : Key) :
    lastOf (assignments ++ [assignment]) key =
      if assignment.key = key then some assignment else lastOf assignments key := by
  rw [lastOf, List.filter_append, List.filter_singleton]
  by_cases same : assignment.key = key
  · simp [same]
  · simp [same, lastOf]

theorem said_update (last : Key → Option Assignment) (extra : List Ipv4Addr)
    (assignment : Assignment) :
    said (fun key => if assignment.key = key then some assignment else last key)
        (extra ++ assignment.added) = assignment.run (said last extra) := by
  cases assignment <;>
    simp only [said, Assignment.key, Assignment.run, addExtra, Assignment.added, List.append_nil,
      reduceCtorEq, if_true, if_false]

theorem foldl_run (assignments : List Assignment) :
    assignments.foldl (fun config assignment => assignment.run config) defaults =
      said (lastOf assignments) (assignments.flatMap Assignment.added) := by
  induction assignments using List.reverseRecOn with
  | nil => rfl
  | append_singleton assignments assignment induction =>
      rw [List.foldl_concat, induction, ← said_update, List.flatMap_append, List.flatMap_singleton]
      congr 1
      funext key
      exact (lastOf_concat assignments assignment key).symm

/-- The reader takes a file for what it means. -/
theorem parse_eq_meaning (lower : Lowercase) (text : Text) :
    parse lower text = meaning lower text := by
  rw [parse, parseLines_eq, meaning]
  dsimp only
  rw [← foldl_run, ← foldl_effect]
  cases firstFault lower 1 (Lines.of '\n' '\r' text) with
  | some error => rfl
  | none => rfl

/-! ## The order of the lines -/

theorem firstFault_eq_none_iff {lines : List Text} :
    firstFault lower lineNo lines = none ↔ ∀ line ∈ lines, fault lower line = none := by
  rw [firstFault, List.findSome?_eq_none_iff]
  constructor
  · intro faultless line member
    rcases List.mem_iff_getElem?.mp member with ⟨index, found⟩
    have numbered : (line, lineNo + index) ∈ lines.zipIdx lineNo :=
      List.mk_add_mem_zipIdx_iff_getElem?.mpr found
    exact Option.map_eq_none_iff.mp (faultless _ numbered)
  · intro faultless numbered member
    exact Option.map_eq_none_iff.mpr (faultless _ (List.fst_mem_of_mem_zipIdx member))

theorem readable_of_fault (faultless : fault lower line = none) : Readable lower line := by
  intro config lineNo
  rw [parseLine_eq, faultless]

theorem Key.name_inj {first second : Key} :
    first.name.toList = second.name.toList ↔ first = second := by
  constructor
  · intro names
    have found := Key.ofName_name first
    rw [names, Key.ofName_name] at found
    exact (Option.some.inj found).symm
  · rintro rfl
    rfl

/-- The assignments to a key are those of the lines with its name. -/
theorem filter_assignments (lines : List Text) (key : Key) :
    (lines.filterMap (assignmentOf lower)).filter (fun assignment => assignment.key = key) =
      (lines.filter fun line => keyOf lower line = some key.name.toList).filterMap
        (assignmentOf lower) := by
  rw [List.filter_filterMap, List.filterMap_filter]
  congr 1
  funext line
  cases assigns : assignmentOf lower line with
  | none => simp
  | some assignment =>
      have known := keyOf_of_assignmentOf assigns
      have same : assignment.key = key ↔ keyOf lower line = some key.name.toList := by
        rw [known, Option.some.injEq, Key.name_inj]
      simp only [Option.filter_some, decide_eq_true_eq, same]

/-- Only the lines that say so add addresses. -/
theorem flatMap_added {lines : List Text} (faultless : ∀ line ∈ lines, fault lower line = none) :
    (lines.filterMap (assignmentOf lower)).flatMap Assignment.added =
      (lines.filter fun line => Extends lower line).flatMap (addedBy lower) := by
  induction lines with
  | nil => rfl
  | cons line lines induction =>
      rw [List.forall_mem_cons] at faultless
      have readable := readable_of_fault faultless.1
      have rest := induction faultless.2
      have first : ((line :: lines).filterMap (assignmentOf lower)).flatMap Assignment.added =
          addedBy lower line ++
            (lines.filterMap (assignmentOf lower)).flatMap Assignment.added := by
        rw [List.filterMap_cons, addedBy]
        cases assignmentOf lower line <;> rfl
      rw [first, rest]
      by_cases adds : Extends lower line
      · simp only [List.filter_cons, adds, decide_true, if_true, List.flatMap_cons]
      · have nothing : addedBy lower line = [] := by
          by_contra more
          exact adds ((addedBy_ne_nil_iff readable).mp more)
        simp only [List.filter_cons, adds, decide_false, Bool.false_eq_true, if_false, nothing,
          List.nil_append]

/-- Lines can change places as long as those of each key stay in their order, and
so do all that add broadcast addresses. -/
theorem parse_reordered {first second : Text}
    (permuted : (Lines.of '\n' '\r' first).Perm (Lines.of '\n' '\r' second))
    (sameKey : ∀ key : Key,
      (Lines.of '\n' '\r' first).filter (fun line => keyOf lower line = some key.name.toList) =
        (Lines.of '\n' '\r' second).filter fun line =>
          keyOf lower line = some key.name.toList)
    (sameExtra : (Lines.of '\n' '\r' first).filter (fun line => Extends lower line) =
      (Lines.of '\n' '\r' second).filter fun line => Extends lower line) :
    (parse lower first).toOption = (parse lower second).toOption := by
  have faults : firstFault lower 1 (Lines.of '\n' '\r' first) = none ↔
      firstFault lower 1 (Lines.of '\n' '\r' second) = none := by
    rw [firstFault_eq_none_iff, firstFault_eq_none_iff]
    simp only [permuted.mem_iff]
  rw [parse_eq_meaning, parse_eq_meaning, meaning, meaning]
  dsimp only
  cases faulty : firstFault lower 1 (Lines.of '\n' '\r' first) with
  | some error =>
      cases faulty' : firstFault lower 1 (Lines.of '\n' '\r' second) with
      | some error' => rfl
      | none =>
          rw [faults.mpr faulty'] at faulty
          cases faulty
  | none =>
      rw [faults.mp faulty]
      have lasts : lastOf ((Lines.of '\n' '\r' first).filterMap (assignmentOf lower)) =
          lastOf ((Lines.of '\n' '\r' second).filterMap (assignmentOf lower)) := by
        funext key
        rw [lastOf, lastOf, filter_assignments, filter_assignments, sameKey]
      dsimp only
      rw [lasts, flatMap_added (firstFault_eq_none_iff.mp faulty), sameExtra,
        flatMap_added (firstFault_eq_none_iff.mp (faults.mp faulty))]

theorem parse_reordered_leaseNum :
    (parse .ascii "lease_num = 5\nenable_ntp = 1\nLEASE_NUM = 7\n".toList).toOption =
      (parse .ascii "lease_num = 5\nLEASE_NUM = 7\nenable_ntp = 1\n".toList).toOption := by
  have first : Lines.of '\n' '\r' "lease_num = 5\nenable_ntp = 1\nLEASE_NUM = 7\n".toList =
      ["lease_num = 5".toList, "enable_ntp = 1".toList, "LEASE_NUM = 7".toList] := by
    decide +kernel
  have second : Lines.of '\n' '\r' "lease_num = 5\nLEASE_NUM = 7\nenable_ntp = 1\n".toList =
      ["lease_num = 5".toList, "LEASE_NUM = 7".toList, "enable_ntp = 1".toList] := by
    decide +kernel
  have keys : keyOf .ascii "lease_num = 5".toList = some Key.leaseNum.name.toList ∧
      keyOf .ascii "enable_ntp = 1".toList = some Key.enableNtp.name.toList ∧
      keyOf .ascii "LEASE_NUM = 7".toList = some Key.leaseNum.name.toList := by
    decide +kernel
  apply parse_reordered
  · rw [first, second]
    decide +kernel
  · intro key
    rw [first, second]
    simp only [List.filter_cons, keys, Option.some.injEq, Key.name_inj]
    by_cases lease : Key.leaseNum = key
    · subst lease
      rfl
    · simp only [lease, decide_false, Bool.false_eq_true, if_false]
  · decide +kernel

end RustyDhcp.Config
