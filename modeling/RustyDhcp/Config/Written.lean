import RustyDhcp.Config.Meaning
import RustyDhcp.Config.TrailingComments
import RustyDhcp.ReadBack

/-! # Writing a configuration

A configuration can be written as a file with a line for each setting. Exactly
the configurations that can be written so that they are read back come out of
any file. -/

namespace RustyDhcp.Config

/-- A text of ASCII without capital letters is in lower case. -/
def Stays (lower : Lowercase) : Prop := ∀ text : Text,
  (text.all fun char => char.toNat < 128 && !char.isUpper) = true → lower.map text = text

/-- A path that a line can say. Behind it, the line ends with a blank and a `#`. -/
structure Path (path : Text) : Prop where
  nonempty : path ≠ []
  trimmed : trim path = path
  unbroken : '\n' ∉ path
  unblanked : path.IsChain Unblanked

/-- What a file can make of the settings. -/
structure Expressible (config : Config) : Prop where
  valid : config.validate = .ok config
  dnsIps : config.dnsIps ≠ []
  ipv6Dns : config.ipv6Dns ≠ []
  leasesFile : Path config.leasesFile
  leasesFileV6 : Path config.leasesFileV6

namespace Assignment

/-- The value of the line. -/
def value : Assignment → Text
  | serverIp ip | ipStart ip | subnetMask ip | routerIp ip => ip.toText
  | leaseNum count => decimal count.toNat
  | leaseDurationSecs secs | ipv6LeaseDurationSecs secs => decimal secs.toNat
  | ipv6LeaseNum count => decimal count.toNat
  | dnsIps ips | ntpIps ips | extraBroadcastIps ips =>
      [','].intercalate (ips.map Ipv4Addr.toText)
  | broadcastIp ip extra => [','].intercalate ((ip :: extra).map Ipv4Addr.toText)
  | enableNtp enabled | enableRapidCommit enabled | enableDhcpv6 enabled =>
      if enabled then "true".toList else "false".toList
  | leasesFile path | leasesFileV6 path => path
  | listenAddr addr | listenAddrV6 addr => addr.toText
  | serverDuid duid => duid.flatMap hexPair
  | ipv6Start ip => ip.toText
  | ipv6Dns ips => [','].intercalate (ips.map Ipv6Addr.toText)

def line (assignment : Assignment) : Text :=
  commentedLine assignment.key.name.toList assignment.value [' '] []

/-- A line can say it. -/
def Sayable : Assignment → Prop
  | dnsIps ips | ntpIps ips | extraBroadcastIps ips => ips ≠ []
  | ipv6Dns ips => ips ≠ []
  | serverDuid duid => duid ≠ []
  | leasesFile path | leasesFileV6 path => Path path
  | _ => True

end Assignment

/-- The settings that are to be written. A list that is empty has no line. -/
def settings (config : Config) : List Assignment :=
  [.serverIp config.serverIp, .ipStart config.ipStart, .leaseNum config.leaseNum,
    .subnetMask config.subnetMask, .routerIp config.routerIp, .dnsIps config.dnsIps,
    .enableNtp config.enableNtp, .enableRapidCommit config.enableRapidCommit,
    .broadcastIp config.broadcastIp [], .leaseDurationSecs config.leaseDurationSecs,
    .leasesFile config.leasesFile, .listenAddr config.listenAddr,
    .enableDhcpv6 config.enableDhcpv6, .serverDuid config.serverDuid,
    .ipv6Start config.ipv6Start, .ipv6LeaseNum config.ipv6LeaseNum, .ipv6Dns config.ipv6Dns,
    .ipv6LeaseDurationSecs config.ipv6LeaseDurationSecs, .leasesFileV6 config.leasesFileV6,
    .listenAddrV6 config.listenAddrV6] ++
  (if config.ntpIps = [] then [] else [.ntpIps config.ntpIps]) ++
  if config.extraBroadcastIps = [] then [] else [.extraBroadcastIps config.extraBroadcastIps]

def toText (config : Config) : Text :=
  config.settings.flatMap fun assignment => assignment.line ++ ['\n']

variable {lower : Lowercase} {config : Config} {line text value : Text} {assignment : Assignment}

/-! ## Values -/

theorem parseU32_decimal (count : U32) : parseU32 (decimal count.toNat) = some count := by
  rw [parseU32, fromStrRadix_decimal (Nat.le_of_lt_succ count.isLt), Option.map_some,
    BitVec.ofNat_toNat, BitVec.setWidth_eq]

theorem parseU64_decimal (count : U64) : parseU64 (decimal count.toNat) = some count := by
  rw [parseU64, fromStrRadix_decimal (Nat.le_of_lt_succ count.isLt), Option.map_some,
    BitVec.ofNat_toNat, BitVec.setWidth_eq]

theorem parseBool_word (stays : Stays lower) (enabled : Bool) :
    parseBool lower (if enabled then "true".toList else "false".toList) = some enabled := by
  have yes := stays "true".toList (by decide)
  have no := stays "false".toList (by decide)
  cases enabled with
  | true =>
      rw [if_pos rfl, parseBool, yes, String.ofList_toList]
      decide
  | false =>
      rw [if_neg Bool.false_ne_true, parseBool, no, String.ofList_toList]
      decide

/-- The values of a list are read one by one. -/
theorem mapM_intercalate {toText : α → Text} {parser : Text → Option α} {values : List α}
    (nonempty : values ≠ []) (readBack : ∀ value, parser (toText value) = some value)
    (plain : ∀ value, ∀ char ∈ toText value, isPlain char = true) :
    (([','].intercalate (values.map toText)).splitOn ',').mapM
      (fun part => parser (trim part)) = some values := by
  have noComma : ∀ part ∈ values.map toText, ',' ∉ part := by
    intro part inside member
    rcases List.mem_map.mp inside with ⟨value, _, rfl⟩
    exact absurd (plain value ',' member) (by decide)
  have some : values.map toText ≠ [] := by
    rwa [Ne, List.map_eq_nil_iff]
  rw [List.splitOn_intercalate ',' noComma some, mapM_eq_map_some, List.map_map]
  apply List.map_congr_left
  intro value _
  have trimmed : trim (toText value) = toText value :=
    trim_of_kept fun char member => isWhitespace_of_isPlain (plain value char member)
  change parser (trim (toText value)) = Option.some value
  rw [trimmed, readBack]

theorem parseIpv4List_intercalate {ips : List Ipv4Addr} (nonempty : ips ≠ []) :
    parseIpv4List ([','].intercalate (ips.map Ipv4Addr.toText)) = some ips :=
  mapM_intercalate nonempty parseIpv4Addr_toText fun _ _ => isPlain_of_mem_ipv4

theorem parseIpv6List_intercalate {ips : List Ipv6Addr} (nonempty : ips ≠ []) :
    parseIpv6List ([','].intercalate (ips.map Ipv6Addr.toText)) = some ips :=
  mapM_intercalate nonempty Ipv6Addr.parseIpv6Addr_toText fun _ _ => isPlain_of_mem_ipv6

theorem require_map {what : String} {found : Option α} {result : α} {build : α → Assignment}
    (same : found = some result) : (require what found).map build = .ok (build result) := by
  rw [same]
  rfl

/-- What a line can say is read back from its value. -/
theorem read_value (stays : Stays lower) (sayable : assignment.Sayable) :
    Assignment.read lower assignment.key assignment.value = .ok assignment := by
  cases assignment with
  | serverIp ip | ipStart ip | subnetMask ip | routerIp ip =>
      exact require_map (parseIpv4Addr_toText ip)
  | leaseNum count | leaseDurationSecs count | ipv6LeaseDurationSecs count =>
      exact require_map (parseU32_decimal count)
  | ipv6LeaseNum count => exact require_map (parseU64_decimal count)
  | dnsIps ips | ntpIps ips | extraBroadcastIps ips =>
      exact require_map (parseIpv4List_intercalate sayable)
  | broadcastIp ip extra =>
      exact require_map (parseIpv4List_intercalate (List.cons_ne_nil ip extra))
  | enableNtp enabled | enableRapidCommit enabled | enableDhcpv6 enabled =>
      exact require_map (parseBool_word stays enabled)
  | leasesFile path | leasesFileV6 path => rfl
  | listenAddr addr | listenAddrV6 addr => exact require_map (parseSocketAddr_toText addr)
  | serverDuid duid =>
      refine require_map ?_
      rw [Assignment.value, Duid.parseDuidHex_of_writes (Duid.writes_flatMap duid) sayable]
      rfl
  | ipv6Start ip => exact require_map (Ipv6Addr.parseIpv6Addr_toText ip)
  | ipv6Dns ips => exact require_map (parseIpv6List_intercalate sayable)

/-! ## Lines -/

theorem Path.exists_head {path : Text} (isPath : Path path) :
    ∃ head rest, path = head :: rest ∧ isWhitespace head = false := by
  have shown : trim path ≠ [] := by
    rw [isPath.trimmed]
    exact isPath.nonempty
  rcases exists_dropWhile shown with ⟨head, rest, _, kept, whole⟩
  exact ⟨head, trimEnd rest, isPath.trimmed.symm.trans whole, kept⟩

/-- A blank and a `#` end the value of a line. -/
theorem stripComment_marked (isPath : Path value) :
    stripComment (value ++ [' ', '#']) = value := by
  have noHash : '#' ∉ [' '] := by decide
  have related : ∀ first second, second ≠ '#' → Unblanked first second := fun _ _ other _ => other
  have clean : (value ++ [' ', '#'].take 1).IsChain Unblanked :=
    (isChain_append_of_no_hash noHash related).mpr isPath.unblanked
  have found : find [' ', '#'] (value ++ [' ', '#']) = some value.length := by
    rw [find_blank_append clean, find_blank_cons, Option.map_some, Nat.zero_add]
  rw [stripComment_of_blank found, List.take_left, trimEnd_of_trim isPath.trimmed]

/-- The character neither ends a value nor begins a comment. -/
def isInk (char : Char) : Bool := !isWhitespace char && char ≠ '#'

theorem isInk_of_isPlain {char : Char} (plain : isPlain char = true) : isInk char = true := by
  rw [isInk, isWhitespace_of_isPlain plain, Bool.not_false, Bool.true_and, decide_eq_true_eq]
  rintro rfl
  exact absurd plain (by decide)

theorem path_of_ink (nonempty : value ≠ []) (ink : ∀ char ∈ value, isInk char = true) :
    Path value where
  nonempty := nonempty
  trimmed := by
    apply trim_of_kept
    intro char member
    have kept := ink char member
    rw [isInk, Bool.and_eq_true, Bool.not_eq_true'] at kept
    exact kept.1
  unbroken := fun member => absurd (ink '\n' member) (by decide)
  unblanked := by
    have noHash : '#' ∉ value := fun member => absurd (ink '#' member) (by decide)
    exact isChain_of_no_hash noHash fun _ _ other _ => other

theorem ne_nil_of_readBack {parser : Text → Option α} {result : α} (nothing : parser [] = none)
    (readBack : parser value = some result) : value ≠ [] := by
  rintro rfl
  rw [nothing] at readBack
  cases readBack

theorem isInk_of_mem_intercalate {toText : α → Text} {values : List α} {char : Char}
    (plain : ∀ value, ∀ char ∈ toText value, isPlain char = true)
    (member : char ∈ [','].intercalate (values.map toText)) : isInk char = true := by
  rcases of_mem_intercalate member with rfl | ⟨part, inside, member⟩
  · decide
  · rcases List.mem_map.mp inside with ⟨value, _, rfl⟩
    exact isInk_of_isPlain (plain value char member)

theorem path_value (sayable : assignment.Sayable) : Path assignment.value := by
  cases assignment with
  | serverIp ip | ipStart ip | subnetMask ip | routerIp ip =>
      exact path_of_ink (ne_nil_of_readBack rfl (parseIpv4Addr_toText ip)) fun _ member =>
        isInk_of_isPlain (isPlain_of_mem_ipv4 member)
  | leaseNum count | leaseDurationSecs count | ipv6LeaseDurationSecs count =>
      exact path_of_ink Nat.toDigits_ne_nil fun _ member =>
        isInk_of_isPlain (isPlain_of_mem_decimal member)
  | ipv6LeaseNum count =>
      exact path_of_ink Nat.toDigits_ne_nil fun _ member =>
        isInk_of_isPlain (isPlain_of_mem_decimal member)
  | dnsIps ips | ntpIps ips | extraBroadcastIps ips =>
      exact path_of_ink (ne_nil_of_readBack rfl (parseIpv4List_intercalate sayable)) fun _ member =>
        isInk_of_mem_intercalate (fun _ _ => isPlain_of_mem_ipv4) member
  | broadcastIp ip extra =>
      have some := List.cons_ne_nil ip extra
      exact path_of_ink (ne_nil_of_readBack rfl (parseIpv4List_intercalate some)) fun _ member =>
        isInk_of_mem_intercalate (fun _ _ => isPlain_of_mem_ipv4) member
  | enableNtp enabled | enableRapidCommit enabled | enableDhcpv6 enabled =>
      have yes : "true".toList.all isInk = true := by decide
      have no : "false".toList.all isInk = true := by decide
      cases enabled with
      | true => exact path_of_ink (by decide) (List.all_eq_true.mp yes)
      | false => exact path_of_ink (by decide) (List.all_eq_true.mp no)
  | leasesFile path | leasesFileV6 path => exact sayable
  | listenAddr addr | listenAddrV6 addr =>
      exact path_of_ink (ne_nil_of_readBack rfl (parseSocketAddr_toText addr)) fun _ member =>
        isInk_of_isPlain (isPlain_of_mem_socketAddr member)
  | serverDuid duid =>
      apply path_of_ink
      · intro empty
        have readBack := Duid.parseDuidHex_of_writes (Duid.writes_flatMap duid) sayable
        rw [Assignment.value] at empty
        rw [empty] at readBack
        cases readBack
      · intro char member
        rcases List.mem_flatMap.mp member with ⟨byte, _, member⟩
        exact isInk_of_isPlain (isPlain_of_mem_hexPair member)
  | ipv6Start ip =>
      exact path_of_ink (ne_nil_of_readBack rfl (Ipv6Addr.parseIpv6Addr_toText ip))
        fun _ member => isInk_of_isPlain (isPlain_of_mem_ipv6 member)
  | ipv6Dns ips =>
      exact path_of_ink (ne_nil_of_readBack rfl (parseIpv6List_intercalate sayable)) fun _ member =>
        isInk_of_mem_intercalate (fun _ _ => isPlain_of_mem_ipv6) member

/-! ## The line of a setting -/

theorem name_plain (key : Key) : trim key.name.toList ≠ [] ∧ '=' ∉ key.name.toList ∧
    isIgnored (trim key.name.toList) = false ∧ '\n' ∉ key.name.toList ∧
    trim key.name.toList = key.name.toList ∧
    (key.name.toList.all fun char => char.toNat < 128 && !char.isUpper) = true := by
  cases key <;> decide

theorem trimEnd_marked (rest : Text) : trimEnd (rest ++ [' ', '#']) = rest ++ [' ', '#'] := by
  have ends := trimEnd_cons (rest ++ [' ']) [] (by decide : isWhitespace '#' = false)
  have whole : rest ++ [' '] ++ ['#'] = rest ++ [' ', '#'] := by simp
  rw [whole] at ends
  rw [ends]
  exact whole

theorem line_eq (assignment : Assignment) : assignment.line =
    plainLine assignment.key.name.toList (assignment.value ++ [' ', '#']) := by
  simp [Assignment.line, commentedLine]

theorem keyOf_line (stays : Stays lower) (sayable : assignment.Sayable) :
    keyOf lower assignment.line = some assignment.key.name.toList := by
  rcases (path_value sayable).exists_head with ⟨head, rest, value, kept⟩
  have name := name_plain assignment.key
  rw [line_eq, value, List.cons_append, keyOf_plainLine name.1 name.2.1 kept, name.2.2.1,
    if_neg Bool.false_ne_true, name.2.2.2.2.1, stays _ name.2.2.2.2.2]

theorem valueOf_line (sayable : assignment.Sayable) :
    valueOf assignment.line = assignment.value := by
  have path := path_value sayable
  rcases path.exists_head with ⟨head, rest, value, kept⟩
  have name := name_plain assignment.key
  rw [line_eq, value, List.cons_append, valueOf_plainLine name.1 name.2.1 kept, trimEnd_marked,
    ← List.cons_append, ← value, stripComment_marked path]

theorem unbroken_line (sayable : assignment.Sayable) : '\n' ∉ assignment.line := by
  have name := (name_plain assignment.key).2.2.2.1
  have value := (path_value sayable).unbroken
  rw [line_eq, plainLine]
  simp [name, value]

theorem fault_line (stays : Stays lower) (sayable : assignment.Sayable) :
    fault lower assignment.line = none := by
  have known := keyOf_line stays sayable
  have someKey : ¬assignment.key.name.toList.isEmpty = true := by
    cases assignment.key <;> decide
  have someValue : ¬(valueOf assignment.line).isEmpty = true := by
    rw [valueOf_line sayable, List.isEmpty_iff]
    exact (path_value sayable).nonempty
  have parsed := @parseLine_eq lower .defaults assignment.line 0
  rw [parseLine_of_value known someKey someValue, Key.ofName_name, valueOf_line sayable] at parsed
  dsimp only at parsed
  rw [read_value stays sayable] at parsed
  cases faulty : fault lower assignment.line with
  | none => rfl
  | some error =>
      rw [faulty] at parsed
      cases parsed

theorem assignmentOf_line (stays : Stays lower) (sayable : assignment.Sayable) :
    assignmentOf lower assignment.line = some assignment := by
  rw [assignmentOf, keyOf_line stays sayable, Option.bind_eq_bind, Option.bind_some,
    Key.ofName_name, Option.bind_eq_bind, Option.bind_some, valueOf_line sayable,
    read_value stays sayable]
  rfl

/-! ## The file -/

theorem sayable_settings (expressible : Expressible config) :
    ∀ assignment ∈ config.settings, assignment.Sayable := by
  have duid : config.serverDuid ≠ [] := by
    intro empty
    have bounds := (validate_eq_ok_iff.mp expressible.valid).2.1
    rw [empty] at bounds
    exact absurd bounds.1 (by decide)
  have ntpIps : ∀ assignment ∈ (if config.ntpIps = [] then [] else
      [Assignment.ntpIps config.ntpIps]), assignment.Sayable := by
    split
    · simp
    · rename_i some
      simpa [Assignment.Sayable] using some
  have extra : ∀ assignment ∈ (if config.extraBroadcastIps = [] then [] else
      [Assignment.extraBroadcastIps config.extraBroadcastIps]), assignment.Sayable := by
    split
    · simp
    · rename_i some
      simpa [Assignment.Sayable] using some
  rw [settings, List.forall_mem_append, List.forall_mem_append]
  refine ⟨⟨?_, ntpIps⟩, extra⟩
  simp only [List.forall_mem_cons, Assignment.Sayable, ne_eq, expressible.dnsIps, duid,
    expressible.ipv6Dns, expressible.leasesFile, expressible.leasesFileV6, not_false_eq_true,
    true_and]
  simp

theorem said_settings (config : Config) :
    said (lastOf config.settings) (config.settings.flatMap Assignment.added) = config := by
  rcases config with ⟨_, _, _, _, _, _, _, ntpIps, _, _, extra, _, _, _, _, _, _, _, _, _, _, _⟩
  cases ntpIps with
  | nil =>
      cases extra with
      | nil => rfl
      | cons => simp [settings, said, lastOf, Assignment.key, Assignment.added, defaults]
  | cons =>
      cases extra with
      | nil => simp [settings, said, lastOf, Assignment.key, Assignment.added]
      | cons => simp [settings, said, lastOf, Assignment.key, Assignment.added]

/-- A configuration is read back from its file. -/
theorem parse_toText (stays : Stays lower) (expressible : Expressible config) :
    parse lower config.toText = .ok config := by
  have sayable := sayable_settings expressible
  have lines : Lines.of '\n' '\r' config.toText =
      config.settings.map Assignment.line := by
    apply Lines.of_flatMap Assignment.line
    · exact fun assignment member => unbroken_line (sayable assignment member)
    · intro assignment _
      have marked : assignment.line = plainLine assignment.key.name.toList
          (assignment.value ++ [' ']) ++ ['#'] := by
        simp [line_eq, plainLine]
      rw [marked, List.getLast?_concat]
      decide
  have faultless : firstFault lower 1 (config.settings.map Assignment.line) = none := by
    rw [firstFault_eq_none_iff, List.forall_mem_map]
    exact fun assignment member => fault_line stays (sayable assignment member)
  have assignments : (config.settings.map Assignment.line).filterMap (assignmentOf lower) =
      config.settings := by
    rw [List.filterMap_map]
    calc config.settings.filterMap (assignmentOf lower ∘ Assignment.line)
        = config.settings.filterMap some :=
          List.filterMap_congr fun assignment member =>
            assignmentOf_line stays (sayable assignment member)
      _ = config.settings := List.filterMap_some
  rw [parse_eq_meaning, meaning, lines]
  dsimp only
  rw [faultless, assignments]
  dsimp only
  rw [said_settings, expressible.valid]
  rfl

/-! ## What files can say -/

theorem prefix_trimEnd (text : Text) : trimEnd text <+: text := by
  rcases exists_trimEnd text with ⟨blank, whole, _⟩
  exact ⟨blank, whole.symm⟩

theorem dropWhile_of_begins {front : Text} (begins : front <+: trim text) :
    front.dropWhile isWhitespace = front := by
  cases front with
  | nil => rfl
  | cons head front =>
      rcases begins with ⟨rest, whole⟩
      have shown : trim text ≠ [] := by
        rw [← whole]
        exact List.cons_ne_nil _ _
      rcases exists_dropWhile shown with ⟨first, others, _, kept, same⟩
      rw [← whole, List.cons_append, List.cons.injEq] at same
      rw [same.1]
      exact List.dropWhile_cons_of_neg (by rw [kept]; decide)

theorem trim_trimEnd {front : Text} (begins : front <+: trim text) :
    trim (trimEnd front) = trimEnd front := by
  change trimEnd ((trimEnd front).dropWhile isWhitespace) = trimEnd front
  rw [dropWhile_of_begins ((prefix_trimEnd front).trans begins), trimEnd_trimEnd]

theorem isChain_take_of_find {position : Nat} (found : find [' ', '#'] value = some position) :
    (value.take position).IsChain Unblanked := by
  induction value generalizing position with
  | nil => cases found
  | cons head value induction =>
      rw [find] at found
      split at found
      · cases found
        exact .nil
      · rename_i other
        rcases Option.map_eq_some_iff.mp found with ⟨before, inside, rfl⟩
        refine List.isChain_cons.mpr ⟨?_, induction inside⟩
        intro next member blank hash
        subst blank hash
        cases value with
        | nil => simp at member
        | cons second value =>
            cases before with
            | zero => simp at member
            | succ before =>
                cases member
                exact other (by simp [List.isPrefixOf])

theorem isChain_of_find_none (absent : find [' ', '#'] value = none) :
    value.IsChain Unblanked := by
  by_contra unclean
  rcases find_blank_some unclean with ⟨position, found⟩
  rw [absent] at found
  cases found

/-- What is left of a value has no blank in front of a `#`. -/
theorem exists_stripComment (text : Text) : ∃ front, front <+: trim text ∧
    front.IsChain Unblanked ∧ stripComment (trim text) = trimEnd front := by
  cases blank : find [' ', '#'] (trim text) with
  | some position =>
      exact ⟨(trim text).take position, List.take_prefix _ _, isChain_take_of_find blank,
        stripComment_of_blank blank⟩
  | none =>
      have clean := isChain_of_find_none blank
      have starts := commentStart_of_no_blank blank
      cases tab : commentStart (trim text) with
      | none =>
          refine ⟨trim text, List.prefix_rfl, clean, ?_⟩
          rw [stripComment_of_none tab]
          exact (trimEnd_trimEnd _).symm
      | some position =>
          refine ⟨(trim text).take position, List.take_prefix _ _, ?_, ?_⟩
          · have whole : (trim text).take position ++ (trim text).drop position = trim text :=
              List.take_append_drop _ _
            rw [← whole] at clean
            exact clean.left_of_append
          · rw [stripComment, tab]

theorem trim_subset (text : Text) : trim text ⊆ text := by
  intro char member
  have within := (prefix_trimEnd _).subset member
  exact (List.dropWhile_suffix _).subset within

theorem path_valueOf (unbroken : '\n' ∉ line) (nonempty : valueOf line ≠ []) :
    Path (valueOf line) := by
  rcases exists_stripComment ((trim line).drop ((find ['='] (trim line)).getD 0 + 1)) with
    ⟨front, begins, clean, same⟩
  have value : valueOf line = trimEnd front := same
  refine ⟨nonempty, ?_, ?_, ?_⟩
  · rw [value]
    exact trim_trimEnd begins
  · rw [value]
    intro member
    have inside := begins.subset ((prefix_trimEnd front).subset member)
    exact unbroken (trim_subset line (List.drop_subset _ _ (trim_subset _ inside)))
  · rcases prefix_trimEnd front with ⟨rest, whole⟩
    rw [value]
    rw [← whole] at clean
    exact clean.left_of_append

theorem ne_nil_of_parseList {parser : Text → Option α} {values : List α}
    (read : (value.splitOn ',').mapM (fun part => parser (trim part)) = some values) :
    values ≠ [] := by
  have length := length_mapM read
  have positive := List.length_pos_of_ne_nil (List.splitOn_ne_nil ',' value)
  rw [← length] at positive
  exact List.ne_nil_of_length_pos positive

/-- A line that is read can say what it assigns. -/
theorem sayable_of_assigns (unbroken : '\n' ∉ line) (faultless : fault lower line = none)
    (assigns : assignmentOf lower line = some assignment) : assignment.Sayable := by
  have known := keyOf_of_assignmentOf assigns
  have readable := readable_of_fault faultless
  rcases exists_assignment readable known with ⟨same, assigns', _, read⟩
  rw [assigns, Option.some.injEq] at assigns'
  subst assigns'
  have nonempty : valueOf line ≠ [] := by
    intro empty
    have parsed := readable .defaults 0
    rw [parseLine_of_keyOf known, empty] at parsed
    split at parsed
    · cases parsed
    · cases parsed
  cases assignment with
  | leasesFile file | leasesFileV6 file =>
      cases read
      exact path_valueOf unbroken nonempty
  | dnsIps ips | ntpIps ips | extraBroadcastIps ips =>
      rcases Assignment.exists_of_map_eq_ok read with ⟨values, required, built⟩
      cases built
      exact ne_nil_of_parseList (eq_some_of_require required)
  | ipv6Dns ips =>
      rcases Assignment.exists_of_map_eq_ok read with ⟨values, required, built⟩
      cases built
      exact ne_nil_of_parseList (eq_some_of_require required)
  | serverDuid duid =>
      rcases Assignment.exists_of_map_eq_ok read with ⟨bytes, required, built⟩
      cases built
      have found := eq_some_of_require required
      cases parsed : parseDuidHex (valueOf line) with
      | error error =>
          rw [parsed] at found
          cases found
      | ok bytes =>
          rw [parsed] at found
          cases found
          exact (Duid.parseDuidHex_eq_ok_iff.mp parsed).1
  | _ => trivial

theorem path_defaults : Path defaults.leasesFile ∧ Path defaults.leasesFileV6 := by
  have first : "leases".toList.all isInk = true := by decide
  have second : "leases6".toList.all isInk = true := by decide
  exact ⟨path_of_ink (by decide) (List.all_eq_true.mp first),
    path_of_ink (by decide) (List.all_eq_true.mp second)⟩

theorem mem_of_lastOf {assignments : List Assignment} {key : Key}
    (last : lastOf assignments key = some assignment) : assignment ∈ assignments :=
  (List.mem_filter.mp (List.mem_of_getLast? last)).1

theorem expressible_said {last : Key → Option Assignment} {extra : List Ipv4Addr}
    (sayable : ∀ key assignment, last key = some assignment → assignment.Sayable)
    (valid : (said last extra).validate = .ok (said last extra)) :
    Expressible (said last extra) := by
  refine ⟨valid, ?_, ?_, ?_, ?_⟩
  · rw [said]
    dsimp only
    split
    · rename_i found
      exact sayable _ _ found
    · decide
  · rw [said]
    dsimp only
    split
    · rename_i found
      exact sayable _ _ found
    · decide
  · rw [said]
    dsimp only
    split
    · rename_i found
      exact sayable _ _ found
    · exact path_defaults.1
  · rw [said]
    dsimp only
    split
    · rename_i found
      exact sayable _ _ found
    · exact path_defaults.2

theorem expressible_of_parse (parsed : parse lower text = .ok config) : Expressible config := by
  rw [parse_eq_meaning, meaning] at parsed
  dsimp only at parsed
  cases faulty : firstFault lower 1 (Lines.of '\n' '\r' text) with
  | some error =>
      rw [faulty] at parsed
      cases parsed
  | none =>
      rw [faulty] at parsed
      dsimp only at parsed
      rcases validated_eq_ok_iff.mp parsed with ⟨same, valid⟩
      have sayable : ∀ key assignment,
          lastOf ((Lines.of '\n' '\r' text).filterMap (assignmentOf lower)) key =
            some assignment → assignment.Sayable := by
        intro key assignment last
        rcases List.mem_filterMap.mp (mem_of_lastOf last) with ⟨line, member, assigns⟩
        exact sayable_of_assigns (Lines.not_mem_of_mem_of member)
          (firstFault_eq_none_iff.mp faulty line member) assigns
      rw [← same] at valid ⊢
      exact expressible_said sayable valid

theorem stays_ascii : Stays .ascii := by
  intro text lowerCase
  rw [List.all_eq_true] at lowerCase
  calc text.map Char.toLower = text.map id := by
        apply List.map_congr_left
        intro char member
        have test := lowerCase char member
        rw [Bool.and_eq_true, Bool.not_eq_true'] at test
        exact dif_neg fun range => Bool.false_ne_true (test.2.symm.trans (decide_eq_true range))
    _ = text := List.map_id text

/-- The configurations that can be written are those that come out of a file, and
they are read back from their own. -/
theorem expressible_iff (stays : Stays lower) :
    (Expressible config ↔ parse lower config.toText = .ok config) ∧
      (Expressible config ↔ ∃ text, parse lower text = .ok config) := by
  constructor
  · exact ⟨parse_toText stays, expressible_of_parse⟩
  · constructor
    · intro expressible
      exact ⟨config.toText, parse_toText stays expressible⟩
    · rintro ⟨text, parsed⟩
      exact expressible_of_parse parsed

/-- A path with a tab and a `#` in it, and a second broadcast address. -/
theorem expressible_iff_tab :
    let config := { Config.defaults with
      leasesFile := "a\t#b".toList
      extraBroadcastIps := [.new 255 255 255 255] }
    parse .ascii config.toText = .ok config := by
  intro config
  have path : Path config.leasesFile :=
    ⟨by decide, by decide, by decide, isChain_of_find_none (by decide)⟩
  have expressible : Expressible config :=
    ⟨by decide, by decide, by decide, path, path_defaults.2⟩
  exact (expressible_iff stays_ascii).1.mp expressible

end RustyDhcp.Config
