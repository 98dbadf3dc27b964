import RustyDhcp.Config.DuplicateKeys
import RustyDhcp.Config.Duid
import RustyDhcp.Config.StripComment

/-! # Trailing comments

A comment behind a value is to change nothing. Where the reader does not find it,
the value has a `#` in it, and only a path is read from that. -/

namespace RustyDhcp.Config

/-! ## Lines -/

variable {lower : Lowercase} {config : Config} {lineNo : Nat}
variable {key line other text value blanks comment : Text} {char : Char}

def plainLine (key value : Text) : Text := key ++ " = ".toList ++ value

def commentedLine (key value blanks comment : Text) : Text :=
  plainLine key (value ++ blanks ++ '#' :: comment)

/-- The key begins behind the whitespace in front of it. -/
theorem exists_dropWhile (shown : trim key ≠ []) : ∃ head rest,
    key.dropWhile isWhitespace = head :: rest ∧ isWhitespace head = false ∧
      trim key = head :: trimEnd rest := by
  have whole : trim key = trimEnd (key.dropWhile isWhitespace) := rfl
  cases found : key.dropWhile isWhitespace with
  | nil =>
      rw [whole, found] at shown
      exact absurd rfl shown
  | cons head rest =>
      have some : key.dropWhile isWhitespace ≠ [] := by
        rw [found]
        exact List.cons_ne_nil _ _
      have kept := List.head_dropWhile_not isWhitespace some
      simp only [found, List.head_cons] at kept
      refine ⟨head, rest, rfl, kept, ?_⟩
      rw [whole, found]
      exact trimEnd_cons [] rest kept

theorem trim_plainLine (shown : trim key ≠ []) (kept : isWhitespace char = false) :
    trim (plainLine key (char :: value)) =
      key.dropWhile isWhitespace ++ ' ' :: '=' :: ' ' :: char :: trimEnd value := by
  rcases exists_dropWhile shown with ⟨head, rest, found, _, _⟩
  change trimEnd ((key ++ [' ', '=', ' '] ++ char :: value).dropWhile isWhitespace) = _
  rw [List.append_assoc, List.dropWhile_append, found, List.isEmpty_cons, if_neg (by decide),
    ← List.append_assoc, trimEnd_cons _ _ kept, List.append_assoc]
  rfl

/-- A line is a comment when its key looks like one. -/
theorem isIgnored_plainLine (shown : trim key ≠ []) (kept : isWhitespace char = false) :
    isIgnored (trim (plainLine key (char :: value))) = isIgnored (trim key) := by
  rcases exists_dropWhile shown with ⟨head, rest, found, _, whole⟩
  rw [trim_plainLine shown kept, found, whole]
  rfl

theorem find_eq_plainLine (noEquals : '=' ∉ key) (behind : Text) :
    find ['='] (key.dropWhile isWhitespace ++ ' ' :: '=' :: behind) =
      some ((key.dropWhile isWhitespace).length + 1) := by
  have absent : '=' ∉ key.dropWhile isWhitespace ++ [' '] := by
    rw [List.mem_append, not_or]
    exact ⟨fun member => noEquals ((List.dropWhile_suffix _).subset member), by decide⟩
  have whole : key.dropWhile isWhitespace ++ ' ' :: '=' :: behind =
      key.dropWhile isWhitespace ++ [' '] ++ '=' :: behind := by simp
  rw [whole, find_char_append absent, find_char_cons, Option.map_some, List.length_append,
    Nat.zero_add]
  rfl

theorem keyOf_plainLine (shown : trim key ≠ []) (noEquals : '=' ∉ key)
    (kept : isWhitespace char = false) :
    keyOf lower (plainLine key (char :: value)) =
      if isIgnored (trim key) then none else some (lower.map (trim key)) := by
  have whitespace : ∀ char ∈ [' '], isWhitespace char = true := by
    intro char member
    rw [List.mem_singleton.mp member]
    decide
  have trimmed : trim (key.dropWhile isWhitespace ++ [' ']) = trim key := by
    rcases exists_dropWhile shown with ⟨head, rest, found, headKept, whole⟩
    rw [trim_append _ whitespace, found, whole]
    change trimEnd ((head :: rest).dropWhile isWhitespace) = _
    rw [List.dropWhile_cons_of_neg (by rw [headKept]; decide)]
    exact trimEnd_cons [] rest headKept
  rw [keyOf, isIgnored_plainLine shown kept, trim_plainLine shown kept,
    find_eq_plainLine noEquals, Option.map_some, List.take_length_add_append]
  dsimp only [List.take_succ_cons, List.take_zero]
  rw [trimmed]

theorem valueOf_plainLine (shown : trim key ≠ []) (noEquals : '=' ∉ key)
    (kept : isWhitespace char = false) :
    valueOf (plainLine key (char :: value)) = stripComment (char :: trimEnd value) := by
  have trimmed : trim (' ' :: char :: trimEnd value) = char :: trimEnd value := by
    change trimEnd ((' ' :: char :: trimEnd value).dropWhile isWhitespace) = _
    rw [List.dropWhile_cons_of_pos (by decide), List.dropWhile_cons_of_neg (by rw [kept]; decide)]
    have idle := trimEnd_cons [] (trimEnd value) kept
    rw [trimEnd_trimEnd] at idle
    exact idle
  rw [valueOf, trim_plainLine shown kept, find_eq_plainLine noEquals, Option.getD_some,
    Nat.add_assoc, List.drop_length_add_append]
  exact congrArg stripComment trimmed

/-- A line with a key, a value and a comment behind some whitespace. -/
structure TrailingComment (key value blanks comment : Text) : Prop extends
    Commented value blanks where
  shown : trim key ≠ []
  noEquals : '=' ∉ key
  unbroken : '\n' ∉ key ∧ '\n' ∉ value ∧ '\n' ∉ comment

theorem Commented.exists_head (commented : Commented value blanks) :
    ∃ head rest, value = head :: rest ∧ isWhitespace head = false := by
  have shown : trim value ≠ [] := by
    rw [commented.trimmed]
    exact commented.nonempty
  rcases exists_dropWhile shown with ⟨head, rest, _, kept, whole⟩
  exact ⟨head, trimEnd rest, commented.trimmed.symm.trans whole, kept⟩

/-- Both lines are comments, or neither is. -/
theorem isIgnored_lines (line : TrailingComment key value blanks comment) :
    isIgnored (trim (plainLine key value)) = isIgnored (trim key) ∧
      isIgnored (trim (commentedLine key value blanks comment)) = isIgnored (trim key) := by
  rcases line.exists_head with ⟨head, rest, rfl, kept⟩
  constructor
  · exact isIgnored_plainLine line.shown kept
  · exact isIgnored_plainLine line.shown kept

theorem keyOf_plain (lower : Lowercase) (line : TrailingComment key value blanks comment) :
    keyOf lower (plainLine key value) =
      if isIgnored (trim key) then none else some (lower.map (trim key)) := by
  rcases line.exists_head with ⟨head, rest, rfl, kept⟩
  exact keyOf_plainLine line.shown line.noEquals kept

theorem keyOf_commented (lower : Lowercase)
    (line : TrailingComment key value blanks comment) :
    keyOf lower (commentedLine key value blanks comment) =
      if isIgnored (trim key) then none else some (lower.map (trim key)) := by
  rcases line.exists_head with ⟨head, rest, rfl, kept⟩
  exact keyOf_plainLine line.shown line.noEquals kept

theorem valueOf_plain (line : TrailingComment key value blanks comment) :
    valueOf (plainLine key value) = value := by
  have clean := stripComment_glued line.glued
  have trimmed := trimEnd_of_trim line.trimmed
  rcases line.exists_head with ⟨head, rest, rfl, kept⟩
  have split : trimEnd (head :: rest) = head :: trimEnd rest := trimEnd_cons [] rest kept
  rw [valueOf_plainLine line.shown line.noEquals kept, ← split, trimmed, clean]

theorem valueOf_commented (line : TrailingComment key value blanks comment) :
    valueOf (commentedLine key value blanks comment) =
      stripComment (value ++ blanks ++ '#' :: trimEnd comment) := by
  rcases line.exists_head with ⟨head, rest, rfl, kept⟩
  have ends : trimEnd (rest ++ blanks ++ '#' :: comment) =
      rest ++ blanks ++ '#' :: trimEnd comment := trimEnd_cons _ _ (by decide)
  have read : valueOf (plainLine key (head :: (rest ++ blanks ++ '#' :: comment))) =
      stripComment (head :: trimEnd (rest ++ blanks ++ '#' :: comment)) :=
    valueOf_plainLine line.shown line.noEquals kept
  rw [ends] at read
  exact read

/-- Whitespace at the end of a comment makes no difference. -/
theorem stripped_trimEnd : Stripped value blanks (trimEnd comment) ↔
    Stripped value blanks comment := by
  rcases exists_trimEnd comment with ⟨blank, whole, whitespace⟩
  have noHash : '#' ∉ blank := fun member => absurd (whitespace '#' member) (by decide)
  have related : ∀ first second, second ≠ '#' → Unblanked first second := fun _ _ other _ => other
  have same : (trimEnd comment ++ blank).IsChain Unblanked ↔
      (trimEnd comment).IsChain Unblanked :=
    isChain_append_of_no_hash noHash related
  rw [← whole] at same
  rw [Stripped, Stripped, same]

theorem valueOf_commented_ne_nil (line : TrailingComment key value blanks comment) :
    valueOf (commentedLine key value blanks comment) ≠ [] := by
  rw [valueOf_commented line]
  by_cases stripped : Stripped value blanks (trimEnd comment)
  · rw [stripComment_stripped line.toCommented stripped]
    exact line.nonempty
  · intro empty
    have begins := prefix_stripComment line.toCommented stripped
    rw [empty] at begins
    simp at begins

/-- The commented line is read as the plain one if the comment is found, or if
nothing depends on the value. -/
theorem parseLine_commented (line : TrailingComment key value blanks comment)
    (settled : Stripped value blanks comment ∨ isIgnored (trim key) = true ∨
      Key.ofName (lower.map (trim key)) = none) :
    parseLine lower config lineNo (commentedLine key value blanks comment) =
      parseLine lower config lineNo (plainLine key value) := by
  have plainKey := keyOf_plain lower line
  have commentedKey := keyOf_commented lower line
  have plainValue := valueOf_plain line
  cases ignored : isIgnored (trim key) with
  | true =>
      have both := isIgnored_lines line
      rw [ignored] at both
      rw [parseLine, parseLine]
      exact (if_pos both.2).trans (if_pos both.1).symm
  | false =>
      rw [ignored, if_neg (by decide)] at plainKey commentedKey
      rw [parseLine_of_keyOf plainKey, parseLine_of_keyOf commentedKey]
      rcases settled with stripped | ignored' | unknown
      · have commentedValue := valueOf_commented line
        rw [stripComment_stripped line.toCommented (stripped_trimEnd.mpr stripped)]
          at commentedValue
        rw [plainValue, commentedValue]
      · rw [ignored'] at ignored
        cases ignored
      · have somePlain : (valueOf (plainLine key value)).isEmpty = false := by
          rw [plainValue]
          simpa using line.nonempty
        have someCommented :
            (valueOf (commentedLine key value blanks comment)).isEmpty = false := by
          simpa using valueOf_commented_ne_nil line
        rw [unknown, somePlain, someCommented]

/-! ## A file with the line in it -/

theorem parseLines_replace {first second : Text} {lines behindLines : List Text}
    (same : ∀ config lineNo, parseLine lower config lineNo first =
      parseLine lower config lineNo second) :
    parseLines lower config lineNo (lines ++ first :: behindLines) =
      parseLines lower config lineNo (lines ++ second :: behindLines) := by
  induction lines generalizing config lineNo with
  | nil =>
      rw [List.nil_append, List.nil_append, parseLines, parseLines, same]
  | cons line lines induction =>
      rw [List.cons_append, List.cons_append, parseLines, parseLines]
      congr 1
      funext next
      exact induction

/-- What can stand in front of a line, and what behind it. -/
structure Surrounds (front back : Text) : Prop where
  front : front = [] ∨ front.getLast? = some '\n'
  back : back = [] ∨ ∃ rest, back = '\n' :: rest ∨ back = '\r' :: '\n' :: rest

/-- A line in a file is a piece of it, up to whitespace at the end. -/
theorem Surrounds.pieces {front back : Text} (surrounds : Surrounds front back) :
    ∃ ending others, (∀ char ∈ ending, isWhitespace char = true) ∧
      ∀ line : Text, line ≠ [] → '\n' ∉ line →
        Lines.pieces '\n' (front ++ line ++ back) =
          Lines.pieces '\n' front ++ (line ++ ending) :: others := by
  have newline : isWhitespace '\n' = true := by decide
  have carriage : isWhitespace '\r' = true := by decide
  rcases surrounds.back with empty | ⟨rest, lf | crlf⟩
  · refine ⟨[], [], by simp, fun line some unbroken => ?_⟩
    rw [empty, List.append_nil, List.append_nil, Lines.pieces_append surrounds.front,
      Lines.pieces_last some unbroken]
  · refine ⟨['\n'], Lines.pieces '\n' rest, by simp [newline], fun line some unbroken => ?_⟩
    rw [lf, List.append_assoc, Lines.pieces_append surrounds.front, Lines.pieces_line unbroken]
  · refine ⟨['\r', '\n'], Lines.pieces '\n' rest, by simp [newline, carriage],
      fun line some unbroken => ?_⟩
    have whole : front ++ line ++ '\r' :: '\n' :: rest =
        front ++ (line ++ ['\r'] ++ '\n' :: rest) := by simp
    have unbroken' : '\n' ∉ line ++ ['\r'] := by
      rw [List.mem_append, not_or]
      exact ⟨unbroken, by decide⟩
    rw [crlf, whole, Lines.pieces_append surrounds.front, Lines.pieces_line unbroken']
    simp

theorem parse_replace {front back first second : Text} (surrounds : Surrounds front back)
    (nonempty : first ≠ [] ∧ second ≠ []) (unbroken : '\n' ∉ first ∧ '\n' ∉ second)
    (same : ∀ config lineNo, parseLine lower config lineNo first =
      parseLine lower config lineNo second) :
    parse lower (front ++ first ++ back) = parse lower (front ++ second ++ back) := by
  rcases surrounds.pieces with ⟨ending, others, whitespace, pieces⟩
  have read : ∀ line config lineNo,
      parseLine lower config lineNo (Lines.chomp '\n' '\r' (line ++ ending)) =
        parseLine lower config lineNo line := fun line config lineNo =>
    parseLine_congr ((trim_chomp _).trans (trim_append line whitespace))
  rw [parse, parse, Lines.of, Lines.of, pieces first nonempty.1 unbroken.1,
    pieces second nonempty.2 unbroken.2, List.map_append, List.map_append, List.map_cons,
    List.map_cons]
  have replaced := fun config lineNo => (read first config lineNo).trans
    ((same config lineNo).trans (read second config lineNo).symm)
  rw [parseLines_replace replaced]

/-- A file of one line. -/
theorem parse_line (nonempty : line ≠ []) (unbroken : '\n' ∉ line) :
    parse lower line =
      (parseLine lower .defaults 1 line >>= fun config => config.validate.mapError .rejected) := by
  have same : trim (Lines.chomp '\n' '\r' line) = trim line := trim_chomp line
  rw [parse, Lines.of, Lines.pieces_last nonempty unbroken, List.map_singleton, parseLines,
    parseLine_congr same]
  cases parseLine lower .defaults 1 line with
  | error error => rfl
  | ok config => rfl

/-! ## Values with a `#` -/

theorem foreign_hash : Foreign '#' where
  noDigit _ := rfl
  noDot := by decide
  noColon := by decide
  noSign := by decide
  noBracket := by decide
  noPercent := by decide

theorem parse_list_hash {parser : Text → Option α} (hash : '#' ∈ value)
    (foreign : ∀ text, '#' ∈ text → parser text = none) :
    ((value.splitOn ',').mapM fun part => parser (trim part)) = none := by
  have other : '#' ≠ ',' := by decide
  rcases exists_mem_splitOn other hash with ⟨part, member, inside⟩
  have bad : parser (trim part) = none := foreign _ (mem_trim (by decide) inside)
  cases found : (value.splitOn ',').mapM fun part => parser (trim part) with
  | none => rfl
  | some results =>
      have good := isSome_of_mapM found part member
      rw [bad] at good
      cases good

theorem parseIpv4Addr_hash (text : Text) (hash : '#' ∈ text) : parseIpv4Addr text = none :=
  Option.eq_none_iff_forall_ne_some.mpr fun _ parsed =>
    not_mem_of_parseIpv4Addr foreign_hash parsed hash

theorem parseIpv6Addr_hash (text : Text) (hash : '#' ∈ text) : parseIpv6Addr text = none :=
  Option.eq_none_iff_forall_ne_some.mpr fun _ parsed =>
    not_mem_of_parseIpv6Addr foreign_hash parsed hash

theorem parseSocketAddr_hash (text : Text) (hash : '#' ∈ text) : parseSocketAddr text = none :=
  Option.eq_none_iff_forall_ne_some.mpr fun _ parsed =>
    not_mem_of_parseSocketAddr foreign_hash parsed hash

theorem fromStrRadix_hash (radix max : Nat) (text : Text) (hash : '#' ∈ text) :
    fromStrRadix radix max text = none :=
  Option.eq_none_iff_forall_ne_some.mpr fun _ read =>
    not_mem_of_fromStrRadix foreign_hash read hash

/-- Lower case does not take a `#` away. -/
theorem parseBool_hash (hash : '#' ∈ text) : parseBool lower text = none := by
  have stays : '#' ∈ lower.map text := lower.keeps text '#' (by decide) (by decide) hash
  have other : ∀ word : String, '#' ∉ word.toList → String.ofList (lower.map text) ≠ word := by
    rintro word absent rfl
    rw [String.toList_ofList] at absent
    exact absent stays
  rw [parseBool, if_neg, if_neg]
  · simp [other]
  · simp [other]

theorem parseDuidHex_hash (hash : '#' ∈ text) : (parseDuidHex text).toOption = none := by
  cases parsed : parseDuidHex text with
  | error error => rfl
  | ok bytes =>
      have writes := (Duid.parseDuidHex_eq_ok_iff.mp parsed).2
      have inside : '#' ∈ Duid.digits text := List.mem_filter.mpr ⟨hash, by decide⟩
      have digit := writes.hexadecimal '#' (by rw [Duid.digits_digits]; exact inside)
      cases digit

/-- The settings whose value can be any text. -/
def Key.isPath : Key → Bool
  | .leasesFile | .leasesFileV6 => true
  | _ => false

theorem map_require_none {what : String} {found : Option α} {build : α → Assignment}
    (none : found = none) : (require what found).map build = .error what := by
  rw [none]
  rfl

/-- No other setting has a `#` in it. -/
theorem read_hash {setting : Key} (typed : setting.isPath = false) (hash : '#' ∈ value) :
    ∃ what, Assignment.read lower setting value = .error what := by
  have ipv4List : parseIpv4List value = none := parse_list_hash hash parseIpv4Addr_hash
  have ipv6List : parseIpv6List value = none := parse_list_hash hash parseIpv6Addr_hash
  have u32 : parseU32 value = none := by rw [parseU32, fromStrRadix_hash _ _ _ hash]; rfl
  have u64 : parseU64 value = none := by rw [parseU64, fromStrRadix_hash _ _ _ hash]; rfl
  have bool : parseBool lower value = none := parseBool_hash hash
  have ipv4 := parseIpv4Addr_hash value hash
  have ipv6 := parseIpv6Addr_hash value hash
  have socket := parseSocketAddr_hash value hash
  have duid := parseDuidHex_hash hash
  cases setting with
  | leasesFile => cases typed
  | leasesFileV6 => cases typed
  | dnsIps | ntpIps | extraBroadcastIps | broadcastIp => exact ⟨_, map_require_none ipv4List⟩
  | ipv6Dns => exact ⟨_, map_require_none ipv6List⟩
  | leaseNum | leaseDurationSecs | ipv6LeaseDurationSecs => exact ⟨_, map_require_none u32⟩
  | ipv6LeaseNum => exact ⟨_, map_require_none u64⟩
  | enableNtp | enableRapidCommit | enableDhcpv6 => exact ⟨_, map_require_none bool⟩
  | ipv6Start => exact ⟨_, map_require_none ipv6⟩
  | listenAddr | listenAddrV6 => exact ⟨_, map_require_none socket⟩
  | serverDuid => exact ⟨_, map_require_none duid⟩
  | _ => exact ⟨_, map_require_none ipv4⟩

/-- What a file with a single assignment is read as. -/
def parseAssignment (lower : Lowercase) (key : Text) (setting : Key) (value : Text) :
    Except ParseError Config := do
  let assignment ← (Assignment.read lower setting value).mapError fun what =>
    ParseError.invalid 1 what key value
  (assignment.run .defaults).validate.mapError .rejected

theorem parse_of_keyOf {setting : Key} (unbroken : '\n' ∉ line)
    (known : keyOf lower line = some key) (named : Key.ofName key = some setting)
    (nonempty : valueOf line ≠ []) :
    parse lower line = parseAssignment lower key setting (valueOf line) := by
  have some : line ≠ [] := by
    rintro rfl
    cases known
  have noKey : key.isEmpty = false := by
    cases key with
    | nil => cases named
    | cons => rfl
  have noValue : (valueOf line).isEmpty = false := by simpa using nonempty
  rw [parse_line some unbroken, parseLine_of_keyOf known, noKey, noValue, named, parseAssignment]
  dsimp only
  rw [Assignment.apply_eq]
  cases Assignment.read lower setting (valueOf line) with
  | error what => rfl
  | ok assignment => rfl

theorem parseAssignment_of_read {setting : Key} {assignment : Assignment}
    (read : Assignment.read lower setting value = .ok assignment) :
    parseAssignment lower key setting value =
      (assignment.run .defaults).validate.mapError .rejected := by
  rw [parseAssignment, read]
  rfl

/-! ## Lines that are read differently -/

theorem validate_defaults : Config.defaults.validate = .ok .defaults := by decide +kernel

theorem parseAssignment_leasesFile (path : Text) : parseAssignment lower key .leasesFile path =
    .ok { Config.defaults with leasesFile := path } := by
  have valid : ({ Config.defaults with leasesFile := path }).validate =
      .ok { Config.defaults with leasesFile := path } :=
    validate_eq_ok_iff.mpr ⟨rfl, (validate_eq_ok_iff.mp validate_defaults).2⟩
  have read : Assignment.read lower .leasesFile path = .ok (.leasesFile path) := rfl
  rw [parseAssignment_of_read read, Assignment.run, valid]
  rfl

theorem parseAssignment_leasesFileV6 (path : Text) :
    parseAssignment lower key .leasesFileV6 path =
      .ok { Config.defaults with leasesFileV6 := path } := by
  have valid : ({ Config.defaults with leasesFileV6 := path }).validate =
      .ok { Config.defaults with leasesFileV6 := path } :=
    validate_eq_ok_iff.mpr ⟨rfl, (validate_eq_ok_iff.mp validate_defaults).2⟩
  have read : Assignment.read lower .leasesFileV6 path = .ok (.leasesFileV6 path) := rfl
  rw [parseAssignment_of_read read, Assignment.run, valid]
  rfl

/-- An error for a value says which value it is. -/
theorem value_of_parseAssignment {setting : Key} {what : String}
    (failed : parseAssignment lower key setting value = .error (.invalid 1 what key other)) :
    value = other := by
  cases read : Assignment.read lower setting value with
  | error what' =>
      rw [parseAssignment, read] at failed
      cases failed
      rfl
  | ok assignment =>
      rw [parseAssignment_of_read read] at failed
      cases validated : (assignment.run .defaults).validate with
      | error message =>
          rw [validated] at failed
          cases failed
      | ok config =>
          rw [validated] at failed
          cases failed

/-- A value with a `#` is another path, or an error of its own. -/
theorem eq_of_parseAssignment {setting : Key} (hash : '#' ∈ other)
    (same : parseAssignment lower key setting other = parseAssignment lower key setting value) :
    value = other := by
  cases path : setting.isPath with
  | true =>
      cases setting with
      | leasesFile =>
          rw [parseAssignment_leasesFile, parseAssignment_leasesFile, Except.ok.injEq] at same
          exact (congrArg Config.leasesFile same).symm
      | leasesFileV6 =>
          rw [parseAssignment_leasesFileV6, parseAssignment_leasesFileV6, Except.ok.injEq] at same
          exact (congrArg Config.leasesFileV6 same).symm
      | _ => cases path
  | false =>
      rcases read_hash path hash with ⟨what, read⟩
      have failed : parseAssignment lower key setting other =
          .error (.invalid 1 what key other) := by
        rw [parseAssignment, read]
        rfl
      exact value_of_parseAssignment (same.symm.trans failed)

theorem TrailingComment.unbroken_lines (line : TrailingComment key value blanks comment) :
    '\n' ∉ commentedLine key value blanks comment ∧ '\n' ∉ plainLine key value := by
  have noBreak : '\n' ∉ blanks := by
    intro member
    rcases line.onlyBlanks '\n' member with equal | equal <;> cases equal
  have parts := line.unbroken
  simp [commentedLine, plainLine, noBreak, parts]

/-- A comment behind a value changes nothing, whatever else the file says, exactly
when the reader finds it or the line is no setting. -/
theorem parse_commented (line : TrailingComment key value blanks comment) :
    (∀ front back, Surrounds front back →
      parse lower (front ++ commentedLine key value blanks comment ++ back) =
        parse lower (front ++ plainLine key value ++ back)) ↔
    Stripped value blanks comment ∨ isIgnored (trim key) = true ∨
      Key.ofName (lower.map (trim key)) = none := by
  constructor
  · intro same
    by_contra changed
    rw [not_or, not_or, Bool.not_eq_true] at changed
    rcases changed with ⟨missed, shown, known⟩
    rcases Option.ne_none_iff_exists'.mp known with ⟨setting, named⟩
    have plainKey := keyOf_plain lower line
    have commentedKey := keyOf_commented lower line
    rw [shown, if_neg (by decide)] at plainKey commentedKey
    have plainValue := valueOf_plain line
    have begins :
        value ++ blanks ++ ['#'] <+: valueOf (commentedLine key value blanks comment) := by
      rw [valueOf_commented line]
      exact prefix_stripComment line.toCommented fun found => missed (stripped_trimEnd.mp found)
    have alone := same [] [] ⟨.inl rfl, .inl rfl⟩
    rw [List.nil_append, List.nil_append, List.append_nil, List.append_nil,
      parse_of_keyOf line.unbroken_lines.1 commentedKey named (valueOf_commented_ne_nil line),
      parse_of_keyOf line.unbroken_lines.2 plainKey named (by rw [plainValue]; exact line.nonempty),
      plainValue] at alone
    have whole := eq_of_parseAssignment (begins.subset (by simp)) alone
    rw [← whole] at begins
    have length := begins.length_le
    simp only [List.length_append, List.length_singleton] at length
    omega
  · intro settled front back surrounds
    apply parse_replace surrounds ⟨by simp [commentedLine, plainLine], by simp [plainLine]⟩
      line.unbroken_lines
    intro config lineNo
    exact parseLine_commented line settled

theorem trailingComment_leaseNum {blanks comment : Text} (someBlank : blanks ≠ [])
    (onlyBlanks : blanks.all fun char => char = ' ' ∨ char = '\t') (unbroken : '\n' ∉ comment) :
    TrailingComment "lease_num".toList ['5'] blanks comment where
  nonempty := by decide
  trimmed := by decide
  glued := .singleton '5'
  someBlank := someBlank
  onlyBlanks := by simpa using onlyBlanks
  shown := by decide
  noEquals := by decide
  unbroken := ⟨by decide, by decide, unbroken⟩

theorem parse_commented_leaseNum :
    parse .ascii ("enable_ntp = yes\n".toList ++
      commentedLine "lease_num".toList ['5'] "\t ".toList " few".toList ++ "\r\n".toList) =
    parse .ascii ("enable_ntp = yes\n".toList ++ plainLine "lease_num".toList ['5'] ++
      "\r\n".toList) := by
  have line : TrailingComment "lease_num".toList ['5'] "\t ".toList " few".toList :=
    trailingComment_leaseNum (by decide) (by decide) (by decide)
  exact (parse_commented line).mpr (.inl (.inl rfl)) _ _ ⟨.inr rfl, .inr ⟨[], .inr rfl⟩⟩

/-- Of two comments behind a tab, the first becomes part of the value. -/
theorem parse_keeps_comment :
    let key := "lease_num".toList
    let comment := " few # very few".toList
    TrailingComment key ['5'] ['\t'] comment ∧
      commentedLine key ['5'] ['\t'] comment = "lease_num = 5\t# few # very few".toList ∧
      parse .ascii (commentedLine key ['5'] ['\t'] comment) =
        .error (.invalid 1 "u32" key "5\t# few".toList) ∧
      parse .ascii (plainLine key ['5']) = .ok { Config.defaults with leaseNum := 5 } := by
  exact ⟨trailingComment_leaseNum (by decide) (by decide) (by decide), by decide +kernel,
    by decide +kernel, by decide +kernel⟩

end RustyDhcp.Config
