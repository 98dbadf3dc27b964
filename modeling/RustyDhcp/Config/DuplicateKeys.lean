import RustyDhcp.Config.Assignment
import RustyDhcp.Foundation.LastWins

/-! # Keys that are assigned again

The last line of a key is to be the one that counts, so that the lines before it
could as well be deleted. A list of broadcast addresses is added to those of the
lines before it instead. -/

namespace RustyDhcp.Config

/-- The lines whose key is assigned again further down, with their line breaks. -/
def reassigned (lower : Lowercase) (text : Text) : List Text :=
  LastWins.dropped (keyOf lower) (Lines.pieces '\n' text)

/-- The text without these lines. -/
def withoutReassigned (lower : Lowercase) (text : Text) : Text :=
  (LastWins.kept (keyOf lower) (Lines.pieces '\n' text)).flatten

/-- The line adds to the broadcast addresses. -/
def Extends (lower : Lowercase) (line : Text) : Prop :=
  keyOf lower line = some Key.extraBroadcastIps.name.toList ∨
    keyOf lower line = some Key.broadcastIp.name.toList ∧ ',' ∈ valueOf line

instance (lower : Lowercase) (line : Text) : Decidable (Extends lower line) :=
  inferInstanceAs (Decidable (_ ∨ _))

/-- The addresses that it adds. -/
def addedBy (lower : Lowercase) (line : Text) : List Ipv4Addr :=
  (assignmentOf lower line).elim [] Assignment.added

variable {lower : Lowercase} {line other text value : Text} {lines : List Text}
variable {config : Config} {lineNo : Nat} {assignment : Assignment}

/-! ## Lines with their line breaks -/

theorem parseLine_congr (same : trim line = trim other) :
    parseLine lower config lineNo line = parseLine lower config lineNo other := by
  rw [parseLine, parseLine, same]

theorem effect_congr (same : trim line = trim other) :
    effect lower config line = effect lower config other := by
  have keys : keyOf lower line = keyOf lower other := by rw [keyOf, keyOf, same]
  have values : valueOf line = valueOf other := by rw [valueOf, valueOf, same]
  rw [effect, effect, assignmentOf, assignmentOf, keys, values]

theorem readable_chomp : Readable lower (Lines.chomp '\n' '\r' line) ↔ Readable lower line := by
  have same := trim_chomp line
  constructor
  · intro readable config lineNo
    rw [← parseLine_congr same, ← effect_congr same]
    exact readable config lineNo
  · intro readable config lineNo
    rw [parseLine_congr same, effect_congr same]
    exact readable config lineNo

theorem validated_eq_ok_iff {result : Config} :
    result.validate.mapError ParseError.rejected = .ok config ↔
      result = config ∧ config.validate = .ok config := by
  cases validated : result.validate with
  | error message =>
      constructor
      · intro accepted
        cases accepted
      · intro found
        rw [found.1, found.2] at validated
        cases validated
  | ok valid =>
      have same := (validate_eq_ok_iff.mp validated).1
      subst same
      constructor
      · intro accepted
        cases accepted
        exact ⟨rfl, validated⟩
      · intro found
        rw [found.1]
        rfl

/-- Line breaks make no difference to what the lines do. -/
theorem lines_eq_ok_iff : parseLines lower .defaults 1 (Lines.of '\n' '\r' text) = .ok config ↔
    (∀ line ∈ Lines.pieces '\n' text, Readable lower line) ∧
      (Lines.pieces '\n' text).foldl (effect lower) .defaults = config := by
  have folded : (Lines.of '\n' '\r' text).foldl (effect lower) .defaults =
      (Lines.pieces '\n' text).foldl (effect lower) .defaults := by
    rw [Lines.of, List.foldl_map]
    congr 1
    funext config line
    exact effect_congr (trim_chomp line)
  have readables : (∀ line ∈ Lines.of '\n' '\r' text, Readable lower line) ↔
      ∀ line ∈ Lines.pieces '\n' text, Readable lower line := by
    rw [Lines.of, List.forall_mem_map]
    simp only [readable_chomp]
  rw [parseLines_eq_ok_iff, folded, readables]

/-- A text is accepted when all its lines are read, and what they make of the
defaults is valid. -/
theorem parse_eq_ok_iff : parse lower text = .ok config ↔
    (∀ line ∈ Lines.pieces '\n' text, Readable lower line) ∧
      (Lines.pieces '\n' text).foldl (effect lower) .defaults = config ∧
      config.validate = .ok config := by
  rw [← and_assoc, ← lines_eq_ok_iff, parse]
  cases parseLines lower .defaults 1 (Lines.of '\n' '\r' text) with
  | error error =>
      constructor
      · intro accepted
        cases accepted
      · intro found
        cases found.1
  | ok result =>
      rw [Except.ok.injEq]
      exact validated_eq_ok_iff

/-! ## What superseded lines leave behind -/

theorem effect_of_assigns (assigns : assignmentOf lower line = some assignment) :
    effect lower config line = assignment.run config := by
  rw [effect, assigns]

theorem effect_of_none (assigns : assignmentOf lower line = none) :
    effect lower config line = config := by
  rw [effect, assigns]

/-- A line that is read assigns to its key, if there is such a setting. -/
theorem exists_assignment {key : Key} (readable : Readable lower line)
    (known : keyOf lower line = some key.name.toList) :
    ∃ assignment, assignmentOf lower line = some assignment ∧ assignment.key = key ∧
      Assignment.read lower key (valueOf line) = .ok assignment := by
  have step := readable .defaults 0
  rw [parseLine_of_keyOf known, Key.ofName_name] at step
  split at step
  · cases step
  · split at step
    · cases step
    · dsimp only at step
      rw [Assignment.apply_eq] at step
      cases read : Assignment.read lower key (valueOf line) with
      | error what =>
          rw [read] at step
          cases step
      | ok assignment =>
          refine ⟨assignment, ?_, Assignment.key_of_read read, rfl⟩
          rw [assignmentOf, known, Option.bind_eq_bind, Option.bind_some, Key.ofName_name,
            Option.bind_eq_bind, Option.bind_some, read]
          rfl

/-- A line that adds nothing yields to all others. -/
theorem yields_of_settled (readable : Readable lower other) (settled : addedBy lower line = []) :
    LastWins.Yields (keyOf lower) (effect lower) line other := by
  cases assigns : assignmentOf lower line with
  | none =>
      exact ⟨fun _ _ => by rw [effect_of_none assigns],
        fun _ _ => by rw [effect_of_none assigns, effect_of_none assigns]⟩
  | some first =>
      have nothing : first.added = [] := by
        rw [addedBy, assigns] at settled
        exact settled
      have known := keyOf_of_assignmentOf assigns
      constructor
      · intro same config
        rw [known] at same
        rcases exists_assignment readable same with ⟨second, assigns', sameKey, _⟩
        rw [effect_of_assigns assigns, effect_of_assigns assigns', effect_of_assigns assigns']
        exact Assignment.run_again sameKey.symm nothing
      · intro different config
        rw [effect_of_assigns assigns, effect_of_assigns assigns]
        cases assigns' : assignmentOf lower other with
        | none => rw [effect_of_none assigns', effect_of_none assigns']
        | some second =>
            rw [effect_of_assigns assigns', effect_of_assigns assigns']
            refine Assignment.run_run (fun same => different ?_) nothing
            rw [known, keyOf_of_assignmentOf assigns', same]

/-! ## What they add -/

theorem extra_effect (config : Config) (line : Text) :
    (effect lower config line).extraBroadcastIps =
      config.extraBroadcastIps ++ addedBy lower line := by
  rw [addedBy]
  cases assigns : assignmentOf lower line with
  | none =>
      rw [effect_of_none assigns]
      exact (List.append_nil _).symm
  | some assignment =>
      rw [effect_of_assigns assigns]
      exact Assignment.added_run assignment config

/-- The extra addresses are those that the lines add, in their order. -/
theorem extra_foldl (lines : List Text) (config : Config) :
    (lines.foldl (effect lower) config).extraBroadcastIps =
      config.extraBroadcastIps ++ lines.flatMap (addedBy lower) := by
  induction lines generalizing config with
  | nil => exact (List.append_nil _).symm
  | cons line lines induction =>
      rw [List.foldl_cons, induction, extra_effect, List.flatMap_cons, List.append_assoc]

/-- Where the extra addresses stay the same, no dropped line adds any. -/
theorem addedBy_of_foldl_kept
    (same : (LastWins.kept (keyOf lower) lines).foldl (effect lower) config =
      lines.foldl (effect lower) config)
    (dropped : line ∈ LastWins.dropped (keyOf lower) lines) : addedBy lower line = [] := by
  have balance : ((LastWins.kept (keyOf lower) lines).flatMap (addedBy lower)).length +
      ((LastWins.dropped (keyOf lower) lines).flatMap (addedBy lower)).length =
        (lines.flatMap (addedBy lower)).length :=
    LastWins.length_kept_add_dropped _ _
  have extra := congrArg Config.extraBroadcastIps same
  rw [extra_foldl, extra_foldl, List.append_right_inj] at extra
  have nothing : ((LastWins.dropped (keyOf lower) lines).flatMap (addedBy lower)).length = 0 := by
    rw [extra] at balance
    omega
  exact List.flatMap_eq_nil_iff.mp (List.length_eq_zero_iff.mp nothing) line dropped

theorem two_le_splitOn_iff : 2 ≤ (value.splitOn ',').length ↔ ',' ∈ value := by
  constructor
  · intro more
    by_contra noComma
    rw [List.splitOn_eq_singleton noComma, List.length_singleton] at more
    omega
  · intro comma
    rcases List.append_of_mem comma with ⟨before, behind, rfl⟩
    have first := List.length_pos_of_ne_nil (List.splitOn_ne_nil ',' before)
    have second := List.length_pos_of_ne_nil (List.splitOn_ne_nil ',' behind)
    rw [List.splitOn_append_cons_self, List.length_append]
    omega

theorem length_added_broadcastIp
    (read : Assignment.read lower .broadcastIp value = .ok assignment) :
    assignment.added.length = (value.splitOn ',').length - 1 := by
  rcases Assignment.exists_of_map_eq_ok read with ⟨ips, required, rfl⟩
  have length := length_mapM (eq_some_of_require required)
  rw [← length]
  exact List.length_tail

theorem length_added_extraBroadcastIps
    (read : Assignment.read lower .extraBroadcastIps value = .ok assignment) :
    assignment.added.length = (value.splitOn ',').length := by
  rcases Assignment.exists_of_map_eq_ok read with ⟨ips, required, rfl⟩
  exact length_mapM (eq_some_of_require required)

/-- A line that is read adds addresses exactly when it says so. -/
theorem addedBy_ne_nil_iff (readable : Readable lower line) :
    addedBy lower line ≠ [] ↔ Extends lower line := by
  constructor
  · intro more
    cases assigns : assignmentOf lower line with
    | none =>
        rw [addedBy, assigns] at more
        exact absurd rfl more
    | some assignment =>
        rw [addedBy, assigns] at more
        have known := keyOf_of_assignmentOf assigns
        rcases exists_assignment readable known with ⟨same, assigns', _, read⟩
        rw [assigns, Option.some.injEq] at assigns'
        subst assigns'
        rcases Assignment.key_of_added more with key | key
        · rw [key] at known read
          have length := length_added_broadcastIp read
          have positive := List.length_pos_of_ne_nil more
          refine .inr ⟨known, two_le_splitOn_iff.mp ?_⟩
          change 0 < assignment.added.length at positive
          omega
        · rw [key] at known
          exact .inl known
  · intro adds
    rcases adds with known | ⟨known, comma⟩
    · rcases exists_assignment readable known with ⟨assignment, assigns, _, read⟩
      have length := length_added_extraBroadcastIps read
      have positive := List.length_pos_of_ne_nil (List.splitOn_ne_nil ',' (valueOf line))
      rw [addedBy, assigns]
      change assignment.added ≠ []
      exact List.ne_nil_of_length_pos (by omega)
    · rcases exists_assignment readable known with ⟨assignment, assigns, _, read⟩
      have length := length_added_broadcastIp read
      have two := two_le_splitOn_iff.mpr comma
      rw [addedBy, assigns]
      change assignment.added ≠ []
      exact List.ne_nil_of_length_pos (by omega)

/-! ## Deleting the lines -/

theorem pieces_withoutReassigned (lower : Lowercase) (text : Text) :
    Lines.pieces '\n' (withoutReassigned lower text) =
      LastWins.kept (keyOf lower) (Lines.pieces '\n' text) :=
  ((Lines.pieces_spec text).sublist (LastWins.kept_sublist _)).pieces_flatten

/-- Deleting the lines whose key is assigned again leaves the configuration as
it is exactly when none of them adds broadcast addresses. -/
theorem parse_withoutReassigned (accepted : parse lower text = .ok config) :
    parse lower (withoutReassigned lower text) = .ok config ↔
      ∀ line ∈ reassigned lower text, ¬Extends lower line := by
  rcases parse_eq_ok_iff.mp accepted with ⟨readable, folded, validated⟩
  have dropped : (reassigned lower text).Sublist (Lines.pieces '\n' text) :=
    LastWins.dropped_sublist _
  rw [parse_eq_ok_iff, pieces_withoutReassigned]
  constructor
  · intro kept line member adds
    have more := (addedBy_ne_nil_iff (readable line (dropped.subset member))).mpr adds
    exact more (addedBy_of_foldl_kept (kept.2.1.trans folded.symm) member)
  · intro settled
    refine ⟨fun line member => readable line ((LastWins.kept_sublist _).subset member), ?_,
      validated⟩
    rw [LastWins.foldl_kept, folded]
    intro item member other within
    apply yields_of_settled (readable other within)
    by_contra more
    exact settled item member ((addedBy_ne_nil_iff (readable item (dropped.subset member))).mp more)

theorem parse_withoutReassigned_leaseNum :
    parse .ascii (withoutReassigned .ascii
      "lease_num = 5\nenable_ntp = yes\nLEASE_NUM = 7\n".toList) =
        .ok { Config.defaults with leaseNum := 7, enableNtp := true } :=
  (parse_withoutReassigned (by decide +kernel)).mpr (by decide +kernel)

/-- The second address of the first line stays although the key is assigned
again. -/
theorem parse_keeps_extra :
    let text := "broadcast_ip = 192.168.2.255, 255.255.255.255\nbroadcast_ip = 10.0.0.255\n".toList
    let config := { Config.defaults with
      broadcastIp := .new 10 0 0 255
      extraBroadcastIps := [.new 255 255 255 255] }
    parse .ascii text = .ok config ∧
      withoutReassigned .ascii text = "broadcast_ip = 10.0.0.255\n".toList ∧
      parse .ascii (withoutReassigned .ascii text) ≠ .ok config := by
  decide +kernel

end RustyDhcp.Config
