import RustyDhcp.Config.Duid
import RustyDhcp.Display

/-! # Reading back

Numbers, IPv6 addresses and socket addresses are read back from what `Display`
prints of them, up to where something else begins, and DUIDs from their bytes in
hexadecimal digits. -/

namespace RustyDhcp

variable {radix max number : Nat} {text rest : Text} {char : Char}

/-! ## Numbers -/

theorem readDigits_append (value : Nat) (first second : Text) :
    readDigits radix max value (first ++ second) =
      (readDigits radix max value first).bind fun value => readDigits radix max value second := by
  induction first generalizing value with
  | nil => rfl
  | cons char first induction =>
      rw [List.cons_append, readDigits, readDigits]
      cases toDigit radix char with
      | none => rfl
      | some digit =>
          dsimp only [Option.bind_eq_bind, Option.bind_some]
          split
          · exact induction _
          · rfl

theorem readDigits_toDigits (two : 1 < radix) (hex : radix ≤ 16) (fits : number ≤ max) :
    readDigits radix max 0 (Nat.toDigits radix number) = some number := by
  induction number using Nat.strongRecOn with
  | ind number induction =>
      rw [Nat.toDigits_eq_if two]
      split
      · rename_i small
        rw [readDigits, toDigit_digitChar_radix radix hex number small]
        simp [fits, readDigits]
      · rename_i large
        have smaller : number / radix < number := Nat.div_lt_self (by omega) two
        have below : number % radix < radix := Nat.mod_lt _ (by omega)
        rw [readDigits_append, induction (number / radix) smaller (by omega), Option.bind_some,
          readDigits, toDigit_digitChar_radix radix hex _ below]
        simp [fits, readDigits, Nat.div_add_mod']

/-- A number is read up to the first character that is no digit. -/
theorem readNumber_toDigits {maxDigits : Nat} (two : 1 < radix) (hex : radix ≤ 16)
    (short : (Nat.toDigits radix number).length ≤ maxDigits) (fits : number ≤ max)
    (stops : ∀ char ∈ rest.head?, toDigit radix char = none) :
    readNumber radix maxDigits true max (Nat.toDigits radix number ++ rest) =
      some (number, rest) := by
  have nonempty : 0 < (Nat.toDigits radix number).length := Nat.length_toDigits_pos
  rw [readNumber, takeWhile_toDigits two hex stops, if_neg, if_neg,
    readDigits_toDigits two hex fits]
  · simp
  · simp
  · simp only [Bool.or_eq_true, decide_eq_true_eq]
    omega

theorem fromStrRadix_decimal (fits : number ≤ max) :
    fromStrRadix 10 max (decimal number) = some number := by
  have read : readDigits 10 max 0 (decimal number) = some number :=
    readDigits_toDigits (by decide) (by decide) fits
  have noSign : ∀ char ∈ decimal number, char ≠ '+' := by
    intro char member sign
    subst sign
    have digit : (toDigit 10 '+').isSome = true :=
      toDigit_of_mem_toDigits (by decide) (by decide) member
    cases digit
  cases printed : decimal number with
  | nil => exact absurd printed Nat.toDigits_ne_nil
  | cons char digits =>
      rw [printed] at read noSign
      have other := noSign char List.mem_cons_self
      rw [fromStrRadix.eq_def]
      split
      · rename_i empty
        cases empty
      · rename_i same
        cases same
        exact absurd rfl other
      · rename_i same
        cases same
        exact absurd rfl other
      · exact read

/-! ## Groups of an IPv6 address -/

/-- No digit goes on here, and no IPv4 address. -/
def Unfinished (rest : Text) : Prop := ∀ char ∈ rest.head?, toDigit 16 char = none ∧ char ≠ '.'

/-- No further group follows. -/
def Closed (rest : Text) : Prop := ∀ first,
  readSeparator ':' first readIpv4Addr rest = none ∧
    readSeparator ':' first (readNumber 16 4 true 0xFFFF) rest = none

theorem eq_dropWhile_of_readNumber {maxDigits value : Nat} {zeros : Bool}
    (read : readNumber radix maxDigits zeros max text = some (value, rest)) :
    rest = text.dropWhile fun char => (toDigit radix char).isSome := by
  rw [readNumber] at read
  split at read
  · cases read
  · split at read
    · cases read
    · rcases Option.bind_eq_some_iff.mp read with ⟨number, _, same⟩
      cases same
      have whole : text.takeWhile (fun char => (toDigit radix char).isSome) ++
          text.dropWhile (fun char => (toDigit radix char).isSome) = text :=
        List.takeWhile_append_dropWhile
      calc text.drop (text.takeWhile fun char => (toDigit radix char).isSome).length
          = (text.takeWhile (fun char => (toDigit radix char).isSome) ++
              text.dropWhile fun char => (toDigit radix char).isSome).drop
                (text.takeWhile fun char => (toDigit radix char).isSome).length := by rw [whole]
        _ = text.dropWhile fun char => (toDigit radix char).isSome := List.drop_left

theorem readGivenChar_eq_none {expected : Char} (other : ∀ char ∈ text.head?, char ≠ expected) :
    readGivenChar expected text = none := by
  cases text with
  | nil => rfl
  | cons char text => exact if_neg (other char rfl)

theorem readGivenChar_cons (expected : Char) (text : Text) :
    readGivenChar expected (expected :: text) = some text :=
  if_pos rfl

/-- Without a dot behind its first digits, a text is no IPv4 address. -/
theorem readIpv4Addr_eq_none
    (noDot : ∀ char ∈ (text.dropWhile fun char => (toDigit 10 char).isSome).head?, char ≠ '.') :
    readIpv4Addr text = none := by
  rw [readIpv4Addr]
  dsimp only [readSeparator]
  rw [if_pos rfl]
  cases read : readNumber 10 3 false 255 text with
  | none => rfl
  | some found =>
      rcases found with ⟨value, rest⟩
      rw [eq_dropWhile_of_readNumber read]
      dsimp only [Option.bind_eq_bind, Option.bind_some]
      rw [if_neg Bool.false_ne_true, readGivenChar_eq_none noDot]
      rfl

theorem toDigit_mono (noHex : toDigit 16 char = none) : toDigit 10 char = none := by
  rw [toDigit, Option.filter_eq_none_iff] at noHex ⊢
  intro digit found small
  have large := noHex digit found
  rw [decide_eq_true_eq] at small large
  omega

/-- A group is not the beginning of an IPv4 address. -/
theorem readIpv4Addr_group (digits : ∀ char ∈ text, (toDigit 16 char).isSome)
    (unfinished : Unfinished rest) : readIpv4Addr (text ++ rest) = none := by
  apply readIpv4Addr_eq_none
  induction text with
  | nil =>
      intro char found
      cases rest with
      | nil => cases found
      | cons first rest =>
          have stops := unfinished first rfl
          rw [List.nil_append, List.dropWhile_cons_of_neg (by rw [toDigit_mono stops.1]; simp)]
            at found
          cases found
          exact stops.2
  | cons first text induction =>
      rw [List.forall_mem_cons] at digits
      intro char found
      rw [List.cons_append, List.dropWhile_cons] at found
      split at found
      · exact induction digits.2 char found
      · cases found
        rintro rfl
        exact absurd digits.1 (by decide)

theorem readNumber_eq_none {maxDigits : Nat} {zeros : Bool}
    (stops : ∀ char ∈ rest.head?, toDigit radix char = none) :
    readNumber radix maxDigits zeros max rest = none := by
  have nothing : rest.takeWhile (fun char => (toDigit radix char).isSome) = [] := by
    cases rest with
    | nil => rfl
    | cons char rest =>
        rw [List.takeWhile_cons_of_neg]
        rw [stops char rfl]
        exact Bool.false_ne_true
  rw [readNumber, nothing]
  rfl

/-- Groups with a colon in front of each. -/
def colonGroups (groups : List U16) : Text :=
  groups.flatMap fun group => ':' :: Nat.toDigits 16 group.toNat

theorem subslice_cons (group : U16) (groups : List U16) :
    Ipv6Addr.subslice (group :: groups) = Nat.toDigits 16 group.toNat ++ colonGroups groups := by
  rw [Ipv6Addr.subslice, List.map_cons]
  induction groups generalizing group with
  | nil => simp [colonGroups]
  | cons next groups induction =>
      rw [List.map_cons, List.intercalate_cons_cons, induction]
      simp [colonGroups]

theorem readGroups_closed {first : Bool} (limit : Nat) (closed : Closed rest) :
    readGroups limit first rest = (([], false), rest) := by
  cases limit with
  | zero => rfl
  | succ limit =>
      have none : (if 0 < limit then readSeparator ':' first readIpv4Addr rest else none) =
          none := by
        rw [(closed first).1, ite_self]
      rw [readGroups, none, (closed first).2]

theorem unfinished_colon (text : Text) : Unfinished (':' :: text) := by
  intro char found
  cases found
  decide

theorem unfinished_colonGroups (groups : List U16) (unfinished : Unfinished rest) :
    Unfinished (colonGroups groups ++ rest) := by
  cases groups with
  | nil => exact unfinished
  | cons group groups => exact unfinished_colon _

/-- A group is read, and the groups behind it. -/
theorem readGroups_group {first : Bool} {limit : Nat} (group : U16) (unfinished : Unfinished rest) :
    readGroups (limit + 1) first
        ((if first then [] else [':']) ++ (Nat.toDigits 16 group.toNat ++ rest)) =
      ((group :: (readGroups limit false rest).1.1, (readGroups limit false rest).1.2),
        (readGroups limit false rest).2) := by
  have digits : ∀ char ∈ Nat.toDigits 16 group.toNat, (toDigit 16 char).isSome := fun char member =>
    toDigit_of_mem_toDigits (by decide) (by decide) member
  have short : (Nat.toDigits 16 group.toNat).length ≤ 4 :=
    (Nat.length_toDigits_le_iff (by decide) (by decide)).mpr group.isLt
  have fits : group.toNat ≤ 0xFFFF := Nat.le_of_lt_succ group.isLt
  have read := readNumber_toDigits (by decide) (by decide) short fits fun char found =>
    (unfinished char found).1
  have given : ∀ {α : Type} (item : Text → Option (α × Text)) (text : Text),
      readSeparator ':' first item ((if first then [] else [':']) ++ text) = item text := by
    intro α item text
    cases first <;> rfl
  rw [readGroups, given, given, readIpv4Addr_group digits unfinished, ite_self, read]
  dsimp only
  rw [BitVec.ofNat_toNat, BitVec.setWidth_eq]

theorem readGroups_colonGroups {limit : Nat} (groups : List U16) (room : groups.length ≤ limit)
    (unfinished : Unfinished rest) (closed : Closed rest) :
    readGroups limit false (colonGroups groups ++ rest) = ((groups, false), rest) := by
  induction groups generalizing limit with
  | nil => exact readGroups_closed limit closed
  | cons group groups induction =>
      cases limit with
      | zero => cases room
      | succ limit =>
          have whole : colonGroups (group :: groups) ++ rest =
              (if false then [] else [':']) ++
                (Nat.toDigits 16 group.toNat ++ (colonGroups groups ++ rest)) := by
            simp [colonGroups]
          rw [whole, readGroups_group group (unfinished_colonGroups groups unfinished),
            induction (Nat.le_of_succ_le_succ room)]

theorem readGroups_subslice {limit : Nat} (groups : List U16) (room : groups.length ≤ limit)
    (unfinished : Unfinished rest) (closed : Closed rest) :
    readGroups limit true (Ipv6Addr.subslice groups ++ rest) = ((groups, false), rest) := by
  cases groups with
  | nil => exact readGroups_closed limit closed
  | cons group groups =>
      cases limit with
      | zero => cases room
      | succ limit =>
          have first := @readGroups_group (colonGroups groups ++ rest) true limit group
            (unfinished_colonGroups groups unfinished)
          rw [if_pos rfl, List.nil_append] at first
          rw [subslice_cons, List.append_assoc, first,
            readGroups_colonGroups groups (Nat.le_of_succ_le_succ room) unfinished closed]

theorem read_eq_none_of_noDigit (stops : ∀ char ∈ rest.head?, toDigit 16 char = none) :
    readIpv4Addr rest = none ∧ readNumber 16 4 true 0xFFFF rest = none := by
  refine ⟨?_, readNumber_eq_none stops⟩
  have octet : readNumber 10 3 false 255 rest = none :=
    readNumber_eq_none fun char found => toDigit_mono (stops char found)
  rw [readIpv4Addr]
  dsimp only [readSeparator]
  rw [if_pos rfl, octet]
  rfl

theorem closed_of_ends (ends : ∀ char ∈ rest.head?, toDigit 16 char = none ∧ char ≠ ':') :
    Closed rest := by
  intro first
  cases first with
  | true => exact read_eq_none_of_noDigit fun char found => (ends char found).1
  | false =>
      have none : readGivenChar ':' rest = none :=
        readGivenChar_eq_none fun char found => (ends char found).2
      constructor
      · rw [readSeparator, if_neg Bool.false_ne_true, none]
        rfl
      · rw [readSeparator, if_neg Bool.false_ne_true, none]
        rfl

theorem noDigit_colon : ∀ char ∈ (':' :: text).head?, toDigit 16 char = none := by
  intro char found
  cases found
  decide

theorem closed_colons (text : Text) : Closed (':' :: ':' :: text) := by
  intro first
  cases first with
  | true => exact read_eq_none_of_noDigit noDigit_colon
  | false => exact @read_eq_none_of_noDigit (':' :: text) noDigit_colon

/-! ## The longest run of zeros -/

/-- The segments from `start` on are zeros, as many as `length`. -/
def ZeroRun (segments : List U16) (run : Nat × Nat) : Prop :=
  run.1 + run.2 ≤ segments.length ∧
    (segments.drop run.1).take run.2 = List.replicate run.2 0

/-- One turn of the search. -/
def countZero : (Nat × Nat) × (Nat × Nat) → U16 × Nat → (Nat × Nat) × (Nat × Nat) :=
  fun (longest, current) (segment, i) =>
    if segment = 0 then
      let current := if current.2 = 0 then (i, 1) else (current.1, current.2 + 1)
      (if longest.2 < current.2 then current else longest, current)
    else (longest, (0, 0))

theorem zeroRun_longer {segments : List U16} {start length : Nat}
    (run : ZeroRun segments (start, length)) (next : segments[start + length]? = some 0) :
    ZeroRun segments (start, length + 1) := by
  rcases List.getElem?_eq_some_iff.mp next with ⟨inside, _⟩
  refine ⟨inside, ?_⟩
  have more : (segments.drop start)[length]? = some 0 := by
    rw [List.getElem?_drop]
    exact next
  rw [List.take_add_one, more, run.2, List.replicate_succ']
  rfl

/-- What the search has found when it has come to `i`. -/
structure Searched (segments : List U16) (i : Nat) (state : (Nat × Nat) × (Nat × Nat)) : Prop where
  longest : ZeroRun segments state.1
  current : state.2.2 ≠ 0 → state.2.1 + state.2.2 = i ∧ ZeroRun segments state.2

theorem Searched.step {segments : List U16} {segment : U16} {i : Nat}
    {state : (Nat × Nat) × (Nat × Nat)} (searched : Searched segments i state)
    (here : segments[i]? = some segment) :
    Searched segments (i + 1) (countZero state (segment, i)) := by
  rcases state with ⟨best, start, length⟩
  by_cases zero : segment = 0
  · subst zero
    have counted : countZero (best, start, length) (0, i) =
        (if best.2 < (if length = 0 then (i, 1) else (start, length + 1)).2 then
            if length = 0 then (i, 1) else (start, length + 1)
          else best, if length = 0 then (i, 1) else (start, length + 1)) := rfl
    have grown : (if length = 0 then (i, 1) else (start, length + 1)).1 +
        (if length = 0 then (i, 1) else (start, length + 1)).2 = i + 1 ∧
          ZeroRun segments (if length = 0 then (i, 1) else (start, length + 1)) := by
      by_cases new : length = 0
      · have inside : i ≤ segments.length := Nat.le_of_lt (List.getElem?_eq_some_iff.mp here).1
        rw [if_pos new]
        exact ⟨rfl, zeroRun_longer ⟨inside, rfl⟩ here⟩
      · rcases searched.current new with ⟨ends, run⟩
        rw [if_neg new]
        refine ⟨by rw [← ends]; rfl, zeroRun_longer run ?_⟩
        rw [ends]
        exact here
    generalize (if length = 0 then (i, 1) else (start, length + 1)) = current at counted grown
    rw [counted]
    refine ⟨?_, fun _ => grown⟩
    dsimp only
    split
    · exact grown.2
    · exact searched.longest
  · have counted : countZero (best, start, length) (segment, i) = (best, (0, 0)) := if_neg zero
    rw [counted]
    exact ⟨searched.longest, fun nonzero => absurd rfl nonzero⟩

theorem Searched.foldl {segments later : List U16} {i : Nat}
    {state : (Nat × Nat) × (Nat × Nat)} (searched : Searched segments i state)
    (whole : segments.drop i = later) :
    Searched segments (i + later.length) ((later.zipIdx i).foldl countZero state) := by
  induction later generalizing i state with
  | nil => exact searched
  | cons segment later induction =>
      have here : segments[i]? = some segment := by
        rw [← List.head?_drop, whole]
        rfl
      have others : segments.drop (i + 1) = later := by
        rw [← List.drop_drop, whole]
        rfl
      rw [List.length_cons, ← Nat.add_assoc, Nat.add_right_comm]
      exact induction (searched.step here) others

theorem zeroRun_longestZeros (segments : List U16) :
    ZeroRun segments (Ipv6Addr.longestZeros segments) := by
  have start : Searched segments 0 ((0, 0), (0, 0)) :=
    ⟨⟨Nat.zero_le _, rfl⟩, fun nonzero => absurd rfl nonzero⟩
  exact (start.foldl rfl).longest

theorem ZeroRun.split {segments : List U16} {start length : Nat}
    (run : ZeroRun segments (start, length)) :
    segments.take start ++ List.replicate length 0 ++ segments.drop (start + length) =
      segments := by
  rw [← run.2, ← List.drop_drop, List.append_assoc, List.take_append_drop,
    List.take_append_drop]

/-! ## IPv6 addresses -/

namespace Ipv6Addr

theorem length_segments (addr : Ipv6Addr) : addr.segments.length = 8 := rfl

theorem ofGroups_segments (addr : Ipv6Addr) : ofGroups addr.segments = addr := by
  rcases addr with ⟨bits⟩
  have step : ∀ shift, bits.toNat >>> (shift + 16) * 0x10000 +
      (bits.extractLsb' shift 16).toNat = bits.toNat >>> shift := by
    intro shift
    rw [BitVec.extractLsb'_toNat, Nat.shiftRight_add, Nat.shiftRight_eq_div_pow _ 16]
    exact Nat.div_add_mod' _ _
  have start : bits.toNat >>> 128 = 0 := by
    rw [Nat.shiftRight_eq_div_pow]
    exact Nat.div_eq_of_lt bits.isLt
  have folded : (segments ⟨bits⟩).foldl (fun value group => value * 0x10000 + group.toNat) 0 =
      bits.toNat := by
    rw [← start]
    simp only [segments, List.map_cons, List.map_nil, List.foldl_cons, List.foldl_nil]
    rw [step 112, step 96, step 80, step 64, step 48, step 32, step 16, step 0,
      Nat.shiftRight_zero]
  rw [ofGroups, folded, BitVec.ofNat_toNat, BitVec.setWidth_eq]

/-- The address of eight segments is read from all of them, or without some zeros
that follow each other. -/
theorem readIpv6Addr_groups {groups : List U16} (eight : groups.length = 8)
    (unfinished : Unfinished rest) (closed : Closed rest) :
    readIpv6Addr (subslice groups ++ rest) = some (ofGroups groups, rest) := by
  rw [readIpv6Addr, readGroups_subslice groups (Nat.le_of_eq eight) unfinished closed]
  exact if_pos eight

theorem readIpv6Addr_compressed {head tail : List U16} {length : Nat}
    (eight : head.length + length + tail.length = 8) (positive : 1 ≤ length)
    (unfinished : Unfinished rest) (closed : Closed rest) :
    readIpv6Addr (subslice head ++ ':' :: ':' :: (subslice tail ++ rest)) =
      some (ofGroups (head ++ List.replicate length 0 ++ tail), rest) := by
  have zeros : 8 - head.length - tail.length = length := by omega
  rw [readIpv6Addr, readGroups_subslice head (by omega) (unfinished_colon _) (closed_colons _)]
  dsimp only
  rw [if_neg (by omega), if_neg Bool.false_ne_true]
  rw [readGivenChar_cons, Option.bind_eq_bind, Option.bind_some, readGivenChar_cons,
    Option.bind_some, readGroups_subslice tail (by omega) unfinished closed]
  dsimp only
  rw [zeros]
  rfl

theorem segments_mapped {bits : U128} (mapped : bits.extractLsb' 32 96 = 0xFFFF) :
    segments ⟨bits⟩ = [0, 0, 0, 0, 0, 0xFFFF, bits.extractLsb' 16 16, bits.extractLsb' 0 16] := by
  have inside : ∀ shift, shift + 16 ≤ 96 → bits.extractLsb' (32 + shift) 16 =
      (0xFFFF : BitVec 96).extractLsb' shift 16 := by
    intro shift within
    rw [← mapped]
    ext k small
    simp only [BitVec.getElem_extractLsb', BitVec.getLsbD_extractLsb', Nat.add_assoc,
      decide_eq_true (Nat.lt_of_lt_of_le (Nat.add_lt_add_left small shift) within),
      Bool.true_and]
  simp only [segments, List.map_cons, List.map_nil]
  rw [inside 80 (by decide), inside 64 (by decide), inside 48 (by decide), inside 32 (by decide),
    inside 16 (by decide), inside 0 (by decide)]
  rfl

theorem readIpv6Addr_mapped {bits : U128} (mapped : bits.extractLsb' 32 96 = 0xFFFF)
    (stops : ∀ char ∈ rest.head?, toDigit 10 char = none) :
    readIpv6Addr ("::ffff:".toList ++ (Ipv4Addr.toText ⟨bits.extractLsb' 0 32⟩ ++ rest)) =
      some (⟨bits⟩, rest) := by
  have embedded : readGroups 6 false
      (':' :: (Ipv4Addr.toText ⟨bits.extractLsb' 0 32⟩ ++ rest)) =
        (([bits.extractLsb' 16 16, bits.extractLsb' 0 16], true), rest) := by
    have parts : ∀ shift, shift + 16 ≤ 32 →
        (bits.extractLsb' 0 32).extractLsb' shift 16 = bits.extractLsb' shift 16 :=
      fun shift within => BitVec.extractLsb'_extractLsb'_of_le within
    rw [readGroups, if_pos (by decide), readSeparator, if_neg Bool.false_ne_true,
      readGivenChar_cons, Option.bind_some, readIpv4Addr_toText _ stops]
    dsimp only
    rw [parts 16 (by decide), parts 0 (by decide)]
  have group := @readGroups_group (':' :: (Ipv4Addr.toText ⟨bits.extractLsb' 0 32⟩ ++ rest)) true 6
    0xFFFF (unfinished_colon _)
  rw [embedded] at group
  have printed : "::ffff:".toList ++ (Ipv4Addr.toText ⟨bits.extractLsb' 0 32⟩ ++ rest) =
      subslice [] ++ ':' :: ':' :: ((if true then [] else [':']) ++
        (Nat.toDigits 16 (0xFFFF : U16).toNat ++
          ':' :: (Ipv4Addr.toText ⟨bits.extractLsb' 0 32⟩ ++ rest))) := rfl
  rw [printed, readIpv6Addr,
    readGroups_subslice [] (by decide) (unfinished_colon _) (closed_colons _)]
  dsimp only
  rw [if_neg (by decide), if_neg Bool.false_ne_true, readGivenChar_cons, Option.bind_eq_bind,
    Option.bind_some, readGivenChar_cons, Option.bind_some]
  have limit : 8 - (([] : List U16).length + 1) = 6 + 1 := rfl
  rw [limit, group]
  have whole := ofGroups_segments ⟨bits⟩
  rw [segments_mapped mapped] at whole
  dsimp only
  exact congrArg (fun addr => some (addr, rest)) whole

/-- An address is read back from what is printed of it, up to where something else
begins. -/
theorem readIpv6Addr_toText (addr : Ipv6Addr)
    (ends : ∀ char ∈ rest.head?, toDigit 16 char = none ∧ char ≠ '.' ∧ char ≠ ':') :
    readIpv6Addr (addr.toText ++ rest) = some (addr, rest) := by
  have unfinished : Unfinished rest := fun char found =>
    ⟨(ends char found).1, (ends char found).2.1⟩
  have closed : Closed rest :=
    closed_of_ends fun char found => ⟨(ends char found).1, (ends char found).2.2⟩
  have run := zeroRun_longestZeros addr.segments
  rw [toText]
  split
  · rename_i mapped
    rw [List.append_assoc]
    exact readIpv6Addr_mapped mapped fun char found => toDigit_mono (ends char found).1
  · dsimp only
    generalize longestZeros addr.segments = zeros at run ⊢
    rcases zeros with ⟨start, length⟩
    dsimp only
    split
    · rename_i long
      have inside := run.1
      rw [length_segments] at inside
      dsimp only at inside
      have eight : (addr.segments.take start).length + length +
          (addr.segments.drop (start + length)).length = 8 := by
        rw [List.length_take, List.length_drop, length_segments]
        omega
      have read := readIpv6Addr_compressed eight (Nat.le_of_lt long) unfinished closed
      rw [run.split, ofGroups_segments] at read
      rw [List.append_assoc, List.append_assoc]
      exact read
    · have read := readIpv6Addr_groups addr.length_segments unfinished closed
      rw [ofGroups_segments] at read
      exact read

theorem parseIpv6Addr_toText (addr : Ipv6Addr) : parseIpv6Addr addr.toText = some addr := by
  have read := @readIpv6Addr_toText [] addr (by simp)
  rw [List.append_nil] at read
  rw [parseIpv6Addr, parseWith, read]

end Ipv6Addr

/-! ## Socket addresses -/

theorem readDecimal_decimal (fits : number ≤ max)
    (stops : ∀ char ∈ rest.head?, toDigit 10 char = none) :
    readDecimal max (decimal number ++ rest) = some (number, rest) := by
  have short : (Nat.toDigits 10 number).length ≤ (decimal number ++ rest).length := by
    rw [List.length_append]
    exact Nat.le_add_right _ _
  exact readNumber_toDigits (by decide) (by decide) short fits stops

theorem readPort_decimal (port : U16) :
    readPort (':' :: decimal port.toNat) = some (port.toNat, []) := by
  have read := @readDecimal_decimal 65535 port.toNat [] (Nat.le_of_lt_succ port.isLt) (by simp)
  rw [List.append_nil] at read
  rw [readPort, readGivenChar_cons, Option.bind_some, read]

/-- The scope of an address, as it is printed. -/
def scopeText (scopeId : U32) : Text := if scopeId = 0 then [] else '%' :: decimal scopeId.toNat

theorem readScopeId_scopeText (scopeId : U32) (text : Text) :
    (readScopeId (scopeText scopeId ++ ']' :: text)).getD (0, scopeText scopeId ++ ']' :: text) =
      (scopeId.toNat, ']' :: text) := by
  rw [scopeText]
  split
  · rename_i unscoped
    rw [unscoped]
    rfl
  · have closing : ∀ char ∈ (']' :: text).head?, toDigit 10 char = none := by
      intro char found
      cases found
      decide
    rw [List.cons_append, readScopeId, readGivenChar_cons, Option.bind_some,
      readDecimal_decimal (Nat.le_of_lt_succ scopeId.isLt) closing, Option.getD_some]

theorem readSocketAddrV6_toText (ip : Ipv6Addr) (port : U16) (scopeId : U32) :
    readSocketAddrV6 (SocketAddr.v6 ip port scopeId).toText =
      some (.v6 ip port scopeId, []) := by
  have printed : (SocketAddr.v6 ip port scopeId).toText =
      '[' :: (ip.toText ++ (scopeText scopeId ++ ']' :: ':' :: decimal port.toNat)) := by
    simp [SocketAddr.toText, scopeText]
  have ends : ∀ char ∈ (scopeText scopeId ++ ']' :: ':' :: decimal port.toNat).head?,
      toDigit 16 char = none ∧ char ≠ '.' ∧ char ≠ ':' := by
    intro char found
    rw [scopeText] at found
    split at found
    · cases found
      decide
    · cases found
      decide
  rw [printed, readSocketAddrV6, readGivenChar_cons, Option.bind_eq_bind, Option.bind_some,
    Ipv6Addr.readIpv6Addr_toText ip ends, Option.bind_eq_bind, Option.bind_some]
  dsimp only
  rw [readScopeId_scopeText]
  dsimp only
  rw [readGivenChar_cons, Option.bind_some, readPort_decimal, Option.bind_eq_bind,
    Option.bind_some, BitVec.ofNat_toNat, BitVec.setWidth_eq, BitVec.ofNat_toNat,
    BitVec.setWidth_eq]
  rfl

theorem parseSocketAddr_toText (addr : SocketAddr) : parseSocketAddr addr.toText = some addr := by
  have read : readSocketAddr addr.toText = some (addr, []) := by
    cases addr with
    | v4 ip port =>
        have colon : ∀ char ∈ (':' :: decimal port.toNat).head?, toDigit 10 char = none := by
          intro char found
          cases found
          decide
        rw [readSocketAddr, SocketAddr.toText, readSocketAddrV4, readIpv4Addr_toText ip colon,
          Option.bind_eq_bind, Option.bind_some]
        dsimp only
        rw [readPort_decimal, Option.bind_eq_bind, Option.bind_some, BitVec.ofNat_toNat,
          BitVec.setWidth_eq]
        rfl
    | v6 ip port scopeId =>
        have bracket : ∀ char ∈ (SocketAddr.v6 ip port scopeId).toText.head?,
            toDigit 16 char = none := by
          intro char found
          cases found
          decide
        have notV4 : readSocketAddrV4 (SocketAddr.v6 ip port scopeId).toText = none := by
          rw [readSocketAddrV4, (read_eq_none_of_noDigit bracket).1]
          rfl
        rw [readSocketAddr, notV4, Option.none_or]
        exact readSocketAddrV6_toText ip port scopeId
  rw [parseSocketAddr, parseWith, read]

/-! ## DUIDs -/

namespace Duid

theorem writes_hexPair {bytes : List UInt8} (byte : UInt8) (writes : Writes text bytes) :
    Writes (hexPair byte ++ text) (byte :: bytes) := by
  have bound := byte.toNat_lt
  have value : byte.toNat / 16 * 16 + byte.toNat % 16 = byte.toNat := by omega
  have pair := Writes.byte (Nat.digitChar (byte.toNat / 16)) (Nat.digitChar (byte.toNat % 16))
    (byte.toNat / 16) (byte.toNat % 16) (toDigit_digitChar _ (by omega))
    (toDigit_digitChar _ (by omega)) writes
  rw [value, UInt8.ofNat_toNat] at pair
  exact pair

theorem writes_flatMap (bytes : List UInt8) : Writes (bytes.flatMap hexPair) bytes := by
  induction bytes with
  | nil => exact .nothing
  | cons byte bytes induction => exact writes_hexPair byte induction

/-- The bytes with colons between them. -/
theorem writes_intercalate (bytes : List UInt8) :
    Writes ([':'].intercalate (bytes.map hexPair)) bytes := by
  induction bytes with
  | nil => exact .nothing
  | cons byte bytes induction =>
      cases bytes with
      | nil =>
          have alone := writes_hexPair byte .nothing
          rw [List.append_nil] at alone
          exact alone
      | cons next bytes =>
          have separated := writes_hexPair byte (.separator ':' rfl induction)
          rw [List.map_cons, List.map_cons, List.intercalate_cons_cons, List.append_assoc,
            ← List.map_cons]
          exact separated

theorem parseDuidHex_of_writes {bytes : List UInt8} (writes : Writes text bytes)
    (nonempty : bytes ≠ []) : parseDuidHex text = .ok bytes :=
  parseDuidHex_eq_ok_iff.mpr ⟨nonempty, writes.digits⟩

end Duid

end RustyDhcp
