import RustyDhcp.Text
import Mathlib.Data.List.TakeWhile

/-! # What readers stop at

Trimming takes away whitespace and nothing else. A character that is no part of
any number or address survives whatever reads them, so a text with it is
neither. -/

namespace RustyDhcp

/-! ## Trimming -/

theorem mem_dropWhile {test : Char → Bool} {char : Char} {text : Text}
    (kept : test char = false) (member : char ∈ text) : char ∈ text.dropWhile test := by
  have parts : text.takeWhile test ++ text.dropWhile test = text :=
    List.takeWhile_append_dropWhile
  rw [← parts] at member
  rcases List.mem_append.mp member with dropped | member
  · rw [List.mem_takeWhile_imp dropped] at kept
    cases kept
  · exact member

/-- Trimming takes away nothing but whitespace. -/
theorem mem_trim {char : Char} {text : Text} (kept : isWhitespace char = false)
    (member : char ∈ text) : char ∈ trim text :=
  List.mem_reverse.mpr (mem_dropWhile kept (List.mem_reverse.mpr (mem_dropWhile kept member)))

theorem trimEnd_append {blank : Text} (text : Text)
    (whitespace : ∀ char ∈ blank, isWhitespace char = true) :
    trimEnd (text ++ blank) = trimEnd text := by
  rw [trimEnd, trimEnd, List.reverse_append, List.dropWhile_append_of_pos]
  exact fun char member => whitespace char (List.mem_reverse.mp member)

/-- Whitespace behind a text is trimmed away. -/
theorem trim_append {blank : Text} (text : Text)
    (whitespace : ∀ char ∈ blank, isWhitespace char = true) :
    trim (text ++ blank) = trim text := by
  have nothing : blank.dropWhile isWhitespace = [] :=
    List.dropWhile_eq_nil_iff.mpr whitespace
  change trimEnd ((text ++ blank).dropWhile isWhitespace) = trimEnd (text.dropWhile isWhitespace)
  rw [List.dropWhile_append]
  split
  · rename_i empty
    rw [nothing, List.isEmpty_iff.mp empty]
  · exact trimEnd_append _ whitespace

/-- What is trimmed away at the end is whitespace. -/
theorem exists_trimEnd (text : Text) :
    ∃ blank, text = trimEnd text ++ blank ∧ ∀ char ∈ blank, isWhitespace char = true := by
  have parts : text.reverse.takeWhile isWhitespace ++ text.reverse.dropWhile isWhitespace =
      text.reverse :=
    List.takeWhile_append_dropWhile
  refine ⟨(text.reverse.takeWhile isWhitespace).reverse, ?_, ?_⟩
  · rw [trimEnd, ← List.reverse_append, parts, List.reverse_reverse]
  · intro char member
    exact List.mem_takeWhile_imp (List.mem_reverse.mp member)

theorem trimEnd_cons {char : Char} (before behind : Text) (kept : isWhitespace char = false) :
    trimEnd (before ++ char :: behind) = before ++ char :: trimEnd behind := by
  have stays : (char :: before.reverse).dropWhile isWhitespace = char :: before.reverse :=
    List.dropWhile_cons_of_neg (by rw [kept]; decide)
  rw [trimEnd, trimEnd, List.reverse_append, List.reverse_cons, List.append_assoc,
    List.singleton_append, List.dropWhile_append, stays]
  split
  · rename_i empty
    rw [List.isEmpty_iff.mp empty]
    simp
  · simp

theorem trimEnd_trimEnd (text : Text) : trimEnd (trimEnd text) = trimEnd text := by
  rcases exists_trimEnd text with ⟨blank, whole, whitespace⟩
  calc trimEnd (trimEnd text) = trimEnd (trimEnd text ++ blank) :=
        (trimEnd_append _ whitespace).symm
    _ = trimEnd text := by rw [← whole]

/-- A trimmed text has nothing to trim at its end. -/
theorem trimEnd_of_trim {text : Text} (trimmed : trim text = text) : trimEnd text = text := by
  calc trimEnd text = trimEnd (trim text) := by rw [trimmed]
    _ = trim text := trimEnd_trimEnd _
    _ = text := trimmed

/-! ## Fields -/

theorem mapM_eq_map_some {f : α → Option β} {values : List α} {results : List β} :
    values.mapM f = some results ↔ values.map f = results.map some := by
  induction values generalizing results with
  | nil => cases results <;> simp
  | cons value values induction =>
      cases results with
      | nil => cases found : f value <;> cases others : values.mapM f <;> simp [found, others]
      | cons result results =>
          cases found : f value <;> cases others : values.mapM f <;>
            simp [found, others, ← induction]

theorem exists_mapM {f : α → Option β} {values : List α}
    (found : ∀ value ∈ values, f value ≠ none) : ∃ results, values.mapM f = some results := by
  induction values with
  | nil => exact ⟨[], rfl⟩
  | cons value values induction =>
      have others := induction fun other member => found other (List.mem_cons_of_mem _ member)
      rcases others with ⟨rest, read⟩
      rcases Option.ne_none_iff_exists'.mp (found value List.mem_cons_self) with ⟨result, first⟩
      exact ⟨result :: rest, by rw [List.mapM_cons, first, read]; rfl⟩

theorem isSome_of_mapM {f : α → Option β} {values : List α} {results : List β}
    (found : values.mapM f = some results) : ∀ value ∈ values, (f value).isSome := by
  intro value member
  have image : f value ∈ values.map f := List.mem_map_of_mem member
  rw [mapM_eq_map_some.mp found] at image
  rcases List.mem_map.mp image with ⟨result, _, same⟩
  exact Option.isSome_of_eq_some same.symm

theorem length_mapM {f : α → Option β} {values : List α} {results : List β}
    (found : values.mapM f = some results) : results.length = values.length := by
  have lengths := congrArg List.length (mapM_eq_map_some.mp found)
  rw [List.length_map, List.length_map] at lengths
  exact lengths.symm

theorem of_mem_intercalate {separator char : Char} {parts : List Text}
    (member : char ∈ List.intercalate [separator] parts) :
    char = separator ∨ ∃ part ∈ parts, char ∈ part := by
  induction parts with
  | nil => cases member
  | cons part parts induction =>
      by_cases last : parts = []
      · rw [last, List.intercalate_singleton] at member
        exact .inr ⟨part, List.mem_cons_self, member⟩
      · rw [List.intercalate_cons_of_ne_nil last, List.mem_append, List.mem_append,
          List.mem_singleton] at member
        rcases member with (member | equal) | member
        · exact .inr ⟨part, List.mem_cons_self, member⟩
        · exact .inl equal
        · rcases induction member with equal | found
          · exact .inl equal
          · rcases found with ⟨other, within, member⟩
            exact .inr ⟨other, List.mem_cons_of_mem _ within, member⟩

theorem exists_mem_splitOn {separator char : Char} {text : Text} (other : char ≠ separator)
    (member : char ∈ text) : ∃ part ∈ text.splitOn separator, char ∈ part := by
  have whole : [separator].intercalate (text.splitOn separator) = text :=
    List.intercalate_splitOn separator
  rw [← whole] at member
  rcases of_mem_intercalate member with equal | found
  · exact absurd equal other
  · exact found

/-! ## Foreign characters -/

/-- The reader does not consume the character. -/
def Leaves (stop : Char) (reader : Text → Option (α × Text)) : Prop :=
  ∀ text value rest, reader text = some (value, rest) → stop ∈ text → stop ∈ rest

/-- The character occurs in no number and in no address. -/
structure Foreign (stop : Char) : Prop where
  noDigit : ∀ radix, toDigit radix stop = none
  noDot : stop ≠ '.'
  noColon : stop ≠ ':'
  noSign : stop ≠ '+'
  noBracket : stop ≠ '[' ∧ stop ≠ ']'
  noPercent : stop ≠ '%'

variable {stop : Char} {text : Text}

theorem leaves_readNumber (foreign : Foreign stop) (radix maxDigits : Nat) (zeros : Bool)
    (max : Nat) : Leaves stop (readNumber radix maxDigits zeros max) := by
  intro text value rest read member
  rw [readNumber] at read
  split at read
  · cases read
  · split at read
    · cases read
    · rcases Option.bind_eq_some_iff.mp read with ⟨number, _, same⟩
      cases same
      have digits : text.takeWhile (fun char => (toDigit radix char).isSome) <+: text :=
        List.takeWhile_prefix _
      rw [← List.prefix_iff_eq_append.mp digits] at member
      rcases List.mem_append.mp member with digit | member
      · have found := List.mem_takeWhile_imp digit
        rw [foreign.noDigit] at found
        cases found
      · exact member

theorem leaves_readGivenChar {expected : Char} {rest : Text} (other : stop ≠ expected)
    (read : readGivenChar expected text = some rest) (member : stop ∈ text) : stop ∈ rest := by
  cases text with
  | nil => cases member
  | cons char text =>
      rw [readGivenChar] at read
      split at read
      · rename_i same
        cases read
        rcases List.mem_cons.mp member with equal | member
        · exact absurd (equal.trans same) other
        · exact member
      · cases read

theorem leaves_readSeparator {separator : Char} {item : Text → Option (α × Text)}
    (other : stop ≠ separator) (first : Bool) (leaves : Leaves stop item) :
    Leaves stop (readSeparator separator first item) := by
  intro text value rest read member
  rw [readSeparator] at read
  split at read
  · exact leaves text value rest read member
  · rcases Option.bind_eq_some_iff.mp read with ⟨behind, given, read⟩
    exact leaves behind value rest read (leaves_readGivenChar other given member)

theorem leaves_readIpv4Addr (foreign : Foreign stop) : Leaves stop readIpv4Addr := by
  intro text value rest read member
  have octet := leaves_readNumber foreign 10 3 false 255
  have part := fun first => leaves_readSeparator foreign.noDot first octet
  rcases Option.bind_eq_some_iff.mp read with ⟨⟨a, afterA⟩, readA, read⟩
  rcases Option.bind_eq_some_iff.mp read with ⟨⟨b, afterB⟩, readB, read⟩
  rcases Option.bind_eq_some_iff.mp read with ⟨⟨c, afterC⟩, readC, read⟩
  rcases Option.bind_eq_some_iff.mp read with ⟨⟨d, afterD⟩, readD, read⟩
  cases read
  apply part _ _ _ _ readD
  apply part _ _ _ _ readC
  apply part _ _ _ _ readB
  exact part _ _ _ _ readA member

theorem leaves_readGroups (foreign : Foreign stop) (limit : Nat) (first : Bool) (text : Text)
    (member : stop ∈ text) : stop ∈ (readGroups limit first text).2 := by
  induction limit generalizing first text with
  | zero => exact member
  | succ limit induction =>
      have embedded := leaves_readSeparator foreign.noColon first (leaves_readIpv4Addr foreign)
      have group := leaves_readSeparator foreign.noColon first
        (leaves_readNumber foreign 16 4 true 0xFFFF)
      rw [readGroups]
      split
      · rename_i ip rest read
        split at read
        · exact embedded text ip rest read member
        · cases read
      · split
        · rename_i number rest read
          exact induction false rest (group text number rest read member)
        · exact member

theorem leaves_readIpv6Addr (foreign : Foreign stop) : Leaves stop readIpv6Addr := by
  intro text value rest read member
  have behindHead := leaves_readGroups foreign 8 true text member
  rw [readIpv6Addr] at read
  generalize readGroups 8 true text = head at read behindHead
  rcases head with ⟨⟨groups, embedded⟩, behind⟩
  dsimp only at read
  split at read
  · cases read
    exact behindHead
  · split at read
    · cases read
    · rcases Option.bind_eq_some_iff.mp read with ⟨first, readFirst, read⟩
      rcases Option.bind_eq_some_iff.mp read with ⟨second, readSecond, read⟩
      cases read
      apply leaves_readGroups foreign
      apply leaves_readGivenChar foreign.noColon readSecond
      exact leaves_readGivenChar foreign.noColon readFirst behindHead

theorem leaves_readPort (foreign : Foreign stop) : Leaves stop readPort := by
  intro text value rest read member
  rcases Option.bind_eq_some_iff.mp read with ⟨behind, given, read⟩
  exact leaves_readNumber foreign _ _ _ _ behind value rest read
    (leaves_readGivenChar foreign.noColon given member)

theorem leaves_readScopeId (foreign : Foreign stop) : Leaves stop readScopeId := by
  intro text value rest read member
  rcases Option.bind_eq_some_iff.mp read with ⟨behind, given, read⟩
  exact leaves_readNumber foreign _ _ _ _ behind value rest read
    (leaves_readGivenChar foreign.noPercent given member)

theorem leaves_readSocketAddrV4 (foreign : Foreign stop) : Leaves stop readSocketAddrV4 := by
  intro text value rest read member
  rcases Option.bind_eq_some_iff.mp read with ⟨⟨ip, afterIp⟩, readIp, read⟩
  rcases Option.bind_eq_some_iff.mp read with ⟨⟨port, afterPort⟩, readPort, read⟩
  cases read
  apply leaves_readPort foreign _ _ _ readPort
  exact leaves_readIpv4Addr foreign _ _ _ readIp member

theorem leaves_readSocketAddrV6 (foreign : Foreign stop) : Leaves stop readSocketAddrV6 := by
  intro text value rest read member
  rcases Option.bind_eq_some_iff.mp read with ⟨opened, readOpen, read⟩
  rcases Option.bind_eq_some_iff.mp read with ⟨⟨ip, afterIp⟩, readIp, read⟩
  have behindScope : stop ∈ ((readScopeId afterIp).getD (0, afterIp)).2 := by
    have behindIp := leaves_readIpv6Addr foreign _ _ _ readIp
      (leaves_readGivenChar foreign.noBracket.1 readOpen member)
    cases readScope : readScopeId afterIp with
    | none => exact behindIp
    | some pair => exact leaves_readScopeId foreign _ _ _ readScope behindIp
  dsimp only at read
  rcases Option.bind_eq_some_iff.mp read with ⟨closed, readClose, read⟩
  rcases Option.bind_eq_some_iff.mp read with ⟨⟨port, afterPort⟩, readPort, read⟩
  cases read
  apply leaves_readPort foreign _ _ _ readPort
  exact leaves_readGivenChar foreign.noBracket.2 readClose behindScope

theorem leaves_readSocketAddr (foreign : Foreign stop) : Leaves stop readSocketAddr := by
  intro text value rest read member
  rcases Option.or_eq_some_iff.mp read with first | ⟨_, second⟩
  · exact leaves_readSocketAddrV4 foreign text value rest first member
  · exact leaves_readSocketAddrV6 foreign text value rest second member

/-- A text with a foreign character is read by no reader that leaves it. -/
theorem not_mem_of_parseWith {reader : Text → Option (α × Text)} {value : α}
    (leaves : Leaves stop reader) (parsed : parseWith reader text = some value) :
    stop ∉ text := by
  intro member
  rw [parseWith] at parsed
  split at parsed
  · rename_i read
    cases leaves text _ [] read member
  · cases parsed

theorem not_mem_of_parseIpv4Addr {ip : Ipv4Addr} (foreign : Foreign stop)
    (parsed : parseIpv4Addr text = some ip) : stop ∉ text := by
  rw [parseIpv4Addr] at parsed
  split at parsed
  · cases parsed
  · exact not_mem_of_parseWith (leaves_readIpv4Addr foreign) parsed

theorem not_mem_of_parseIpv6Addr {ip : Ipv6Addr} (foreign : Foreign stop)
    (parsed : parseIpv6Addr text = some ip) : stop ∉ text :=
  not_mem_of_parseWith (leaves_readIpv6Addr foreign) parsed

theorem not_mem_of_parseSocketAddr {addr : SocketAddr} (foreign : Foreign stop)
    (parsed : parseSocketAddr text = some addr) : stop ∉ text :=
  not_mem_of_parseWith (leaves_readSocketAddr foreign) parsed

theorem not_mem_of_readDigits {radix max value result : Nat} (foreign : Foreign stop)
    (read : readDigits radix max value text = some result) : stop ∉ text := by
  induction text generalizing value with
  | nil => exact List.not_mem_nil
  | cons char text induction =>
      rcases Option.bind_eq_some_iff.mp read with ⟨digit, found, read⟩
      dsimp only at read
      split at read
      · refine List.not_mem_cons_of_ne_of_not_mem ?_ (induction read)
        rintro rfl
        rw [foreign.noDigit] at found
        cases found
      · cases read

theorem not_mem_of_fromStrRadix {radix max result : Nat} (foreign : Foreign stop)
    (read : fromStrRadix radix max text = some result) : stop ∉ text := by
  rw [fromStrRadix.eq_def] at read
  split at read
  · cases read
  · cases read
  · exact List.not_mem_cons_of_ne_of_not_mem foreign.noSign (not_mem_of_readDigits foreign read)
  · exact not_mem_of_readDigits foreign read

end RustyDhcp
