import RustyDhcp.Net

/-! # Reading text

The parts of the Rust standard library that read numbers and addresses from
text. A text is the sequence of its characters. -/

namespace RustyDhcp

abbrev Text := List Char

/-- The lines of a file that could be opened; a line that is not valid UTF-8
cannot be read. -/
abbrev LeasesFile := Option (List (Option Text))

/-- `str::as_bytes`, the UTF-8 encoding. -/
def asBytes (text : Text) : List UInt8 := text.flatMap String.utf8EncodeChar

/-- The characters with the Unicode property `White_Space`. -/
def isWhitespace (char : Char) : Bool :=
  let code := char.toNat
  (9 ≤ code && code ≤ 13) || code = 32 || code = 0x85 || code = 0xA0 || code = 0x1680 ||
    (0x2000 ≤ code && code ≤ 0x200A) || code = 0x2028 || code = 0x2029 ||
    code = 0x202F || code = 0x205F || code = 0x3000

/-- `str::trim` -/
def trim (text : Text) : Text :=
  ((text.dropWhile isWhitespace).reverse.dropWhile isWhitespace).reverse

/-- `str::trim_end` -/
def trimEnd (text : Text) : Text := (text.reverse.dropWhile isWhitespace).reverse

/-- `str::find`, the position of the first occurrence. -/
def find (pattern : Text) : Text → Option Nat
  | [] => if pattern.isEmpty then some 0 else none
  | char :: rest =>
      if pattern.isPrefixOf (char :: rest) then some 0 else (find pattern rest).map (· + 1)

/-- `char::to_digit`, for a radix of at most 36. -/
def toDigit (radix : Nat) (char : Char) : Option Nat :=
  let digit :=
    if '0' ≤ char && char ≤ '9' then some (char.toNat - '0'.toNat)
    else if 'a' ≤ char && char ≤ 'z' then some (char.toNat - 'a'.toNat + 10)
    else if 'A' ≤ char && char ≤ 'Z' then some (char.toNat - 'A'.toNat + 10)
    else none
  digit.filter (· < radix)

theorem toDigit_lt {radix value : Nat} {char : Char} (digit : toDigit radix char = some value) :
    value < radix := by
  rw [toDigit, Option.filter_eq_some_iff] at digit
  exact of_decide_eq_true digit.2

theorem toDigit_ascii {radix value : Nat} {char : Char}
    (digit : toDigit radix char = some value) : char.toNat < 128 := by
  rw [toDigit, Option.filter_eq_some_iff] at digit
  have digit := digit.1
  have below : ∀ last : Char, char ≤ last → char.toNat ≤ last.toNat := fun _ ordered => ordered
  split at digit
  · rename_i inside
    exact Nat.lt_of_le_of_lt (below '9' (of_decide_eq_true (Bool.and_eq_true_iff.mp inside).2))
      (by decide)
  · split at digit
    · rename_i inside
      exact Nat.lt_of_le_of_lt (below 'z' (of_decide_eq_true (Bool.and_eq_true_iff.mp inside).2))
        (by decide)
    · split at digit
      · rename_i inside
        exact Nat.lt_of_le_of_lt
          (below 'Z' (of_decide_eq_true (Bool.and_eq_true_iff.mp inside).2)) (by decide)
      · cases digit

/-- Accumulate digits, giving up at one that is no digit or passes `max`. -/
def readDigits (radix max : Nat) : (value : Nat) → Text → Option Nat
  | value, [] => some value
  | value, char :: rest => do
      let digit ← toDigit radix char
      let value := value * radix + digit
      if value ≤ max then readDigits radix max value rest else none

/-- `from_str_radix` of an unsigned integer type whose greatest value is `max`:
at least one digit, after a plus sign or not. -/
def fromStrRadix (radix max : Nat) (text : Text) : Option Nat :=
  match text with
  | [] => none
  | ['+'] => none
  | '+' :: digits => readDigits radix max 0 digits
  | digits => readDigits radix max 0 digits

/-! ## Addresses

The readers take the text that is left and return, when they succeed, what
remains behind the part that they consumed. -/

def readGivenChar (expected : Char) : Text → Option Text
  | char :: rest => if char = expected then some rest else none
  | [] => none

def readNumber (radix maxDigits : Nat) (allowZeroPrefix : Bool) (max : Nat)
    (text : Text) : Option (Nat × Text) :=
  let digits := text.takeWhile fun char => (toDigit radix char).isSome
  if digits.length = 0 || maxDigits < digits.length then none
  else if !allowZeroPrefix && digits.head? = some '0' && 1 < digits.length then none
  else do
    let value ← readDigits radix max 0 digits
    return (value, text.drop digits.length)

/-- Read one item, behind a separator unless it is the first. -/
def readSeparator (separator : Char) (first : Bool) (item : Text → Option (α × Text))
    (text : Text) : Option (α × Text) :=
  if first then item text else (readGivenChar separator text).bind item

def readIpv4Addr (text : Text) : Option (Ipv4Addr × Text) := do
  let octet := readNumber 10 3 false 255
  let (a, text) ← readSeparator '.' true octet text
  let (b, text) ← readSeparator '.' false octet text
  let (c, text) ← readSeparator '.' false octet text
  let (d, text) ← readSeparator '.' false octet text
  return (.new (.ofNat a) (.ofNat b) (.ofNat c) (.ofNat d), text)

/-- Read up to `limit` groups of an IPv6 address, the last two of them from an
embedded IPv4 address or not. Tells whether there was one. -/
def readGroups : (limit : Nat) → (first : Bool) → Text → (List U16 × Bool) × Text
  | 0, _, text => (([], false), text)
  | limit + 1, first, text =>
      match if 0 < limit then readSeparator ':' first readIpv4Addr text else none with
      | some (ip, rest) =>
          (([ip.bits.extractLsb' 16 16, ip.bits.extractLsb' 0 16], true), rest)
      | none =>
          match readSeparator ':' first (readNumber 16 4 true 0xFFFF) text with
          | some (group, rest) =>
              let ((groups, embedded), rest) := readGroups limit false rest
              ((.ofNat 16 group :: groups, embedded), rest)
          | none => (([], false), text)

def Ipv6Addr.ofGroups (groups : List U16) : Ipv6Addr :=
  ⟨.ofNat 128 (groups.foldl (fun value group => value * 0x10000 + group.toNat) 0)⟩

def readIpv6Addr (text : Text) : Option (Ipv6Addr × Text) :=
  let ((head, embedded), text) := readGroups 8 true text
  if head.length = 8 then some (.ofGroups head, text)
  else if embedded then none
  else do
    let text ← readGivenChar ':' text
    let text ← readGivenChar ':' text
    -- The `::` stands for at least one group.
    let ((tail, _), text) := readGroups (8 - (head.length + 1)) true text
    let zeros := List.replicate (8 - head.length - tail.length) 0
    return (.ofGroups (head ++ zeros ++ tail), text)

/-- Succeed only when the reader consumes the whole text. -/
def parseWith (reader : Text → Option (α × Text)) (text : Text) : Option α :=
  match reader text with
  | some (value, []) => some value
  | _ => none

def parseIpv4Addr (text : Text) : Option Ipv4Addr :=
  if 15 < text.length then none else parseWith readIpv4Addr text

def parseIpv6Addr (text : Text) : Option Ipv6Addr :=
  parseWith readIpv6Addr text

/-- A number without a limit on its digits. -/
def readDecimal (max : Nat) (text : Text) : Option (Nat × Text) :=
  readNumber 10 text.length true max text

def readPort (text : Text) : Option (Nat × Text) :=
  (readGivenChar ':' text).bind (readDecimal 65535)

def readScopeId (text : Text) : Option (Nat × Text) :=
  (readGivenChar '%' text).bind (readDecimal 4294967295)

def readSocketAddrV4 (text : Text) : Option (SocketAddr × Text) := do
  let (ip, text) ← readIpv4Addr text
  let (port, text) ← readPort text
  return (.v4 ip (.ofNat 16 port), text)

def readSocketAddrV6 (text : Text) : Option (SocketAddr × Text) := do
  let text ← readGivenChar '[' text
  let (ip, text) ← readIpv6Addr text
  let (scopeId, text) := (readScopeId text).getD (0, text)
  let text ← readGivenChar ']' text
  let (port, text) ← readPort text
  return (.v6 ip (.ofNat 16 port) (.ofNat 32 scopeId), text)

def readSocketAddr (text : Text) : Option (SocketAddr × Text) :=
  (readSocketAddrV4 text).or (readSocketAddrV6 text)

def parseSocketAddr (text : Text) : Option SocketAddr :=
  parseWith readSocketAddr text

example : parseIpv4Addr "192.168.2.90".toList = some (.new 192 168 2 90) := by decide

example : parseIpv4Addr "192.168.2.090".toList = none := by decide

example : parseIpv6Addr "fd00::100".toList =
    some (.new 0xfd00 0 0 0 0 0 0 0x100) := by decide

example : parseSocketAddr "[fe80::1%2]:547".toList =
    some (.v6 (.new 0xfe80 0 0 0 0 0 0 1) 547 2) := by decide

end RustyDhcp
