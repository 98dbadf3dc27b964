import RustyDhcp.Readers

/-! # Printing

What `Display` prints of numbers and addresses, and how the readers take it. -/

namespace RustyDhcp

def decimal (number : Nat) : Text := Nat.toDigits 10 number

/-- `{:02x}` -/
def hexPair (octet : UInt8) : Text :=
  [Nat.digitChar (octet.toNat / 16), Nat.digitChar (octet.toNat % 16)]

/-- Formats a machine address into hex pairs separated by colons. -/
def chaddr (mac : Mac) : Text :=
  (mac.toList.drop 1).foldl (fun acc octet => acc ++ ':' :: hexPair octet) (hexPair mac[0])

def Ipv4Addr.toText (addr : Ipv4Addr) : Text :=
  ['.'].intercalate (addr.octets.map fun octet => decimal octet.toNat)

namespace Ipv6Addr

def segments (addr : Ipv6Addr) : List U16 :=
  [112, 96, 80, 64, 48, 32, 16, 0].map fun shift => addr.bits.extractLsb' shift 16

/-- The start and the length of the longest run of zeros, the first of several. -/
def longestZeros (segments : List U16) : Nat × Nat :=
  (segments.zipIdx.foldl (fun ((longest, current) : (Nat × Nat) × (Nat × Nat)) (segment, i) =>
    if segment = 0 then
      let current := if current.2 = 0 then (i, 1) else (current.1, current.2 + 1)
      (if longest.2 < current.2 then current else longest, current)
    else (longest, (0, 0))) ((0, 0), (0, 0))).1

def subslice (segments : List U16) : Text :=
  [':'].intercalate (segments.map fun segment => Nat.toDigits 16 segment.toNat)

def toText (addr : Ipv6Addr) : Text :=
  if addr.bits.extractLsb' 32 96 = 0xFFFF then
    "::ffff:".toList ++ Ipv4Addr.toText ⟨addr.bits.extractLsb' 0 32⟩
  else
    let segments := addr.segments
    let (start, length) := longestZeros segments
    if 1 < length then
      subslice (segments.take start) ++ "::".toList ++ subslice (segments.drop (start + length))
    else subslice segments

end Ipv6Addr

def SocketAddr.toText : SocketAddr → Text
  | .v4 ip port => ip.toText ++ ':' :: decimal port.toNat
  | .v6 ip port scopeId =>
      let scope := if scopeId = 0 then [] else '%' :: decimal scopeId.toNat
      '[' :: ip.toText ++ scope ++ "]:".toList ++ decimal port.toNat

example : SocketAddr.toText (.v6 (.new 0xfe80 0 0 0 1 0 0 2) 546 3) =
    "[fe80::1:0:0:2%3]:546".toList := by decide

/-! ## The characters of what is printed -/

/-- Digits, and what addresses have between them. -/
def isPlain (char : Char) : Bool :=
  (toDigit 16 char).isSome || ['.', ':', '[', ']', '%'].contains char

variable {char : Char} {text rest : Text} {base number : Nat} {octet : UInt8} {mac : Mac}

theorem exists_of_mem_toDigits (two : 1 < base) (member : char ∈ Nat.toDigits base number) :
    ∃ digit < base, char = Nat.digitChar digit := by
  induction number using Nat.strongRecOn with
  | ind number induction =>
      rw [Nat.toDigits_eq_if two] at member
      split at member
      · rename_i small
        exact ⟨number, small, List.mem_singleton.mp member⟩
      · rename_i large
        rcases List.mem_append.mp member with before | last
        · exact induction (number / base) (Nat.div_lt_self (by omega) two) before
        · exact ⟨number % base, Nat.mod_lt _ (by omega), List.mem_singleton.mp last⟩

theorem toDigit_digitChar_radix : ∀ radix ≤ 16, ∀ digit < radix,
    toDigit radix (Nat.digitChar digit) = some digit := by
  decide

theorem toDigit_digitChar (digit : Nat) (small : digit < 16) :
    toDigit 16 (Nat.digitChar digit) = some digit :=
  toDigit_digitChar_radix 16 (Nat.le_refl 16) digit small

theorem isPlain_digitChar {digit : Nat} (small : digit < 16) :
    isPlain (Nat.digitChar digit) = true := by
  rw [isPlain, toDigit_digitChar digit small]
  rfl

theorem isPlain_of_mem_toDigits (two : 1 < base) (hex : base ≤ 16)
    (member : char ∈ Nat.toDigits base number) : isPlain char = true := by
  rcases exists_of_mem_toDigits two member with ⟨digit, small, rfl⟩
  exact isPlain_digitChar (Nat.lt_of_lt_of_le small hex)

theorem isPlain_of_mem_decimal (member : char ∈ decimal number) : isPlain char = true :=
  isPlain_of_mem_toDigits (by decide) (by decide) member

theorem isPlain_of_mem_hexPair (member : char ∈ hexPair octet) : isPlain char = true := by
  have bound := octet.toNat_lt
  rw [hexPair, List.mem_cons, List.mem_singleton] at member
  rcases member with rfl | rfl
  · exact isPlain_digitChar (by omega)
  · exact isPlain_digitChar (by omega)

theorem foldl_hexPair (first : Text) (octets : List UInt8) :
    octets.foldl (fun acc octet => acc ++ ':' :: hexPair octet) first =
      [':'].intercalate (first :: octets.map hexPair) := by
  induction octets generalizing first with
  | nil => rw [List.foldl_nil, List.map_nil, List.intercalate_singleton]
  | cons octet octets induction =>
      rw [List.foldl_cons, induction, List.map_cons, List.intercalate_cons_cons]
      cases octets with
      | nil => simp
      | cons next octets => simp [List.intercalate_cons_cons]

theorem chaddr_eq (mac : Mac) : chaddr mac = [':'].intercalate (mac.toList.map hexPair) := by
  have split : mac.toList = mac[0] :: mac.toList.drop 1 :=
    (List.getElem_cons_drop (i := 0) (by simp)).symm
  rw [chaddr, foldl_hexPair, ← List.map_cons, ← split]

theorem isPlain_of_mem_intercalate {parts : List Text} {separator : Char}
    (between : isPlain separator = true)
    (plain : ∀ part ∈ parts, ∀ char ∈ part, isPlain char = true)
    (member : char ∈ [separator].intercalate parts) : isPlain char = true := by
  rcases of_mem_intercalate member with rfl | ⟨part, inside, member⟩
  · exact between
  · exact plain part inside char member

theorem isPlain_of_mem_chaddr (member : char ∈ chaddr mac) : isPlain char = true := by
  rw [chaddr_eq] at member
  apply isPlain_of_mem_intercalate (by decide) _ member
  intro part inside char member
  rcases List.mem_map.mp inside with ⟨octet, _, rfl⟩
  exact isPlain_of_mem_hexPair member

theorem isPlain_of_mem_ipv4 {addr : Ipv4Addr} (member : char ∈ addr.toText) :
    isPlain char = true := by
  apply isPlain_of_mem_intercalate (by decide) _ member
  intro part inside char member
  rcases List.mem_map.mp inside with ⟨octet, _, rfl⟩
  exact isPlain_of_mem_decimal member

theorem isPlain_of_mem_subslice {segments : List U16}
    (member : char ∈ Ipv6Addr.subslice segments) : isPlain char = true := by
  apply isPlain_of_mem_intercalate (by decide) _ member
  intro part inside char member
  rcases List.mem_map.mp inside with ⟨segment, _, rfl⟩
  exact isPlain_of_mem_toDigits (by decide) (by decide) member

theorem isPlain_of_mem_ipv6 {addr : Ipv6Addr} (member : char ∈ addr.toText) :
    isPlain char = true := by
  have literal : "::ffff:".toList.all isPlain = true := by decide
  have colons : "::".toList.all isPlain = true := by decide
  rw [Ipv6Addr.toText] at member
  split at member
  · rcases List.mem_append.mp member with mapped | member
    · exact List.all_eq_true.mp literal char mapped
    · exact isPlain_of_mem_ipv4 member
  · dsimp only at member
    split at member
    · rcases List.mem_append.mp member with member | member
      · rcases List.mem_append.mp member with member | member
        · exact isPlain_of_mem_subslice member
        · exact List.all_eq_true.mp colons char member
      · exact isPlain_of_mem_subslice member
    · exact isPlain_of_mem_subslice member

theorem isPlain_of_mem_socketAddr {addr : SocketAddr} (member : char ∈ addr.toText) :
    isPlain char = true := by
  have bracket : "]:".toList.all isPlain = true := by decide
  cases addr with
  | v4 ip port =>
      rcases List.mem_append.mp member with member | member
      · exact isPlain_of_mem_ipv4 member
      · rcases List.mem_cons.mp member with rfl | member
        · decide
        · exact isPlain_of_mem_decimal member
  | v6 ip port scopeId =>
      rw [SocketAddr.toText, List.cons_append, List.cons_append, List.cons_append] at member
      rcases List.mem_cons.mp member with rfl | member
      · decide
      · rcases List.mem_append.mp member with member | member
        · rcases List.mem_append.mp member with member | member
          · rcases List.mem_append.mp member with member | member
            · exact isPlain_of_mem_ipv6 member
            · split at member
              · cases member
              · rcases List.mem_cons.mp member with rfl | member
                · decide
                · exact isPlain_of_mem_decimal member
          · exact List.all_eq_true.mp bracket char member
        · exact isPlain_of_mem_decimal member

theorem toNat_of_isPlain (plain : isPlain char = true) : char.toNat < 128 := by
  rw [isPlain, Bool.or_eq_true] at plain
  rcases plain with digit | other
  · rcases Option.isSome_iff_exists.mp digit with ⟨value, digit⟩
    exact toDigit_ascii digit
  · simp only [List.contains_iff_mem, List.mem_cons, List.not_mem_nil, or_false] at other
    rcases other with rfl | rfl | rfl | rfl | rfl <;> decide

theorem isWhitespace_of_isPlain (plain : isPlain char = true) : isWhitespace char = false := by
  have checked : ∀ code < 128, isPlain (Char.ofNat code) = true →
      isWhitespace (Char.ofNat code) = false := by
    decide +kernel
  have ascii := toNat_of_isPlain plain
  rw [← Char.ofNat_toNat char] at plain ⊢
  exact checked char.toNat ascii plain

/-! ## Reading what was printed -/

theorem decimal_octet : ∀ value < 256, readDigits 10 255 0 (decimal value) = some value ∧
    (decimal value).length ≤ 3 ∧
    ((decimal value).head? = some '0' → (decimal value).length = 1) := by
  decide +kernel

theorem toDigit_of_mem_toDigits (two : 1 < base) (hex : base ≤ 16)
    (member : char ∈ Nat.toDigits base number) : (toDigit base char).isSome = true := by
  rcases exists_of_mem_toDigits two member with ⟨digit, small, rfl⟩
  rw [toDigit_digitChar_radix base hex digit small]
  rfl

/-- The digits of a number end at the first character that is none. -/
theorem takeWhile_toDigits (two : 1 < base) (hex : base ≤ 16)
    (stops : ∀ char ∈ rest.head?, toDigit base char = none) :
    (Nat.toDigits base number ++ rest).takeWhile (fun char => (toDigit base char).isSome) =
      Nat.toDigits base number := by
  rw [List.takeWhile_append_of_pos fun char member => toDigit_of_mem_toDigits two hex member]
  have nothing : rest.takeWhile (fun char => (toDigit base char).isSome) = [] := by
    cases rest with
    | nil => rfl
    | cons char rest =>
        rw [List.takeWhile_cons_of_neg]
        rw [stops char rfl]
        exact Bool.false_ne_true
  rw [nothing, List.append_nil]

/-- An octet is read up to the first character that is no digit. -/
theorem readNumber_decimal (octet : UInt8) (stops : ∀ char ∈ rest.head?, toDigit 10 char = none) :
    readNumber 10 3 false 255 (decimal octet.toNat ++ rest) = some (octet.toNat, rest) := by
  have taken : (decimal octet.toNat ++ rest).takeWhile (fun char => (toDigit 10 char).isSome) =
      decimal octet.toNat := takeWhile_toDigits (by decide) (by decide) stops
  have nonempty : 0 < (decimal octet.toNat).length := Nat.length_toDigits_pos
  rcases decimal_octet octet.toNat octet.toNat_lt with ⟨read, short, unpadded⟩
  rw [readNumber, taken, if_neg, if_neg, read]
  · simp
  · intro padded
    rw [Bool.and_eq_true, Bool.and_eq_true, decide_eq_true_eq, decide_eq_true_eq] at padded
    have single := unpadded padded.1.2
    omega
  · simp only [Bool.or_eq_true, decide_eq_true_eq]
    omega

theorem Ipv4Addr.new_octets (bits : U32) :
    Ipv4Addr.new (.ofBitVec (bits.extractLsb' 24 8)) (.ofBitVec (bits.extractLsb' 16 8))
      (.ofBitVec (bits.extractLsb' 8 8)) (.ofBitVec (bits.extractLsb' 0 8)) = ⟨bits⟩ := by
  rw [new, Ipv4Addr.mk.injEq]
  dsimp only
  rw [BitVec.extractLsb'_append_extractLsb'_eq_extractLsb' (by decide),
    BitVec.extractLsb'_append_extractLsb'_eq_extractLsb' (by decide),
    BitVec.extractLsb'_append_extractLsb'_eq_extractLsb' (by decide)]
  exact BitVec.extractLsb'_eq_self

theorem readIpv4Addr_toText (addr : Ipv4Addr)
    (stops : ∀ char ∈ rest.head?, toDigit 10 char = none) :
    readIpv4Addr (addr.toText ++ rest) = some (addr, rest) := by
  have dot : ∀ {text : Text}, ∀ char ∈ ('.' :: text).head?, toDigit 10 char = none := by
    intro text char found
    cases found
    rfl
  simp only [Ipv4Addr.toText, Ipv4Addr.octets, List.map_cons, List.map_nil,
    List.intercalate_cons_cons, List.intercalate_singleton, List.append_assoc,
    List.cons_append, List.nil_append]
  simp only [readIpv4Addr, readSeparator, readGivenChar, readNumber_decimal _ dot,
    readNumber_decimal _ stops, if_true, Bool.false_eq_true, if_false, Option.bind_eq_bind,
    Option.bind_some, UInt8.ofNat_toNat, Ipv4Addr.new_octets]
  rfl

theorem length_toText_le (addr : Ipv4Addr) : addr.toText.length ≤ 15 := by
  have short : ∀ octet : UInt8, (decimal octet.toNat).length ≤ 3 := fun octet =>
    (decimal_octet octet.toNat octet.toNat_lt).2.1
  have first := short (.ofBitVec (addr.bits.extractLsb' 24 8))
  have second := short (.ofBitVec (addr.bits.extractLsb' 16 8))
  have third := short (.ofBitVec (addr.bits.extractLsb' 8 8))
  have fourth := short (.ofBitVec (addr.bits.extractLsb' 0 8))
  simp only [Ipv4Addr.toText, Ipv4Addr.octets, List.map_cons, List.map_nil,
    List.intercalate_cons_cons, List.intercalate_singleton, List.length_append,
    List.length_cons, List.length_nil]
  omega

/-- An address is read back from what is printed of it. -/
theorem parseIpv4Addr_toText (addr : Ipv4Addr) : parseIpv4Addr addr.toText = some addr := by
  have read := @readIpv4Addr_toText [] addr (by simp)
  rw [List.append_nil] at read
  rw [parseIpv4Addr, if_neg (Nat.not_lt.mpr (length_toText_le addr)), parseWith, read]

theorem trim_of_kept (kept : ∀ char ∈ text, isWhitespace char = false) : trim text = text := by
  have whole : ∀ {text : Text}, (∀ char ∈ text, isWhitespace char = false) →
      text.dropWhile isWhitespace = text := by
    intro text kept
    cases text with
    | nil => rfl
    | cons char text =>
        rw [List.dropWhile_cons_of_neg]
        rw [kept char List.mem_cons_self]
        exact Bool.false_ne_true
  rw [trim, whole kept, whole fun char member => kept char (List.mem_reverse.mp member),
    List.reverse_reverse]

end RustyDhcp
