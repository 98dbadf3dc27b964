import RustyDhcp.Config
import RustyDhcp.Utf8
import Mathlib.Data.List.Induction

/-! # The notation of DUIDs

A DUID is written byte by byte, each as two hexadecimal digits, with separators
before, between and behind the bytes. The reader skips a separator wherever it
stands, so it also takes one from between the two digits of a byte. -/

namespace RustyDhcp

namespace Duid

def isSeparator (char : Char) : Bool :=
  char = ':' || char = '-' || char = ' ' || char = '\t'

/-- A text writes bytes as the documentation says. -/
inductive Writes : Text → List UInt8 → Prop where
  | nothing : Writes [] []
  | separator (char : Char) (skipped : isSeparator char = true)
      (rest : Writes text bytes) : Writes (char :: text) bytes
  | byte (first second : Char) (high low : Nat) (highDigit : toDigit 16 first = some high)
      (lowDigit : toDigit 16 second = some low) (rest : Writes text bytes) :
      Writes (first :: second :: text) (.ofNat (high * 16 + low) :: bytes)

def Documented (text : Text) (bytes : List UInt8) : Prop := Writes text bytes ∧ bytes ≠ []

/-- The text without its separators. -/
def digits (text : Text) : Text := text.filter fun char => !isSeparator char

/-- A separator stands between the two digits of a byte. -/
def Interrupted (text : Text) : Prop :=
  ∃ before separator behind, text = before ++ separator :: behind ∧
    isSeparator separator = true ∧ (digits before).length % 2 = 1

/-- The text reads as whole bytes when its separators are taken out, and one of
them stands inside a byte. -/
structure Split (text : Text) : Prop where
  hexadecimal : ∀ char ∈ digits text, (toDigit 16 char).isSome
  even : (digits text).length % 2 = 0
  interrupted : Interrupted text

variable {text : Text} {bytes : List UInt8} {char : Char}

@[simp] theorem digits_nil : digits [] = [] := rfl

theorem digits_separator (skipped : isSeparator char = true) :
    digits (char :: text) = digits text := by
  rw [digits, List.filter_cons_of_neg (by rw [skipped]; decide)]
  rfl

theorem digits_digit (other : isSeparator char = false) :
    digits (char :: text) = char :: digits text := by
  rw [digits, List.filter_cons_of_pos (by rw [other]; rfl)]
  rfl

@[simp] theorem digits_digits (text : Text) : digits (digits text) = digits text := by
  rw [digits, digits, List.filter_filter]
  simp only [Bool.and_self]

theorem digits_append (first second : Text) :
    digits (first ++ second) = digits first ++ digits second :=
  List.filter_append _ _

theorem not_isSeparator_of_toDigit (digit : (toDigit 16 char).isSome) :
    isSeparator char = false := by
  rw [isSeparator]
  by_contra separator
  simp only [Bool.not_eq_false, Bool.or_eq_true, decide_eq_true_eq] at separator
  rcases separator with ((rfl | rfl) | rfl) | rfl <;> exact absurd digit (by decide)

/-! ## What a text without separators writes -/

theorem Writes.digits (writes : Writes text bytes) : Writes (digits text) bytes := by
  induction writes with
  | nothing => exact .nothing
  | separator char skipped rest induction =>
      rw [digits_separator skipped]
      exact induction
  | byte first second high low highDigit lowDigit rest induction =>
      rw [digits_digit (not_isSeparator_of_toDigit (Option.isSome_of_eq_some highDigit)),
        digits_digit (not_isSeparator_of_toDigit (Option.isSome_of_eq_some lowDigit))]
      exact .byte first second high low highDigit lowDigit induction

theorem Writes.hexadecimal (writes : Writes text bytes) :
    ∀ char ∈ Duid.digits text, (toDigit 16 char).isSome := by
  induction writes with
  | nothing => exact fun _ member => nomatch member
  | separator char skipped rest induction =>
      rw [digits_separator skipped]
      exact induction
  | byte first second high low highDigit lowDigit rest induction =>
      have firstSome := Option.isSome_of_eq_some highDigit
      have secondSome := Option.isSome_of_eq_some lowDigit
      rw [digits_digit (not_isSeparator_of_toDigit firstSome),
        digits_digit (not_isSeparator_of_toDigit secondSome)]
      intro char member
      rcases List.mem_cons.mp member with rfl | member
      · exact firstSome
      · rcases List.mem_cons.mp member with rfl | member
        · exact secondSome
        · exact induction char member

theorem Writes.length (writes : Writes text bytes) :
    (Duid.digits text).length = 2 * bytes.length := by
  induction writes with
  | nothing => rfl
  | separator char skipped rest induction =>
      rw [digits_separator skipped]
      exact induction
  | byte first second high low highDigit lowDigit rest induction =>
      rw [digits_digit (not_isSeparator_of_toDigit (Option.isSome_of_eq_some highDigit)),
        digits_digit (not_isSeparator_of_toDigit (Option.isSome_of_eq_some lowDigit)),
        List.length_cons, List.length_cons, List.length_cons]
      omega

theorem exists_writes (text : Text) (hexadecimal : ∀ char ∈ text, (toDigit 16 char).isSome)
    (even : text.length % 2 = 0) : ∃ bytes, Writes text bytes := by
  induction text using List.twoStepInduction with
  | nil => exact ⟨[], .nothing⟩
  | singleton char => cases even
  | cons_cons first second text induction _ =>
      have highSome := hexadecimal first List.mem_cons_self
      have lowSome := hexadecimal second (List.mem_cons_of_mem _ List.mem_cons_self)
      rcases Option.isSome_iff_exists.mp highSome with ⟨high, highDigit⟩
      rcases Option.isSome_iff_exists.mp lowSome with ⟨low, lowDigit⟩
      rw [List.length_cons, List.length_cons] at even
      have others : ∀ char ∈ text, (toDigit 16 char).isSome := fun char member =>
        hexadecimal char (List.mem_cons_of_mem _ (List.mem_cons_of_mem _ member))
      rcases induction others (by omega) with ⟨bytes, writes⟩
      exact ⟨_, .byte first second high low highDigit lowDigit writes⟩

/-! ## Separators inside a byte -/

theorem Interrupted.skip (skipped : isSeparator char = true) :
    Interrupted text → Interrupted (char :: text) := by
  intro interrupted
  rcases interrupted with ⟨before, separator, behind, rfl, isSeparator, odd⟩
  refine ⟨char :: before, separator, behind, rfl, isSeparator, ?_⟩
  rw [digits_separator skipped]
  exact odd

theorem Interrupted.behind {first second : Char} (firstDigit : isSeparator first = false)
    (secondDigit : isSeparator second = false) :
    Interrupted text → Interrupted (first :: second :: text) := by
  intro interrupted
  rcases interrupted with ⟨before, separator, behind, rfl, isSeparator, odd⟩
  refine ⟨first :: second :: before, separator, behind, rfl, isSeparator, ?_⟩
  rw [digits_digit firstDigit, digits_digit secondDigit, List.length_cons, List.length_cons]
  omega

theorem Writes.not_interrupted (writes : Writes text bytes) : ¬Interrupted text := by
  induction writes with
  | nothing =>
      intro interrupted
      rcases interrupted with ⟨before, _, _, equal, _⟩
      cases before <;> cases equal
  | separator char skipped rest induction =>
      intro interrupted
      rcases interrupted with ⟨before, separator, behind, equal, isSeparator, odd⟩
      cases before with
      | nil => cases odd
      | cons head before =>
          rcases List.cons.inj equal with ⟨rfl, same⟩
          rw [digits_separator skipped] at odd
          exact induction ⟨before, separator, behind, same, isSeparator, odd⟩
  | byte first second high low highDigit lowDigit rest induction =>
      have firstDigit := not_isSeparator_of_toDigit (Option.isSome_of_eq_some highDigit)
      have secondDigit := not_isSeparator_of_toDigit (Option.isSome_of_eq_some lowDigit)
      intro interrupted
      rcases interrupted with ⟨before, separator, behind, equal, isSeparator, odd⟩
      rcases before with _ | ⟨head, _ | ⟨next, before⟩⟩
      · cases odd
      · rcases List.cons.inj equal with ⟨rfl, tail⟩
        rcases List.cons.inj tail with ⟨rfl, _⟩
        rw [secondDigit] at isSeparator
        cases isSeparator
      · rcases List.cons.inj equal with ⟨rfl, tail⟩
        rcases List.cons.inj tail with ⟨rfl, same⟩
        rw [digits_digit firstDigit, digits_digit secondDigit, List.length_cons,
          List.length_cons] at odd
        exact induction ⟨before, separator, behind, same, isSeparator, by omega⟩

theorem writes_pair_iff {first second : Char} {high low : Nat}
    (highDigit : toDigit 16 first = some high) (lowDigit : toDigit 16 second = some low) :
    Writes (first :: second :: text) bytes ↔
      ∃ rest, bytes = .ofNat (high * 16 + low) :: rest ∧ Writes text rest := by
  constructor
  · intro writes
    cases writes with
    | separator _ skipped _ =>
        rw [not_isSeparator_of_toDigit (Option.isSome_of_eq_some highDigit)] at skipped
        cases skipped
    | byte _ _ known known' highKnown lowKnown rest =>
        rw [highDigit, Option.some.injEq] at highKnown
        rw [lowDigit, Option.some.injEq] at lowKnown
        subst highKnown lowKnown
        exact ⟨_, rfl, rest⟩
  · intro found
    rcases found with ⟨rest, rfl, writes⟩
    exact .byte first second high low highDigit lowDigit writes

/-- Where no separator stands inside a byte, taking them out changes nothing. -/
theorem writes_of_digits (whole : ¬Interrupted text) (writes : Writes (digits text) bytes) :
    Writes text bytes := by
  generalize count : text.length = length
  induction length using Nat.strongRecOn generalizing text bytes with
  | ind length induction =>
      cases text with
      | nil => exact writes
      | cons first text =>
          rw [List.length_cons] at count
          cases firstKind : isSeparator first with
          | true =>
              rw [digits_separator firstKind] at writes
              exact .separator first firstKind (induction text.length (by omega)
                (fun interrupted => whole (interrupted.skip firstKind)) writes rfl)
          | false =>
              rw [digits_digit firstKind] at writes
              cases text with
              | nil =>
                  cases writes with
                  | separator _ skipped _ => exact absurd skipped (by rw [firstKind]; decide)
              | cons second text =>
                  rw [List.length_cons] at count
                  cases secondKind : isSeparator second with
                  | true =>
                      refine absurd ⟨[first], second, text, rfl, secondKind, ?_⟩ whole
                      rw [digits_digit firstKind]
                      rfl
                  | false =>
                      rw [digits_digit secondKind] at writes
                      cases writes with
                      | separator _ skipped _ => exact absurd skipped (by rw [firstKind]; decide)
                      | byte _ _ high low highDigit lowDigit rest =>
                          exact .byte first second high low highDigit lowDigit
                            (induction text.length (by omega)
                              (fun inside => whole (inside.behind firstKind secondKind)) rest rfl)

/-! ## The reader -/

theorem hexVal_ascii : ∀ code < 128,
    hexVal (.ofNat code) = (toDigit 16 (.ofNat code)).map UInt8.ofNat := by
  decide

theorem separator_ascii : ∀ code < 128,
    (let byte := UInt8.ofNat code
     (byte = ':'.toUInt8 || byte = '-'.toUInt8 || byte = ' '.toUInt8 || byte = '\t'.toUInt8)) =
      isSeparator (.ofNat code) := by
  decide

theorem other_wide : ∀ code < 256, 128 ≤ code →
    (let byte := UInt8.ofNat code
     hexVal byte = none ∧ (byte = ':'.toUInt8 || byte = '-'.toUInt8 || byte = ' '.toUInt8 ||
      byte = '\t'.toUInt8) = false) := by
  decide +kernel

theorem join_digits : ∀ high < 16, ∀ low < 16,
    (UInt8.ofNat high <<< 4) ||| UInt8.ofNat low = .ofNat (high * 16 + low) := by
  decide

theorem ascii_of_isSeparator (skipped : isSeparator char = true) : char.toNat < 128 := by
  simp only [isSeparator, Bool.or_eq_true, decide_eq_true_eq] at skipped
  rcases skipped with ((rfl | rfl) | rfl) | rfl <;> decide

section Reading

variable {whole chars : Text} {out : List UInt8} {hi : Option UInt8}

theorem readDuidHex_separator (skipped : isSeparator char = true) :
    readDuidHex whole out hi (asBytes (char :: chars)) =
      readDuidHex whole out hi (asBytes chars) := by
  have ascii := ascii_of_isSeparator skipped
  have test := separator_ascii char.toNat ascii
  rw [Char.ofNat_toNat, skipped] at test
  rw [asBytes_cons, utf8EncodeChar_ascii ascii]
  exact if_pos test

theorem readDuidHex_digit {value : Nat} (digit : toDigit 16 char = some value) :
    readDuidHex whole out hi (asBytes (char :: chars)) =
      match hi with
      | some high => readDuidHex whole (out ++ [(high <<< 4) ||| .ofNat value]) none (asBytes chars)
      | none => readDuidHex whole out (some (.ofNat value)) (asBytes chars) := by
  have ascii := toDigit_ascii digit
  have test := separator_ascii char.toNat ascii
  have read := hexVal_ascii char.toNat ascii
  rw [Char.ofNat_toNat, not_isSeparator_of_toDigit (Option.isSome_of_eq_some digit)] at test
  rw [Char.ofNat_toNat, digit] at read
  rw [asBytes_cons, utf8EncodeChar_ascii ascii, List.singleton_append, readDuidHex,
    if_neg (by rw [test]; decide), read]
  rfl

theorem readDuidHex_other (noSeparator : isSeparator char = false)
    (noDigit : toDigit 16 char = none) :
    ∃ error, readDuidHex whole out hi (asBytes (char :: chars)) = .error error := by
  rw [asBytes_cons]
  by_cases ascii : char.toNat < 128
  · have test := separator_ascii char.toNat ascii
    have read := hexVal_ascii char.toNat ascii
    rw [Char.ofNat_toNat, noSeparator] at test
    rw [Char.ofNat_toNat, noDigit] at read
    rw [utf8EncodeChar_ascii ascii, List.singleton_append, readDuidHex,
      if_neg (by rw [test]; decide), read]
    exact ⟨_, rfl⟩
  · have wide := utf8EncodeChar_wide (Nat.le_of_not_lt ascii)
    cases encoded : String.utf8EncodeChar char with
    | nil => exact absurd encoded String.utf8EncodeChar_ne_nil
    | cons byte rest =>
        rw [encoded] at wide
        have other := other_wide byte.toNat byte.toNat_lt (wide byte List.mem_cons_self)
        rw [UInt8.ofNat_toNat] at other
        rw [List.cons_append, readDuidHex, if_neg (by rw [other.2]; decide), other.1]
        exact ⟨_, rfl⟩

/-- The digit that waits for its partner, and how it is written. -/
inductive Waits : Option UInt8 → Text → Prop where
  | nothing : Waits none []
  | digit (char : Char) (value : Nat) (digit : toDigit 16 char = some value) :
      Waits (some (.ofNat value)) [char]

theorem readDuidHex_nil {pending : Text} (waits : Waits hi pending) :
    readDuidHex whole out hi [] = .ok bytes ↔
      bytes ≠ [] ∧ ∃ more, bytes = out ++ more ∧ Writes pending more := by
  cases waits with
  | nothing =>
      have empty : ∀ more, Writes [] more ↔ more = [] := fun more =>
        ⟨fun writes => by cases writes; rfl, fun equal => equal ▸ .nothing⟩
      have step : readDuidHex whole out none [] =
          if out.isEmpty then .error (.oddLengthHex whole) else .ok out := rfl
      simp only [step, empty, exists_eq_right, List.append_nil]
      cases out with
      | nil => simp
      | cons byte out =>
          simp only [List.isEmpty_cons, Bool.false_eq_true, if_false, Except.ok.injEq]
          constructor
          · intro equal
            subst equal
            exact ⟨List.cons_ne_nil _ _, rfl⟩
          · exact fun found => found.2.symm
  | digit waiting value digit =>
      have other := not_isSeparator_of_toDigit (Option.isSome_of_eq_some digit)
      constructor
      · intro accepted
        cases accepted
      · intro found
        rcases found with ⟨_, more, _, writes⟩
        cases writes with
        | separator _ skipped _ => exact absurd skipped (by rw [other]; decide)

/-- The reader goes by the digits alone. -/
theorem readDuidHex_eq_ok_iff {pending : Text} (waits : Waits hi pending) :
    readDuidHex whole out hi (asBytes chars) = .ok bytes ↔
      bytes ≠ [] ∧ ∃ more, bytes = out ++ more ∧ Writes (pending ++ digits chars) more := by
  induction chars generalizing out hi pending with
  | nil =>
      rw [digits_nil, List.append_nil]
      exact readDuidHex_nil waits
  | cons char chars induction =>
      cases kind : isSeparator char with
      | true =>
          rw [readDuidHex_separator kind, digits_separator kind]
          exact induction waits
      | false =>
          rw [digits_digit kind]
          cases digit : toDigit 16 char with
          | none =>
              rcases readDuidHex_other kind digit with ⟨error, refused⟩
              rw [refused]
              constructor
              · intro accepted
                cases accepted
              · intro found
                rcases found with ⟨_, more, _, writes⟩
                have member : char ∈ digits (pending ++ char :: digits chars) :=
                  List.mem_filter.mpr
                    ⟨List.mem_append_right _ List.mem_cons_self, by rw [kind]; rfl⟩
                have known := writes.hexadecimal char member
                rw [digit] at known
                cases known
          | some value =>
              rw [readDuidHex_digit digit]
              cases waits with
              | nothing => exact induction (.digit char value digit)
              | digit waiting high highDigit =>
                  dsimp only
                  rw [join_digits high (toDigit_lt highDigit) value (toDigit_lt digit),
                    induction .nothing, List.nil_append, List.singleton_append]
                  simp only [writes_pair_iff highDigit digit]
                  constructor
                  · intro found
                    rcases found with ⟨some, more, rfl, writes⟩
                    exact ⟨some, _, List.append_assoc _ _ _, more, rfl, writes⟩
                  · intro found
                    rcases found with ⟨some, _, rfl, rest, rfl, writes⟩
                    exact ⟨some, rest, List.append_cons _ _ _, writes⟩

end Reading

theorem parseDuidHex_eq_ok_iff : parseDuidHex text = .ok bytes ↔
    bytes ≠ [] ∧ Writes (digits text) bytes := by
  rw [parseDuidHex, readDuidHex_eq_ok_iff .nothing]
  simp

/-- The reader accepts exactly the documented notation on every text that has no
separator inside a byte, and on no other. -/
theorem parseDuidHex_documented (text : Text) :
    (∀ bytes, parseDuidHex text = .ok bytes ↔ Documented text bytes) ↔ ¬Split text := by
  constructor
  · intro documented split
    rcases exists_writes _ split.hexadecimal split.even with ⟨bytes, writes⟩
    have count := writes.length
    rw [digits_digits] at count
    have some : bytes ≠ [] := by
      rintro rfl
      rcases split.interrupted with ⟨before, separator, behind, rfl, _, odd⟩
      rw [digits_append, List.length_append, List.length_nil] at count
      omega
    have accepted := parseDuidHex_eq_ok_iff.mpr ⟨some, writes⟩
    exact ((documented bytes).mp accepted).1.not_interrupted split.interrupted
  · intro whole bytes
    rw [parseDuidHex_eq_ok_iff, Documented]
    constructor
    · intro accepted
      refine ⟨writes_of_digits ?_ accepted.2, accepted.1⟩
      intro interrupted
      have known := accepted.2.hexadecimal
      have count := accepted.2.length
      rw [digits_digits] at known count
      exact whole ⟨known, by omega, interrupted⟩
    · intro documented
      exact ⟨documented.2, documented.1.digits⟩

/-- Four bytes of one digit each are read as two bytes. -/
theorem parseDuidHex_regroups :
    parseDuidHex "0:3:0:1".toList = .ok [0x03, 0x01] ∧
      ¬Documented "0:3:0:1".toList [0x03, 0x01] := by
  refine ⟨by decide, ?_⟩
  intro documented
  exact documented.1.not_interrupted ⟨['0'], ':', "3:0:1".toList, rfl, rfl, rfl⟩

end Duid

end RustyDhcp
