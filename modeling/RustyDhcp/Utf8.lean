import RustyDhcp.Text

/-! # Reading UTF-8 -/

namespace RustyDhcp

/-- The text that at most the given number of characters encode. -/
def readUtf8 : (rounds : Nat) → List UInt8 → Option Text
  | _, [] => some []
  | 0, _ :: _ => none
  | rounds + 1, byte :: bytes => do
      let char ← (byte :: bytes).toByteArray.utf8DecodeChar? 0
      let rest ← readUtf8 rounds ((byte :: bytes).drop char.utf8Size)
      return char :: rest

/-- `str::from_utf8` -/
def fromUtf8 (bytes : List UInt8) : Option Text := readUtf8 bytes.length bytes

variable {bytes : List UInt8} {char : Char} {text : Text} {rounds : Nat}

theorem decodeChar_eq_some_iff : bytes.toByteArray.utf8DecodeChar? 0 = some char ↔
    ∃ rest, bytes = String.utf8EncodeChar char ++ rest := by
  constructor
  · intro found
    rcases ByteArray.exists_of_utf8DecodeChar?_eq_some found with ⟨rest, equal⟩
    have contents := congrArg (fun array : ByteArray => array.data.toList) equal
    exact ⟨rest.data.toList, by simpa using contents⟩
  · intro found
    rcases found with ⟨rest, rfl⟩
    rw [List.toByteArray_append]
    exact ByteArray.utf8DecodeChar?_utf8EncodeChar_append

theorem asBytes_cons : asBytes (char :: text) = String.utf8EncodeChar char ++ asBytes text :=
  List.flatMap_cons

/-- A character of ASCII is its own encoding. -/
theorem utf8EncodeChar_ascii (ascii : char.toNat < 128) :
    String.utf8EncodeChar char = [.ofNat char.toNat] := by
  rw [String.utf8EncodeChar]
  exact if_pos (Nat.le_of_lt_succ ascii)

/-- No byte of another character looks like one of ASCII. -/
theorem utf8EncodeChar_wide (wide : 128 ≤ char.toNat) :
    ∀ byte ∈ String.utf8EncodeChar char, 128 ≤ byte.toNat := by
  have code : char.val.toNat = char.toNat := rfl
  intro byte member
  rw [String.utf8EncodeChar, code, if_neg (by omega)] at member
  split at member
  · simp only [List.mem_cons, List.not_mem_nil, or_false] at member
    rcases member with rfl | rfl <;> rw [UInt8.toNat_ofNat'] <;> omega
  · split at member
    · simp only [List.mem_cons, List.not_mem_nil, or_false] at member
      rcases member with rfl | rfl | rfl <;> rw [UInt8.toNat_ofNat'] <;> omega
    · simp only [List.mem_cons, List.not_mem_nil, or_false] at member
      rcases member with rfl | rfl | rfl | rfl <;> rw [UInt8.toNat_ofNat'] <;> omega

theorem readUtf8_succ (more : bytes ≠ []) : readUtf8 (rounds + 1) bytes = (do
    let char ← bytes.toByteArray.utf8DecodeChar? 0
    let rest ← readUtf8 rounds (bytes.drop char.utf8Size)
    return char :: rest) := by
  cases bytes with
  | nil => exact absurd rfl more
  | cons byte bytes => rfl

theorem readUtf8_asBytes (text : Text) (enough : (asBytes text).length ≤ rounds) :
    readUtf8 rounds (asBytes text) = some text := by
  induction text generalizing rounds with
  | nil => cases rounds <;> rfl
  | cons char text induction =>
      have positive := char.utf8Size_pos
      have more : asBytes (char :: text) ≠ [] := by
        rw [asBytes_cons]
        exact List.append_ne_nil_of_left_ne_nil String.utf8EncodeChar_ne_nil _
      have first : (asBytes (char :: text)).toByteArray.utf8DecodeChar? 0 = some char :=
        decodeChar_eq_some_iff.mpr ⟨asBytes text, asBytes_cons⟩
      have remaining : (asBytes (char :: text)).drop char.utf8Size = asBytes text := by
        rw [asBytes_cons, ← String.length_utf8EncodeChar, List.drop_left]
      rw [asBytes_cons, List.length_append, String.length_utf8EncodeChar] at enough
      cases rounds with
      | zero => omega
      | succ rounds =>
          rw [readUtf8_succ more, first]
          simp [remaining, induction (show (asBytes text).length ≤ rounds by omega)]

theorem asBytes_of_readUtf8 (found : readUtf8 rounds bytes = some text) : asBytes text = bytes := by
  induction rounds generalizing bytes text with
  | zero =>
      cases bytes with
      | nil =>
          cases found
          rfl
      | cons byte bytes => cases found
  | succ rounds induction =>
      by_cases more : bytes = []
      · rw [more] at found
        cases found
        exact more.symm
      · rw [readUtf8_succ more] at found
        rcases Option.bind_eq_some_iff.mp found with ⟨char, first, tail⟩
        rcases Option.bind_eq_some_iff.mp tail with ⟨others, remaining, equal⟩
        cases equal
        rcases decodeChar_eq_some_iff.mp first with ⟨rest, rfl⟩
        rw [← String.length_utf8EncodeChar, List.drop_left] at remaining
        rw [asBytes_cons, induction remaining]

theorem fromUtf8_eq_some_iff : fromUtf8 bytes = some text ↔ asBytes text = bytes := by
  constructor
  · exact asBytes_of_readUtf8
  · intro equal
    subst equal
    exact readUtf8_asBytes text (Nat.le_refl _)

end RustyDhcp
