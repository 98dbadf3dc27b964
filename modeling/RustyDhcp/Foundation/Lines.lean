import Mathlib.Data.List.Basic

/-! # Lines

A text falls into pieces that end with a line break each, but for the last one,
which need not. Its lines are the pieces without the breaks. -/

namespace RustyDhcp.Lines

variable {newline : α} {line front text : List α} {parts kept : List (List α)}

/-- What a text can fall into. -/
inductive Pieces (newline : α) : List (List α) → Prop where
  | nil : Pieces newline []
  | last (line : List α) (nonempty : line ≠ []) (unbroken : newline ∉ line) :
      Pieces newline [line]
  | cons (line : List α) (unbroken : newline ∉ line) (rest : Pieces newline others) :
      Pieces newline ((line ++ [newline]) :: others)

/-- Some of the pieces of a text are the pieces of what they make up. -/
theorem Pieces.sublist (spec : Pieces newline parts) (some : kept.Sublist parts) :
    Pieces newline kept := by
  induction spec generalizing kept with
  | nil =>
      rw [List.sublist_nil] at some
      rw [some]
      exact .nil
  | last line nonempty unbroken =>
      rcases List.sublist_singleton.mp some with rfl | rfl
      · exact .nil
      · exact .last line nonempty unbroken
  | cons line unbroken rest induction =>
      cases some with
      | cons _ some => exact induction some
      | cons_cons _ some => exact .cons line unbroken (induction some)

variable [DecidableEq α]

/-- Cut behind every line break. -/
def pieces (newline : α) : List α → List (List α)
  | [] => []
  | char :: rest =>
      if char = newline then [char] :: pieces newline rest
      else
        match pieces newline rest with
        | [] => [[char]]
        | piece :: others => (char :: piece) :: others

/-- Take off a line break, and a carriage return in front of it. -/
def chomp (newline carriage : α) (piece : List α) : List α :=
  if piece.getLast? = some newline then
    if piece.dropLast.getLast? = some carriage then piece.dropLast.dropLast else piece.dropLast
  else piece

def of (newline carriage : α) (text : List α) : List (List α) :=
  (pieces newline text).map (chomp newline carriage)

theorem chomp_line {carriage : α} (last : line.getLast? ≠ some carriage) :
    chomp newline carriage (line ++ [newline]) = line := by
  rw [chomp, if_pos List.getLast?_concat, List.dropLast_concat, if_neg last]

theorem pieces_cons_ne {char : α} (other : char ≠ newline) :
    pieces newline (char :: text) =
      match pieces newline text with
      | [] => [[char]]
      | piece :: others => (char :: piece) :: others :=
  if_neg other

theorem pieces_cons_newline : pieces newline (newline :: text) =
    [newline] :: pieces newline text :=
  if_pos rfl

theorem pieces_line (unbroken : newline ∉ line) :
    pieces newline (line ++ newline :: text) = (line ++ [newline]) :: pieces newline text := by
  induction line with
  | nil => exact pieces_cons_newline
  | cons char line induction =>
      rw [List.mem_cons, not_or] at unbroken
      rw [List.cons_append, pieces_cons_ne (Ne.symm unbroken.1), induction unbroken.2]
      rfl

theorem pieces_last (nonempty : line ≠ []) (unbroken : newline ∉ line) :
    pieces newline line = [line] := by
  induction line with
  | nil => exact absurd rfl nonempty
  | cons char line induction =>
      rw [List.mem_cons, not_or] at unbroken
      rw [pieces_cons_ne (Ne.symm unbroken.1)]
      cases line with
      | nil => rfl
      | cons next line => rw [induction (List.cons_ne_nil _ _) unbroken.2]

theorem pieces_eq_nil_iff : pieces newline text = [] ↔ text = [] := by
  cases text with
  | nil => exact ⟨fun _ => rfl, fun _ => rfl⟩
  | cons char text =>
      refine ⟨?_, fun equal => nomatch equal⟩
      intro equal
      rw [pieces] at equal
      split at equal
      · cases equal
      · split at equal <;> cases equal

/-- A text that ends with a line break falls into pieces of its own. -/
theorem pieces_append (ends : front = [] ∨ front.getLast? = some newline) :
    pieces newline (front ++ text) = pieces newline front ++ pieces newline text := by
  induction front with
  | nil => rfl
  | cons char front induction =>
      have ends : (char :: front).getLast? = some newline := by
        rcases ends with equal | ends
        · cases equal
        · exact ends
      rw [List.cons_append]
      by_cases isNewline : char = newline
      · subst isNewline
        have rest : front = [] ∨ front.getLast? = some char := by
          cases front with
          | nil => exact .inl rfl
          | cons next front => exact .inr ends
        rw [pieces_cons_newline, pieces_cons_newline, induction rest, List.cons_append]
      · cases front with
        | nil =>
            rw [List.getLast?_singleton, Option.some.injEq] at ends
            exact absurd ends isNewline
        | cons next front =>
            rw [pieces_cons_ne isNewline, pieces_cons_ne isNewline, induction (.inr ends)]
            cases found : pieces newline (next :: front) with
            | nil => cases pieces_eq_nil_iff.mp found
            | cons piece others => rfl

/-- A text that ends with a line break has as many lines as line breaks. -/
theorem length_pieces (ends : text = [] ∨ text.getLast? = some newline) :
    (pieces newline text).length = text.count newline := by
  induction text with
  | nil => rfl
  | cons char text induction =>
      have last : (char :: text).getLast? = some newline := by
        rcases ends with equal | last
        · cases equal
        · exact last
      cases text with
      | nil =>
          rw [List.getLast?_singleton, Option.some.injEq] at last
          subst last
          rw [pieces_cons_newline, List.count_cons_self]
          rfl
      | cons next text =>
          have rest := induction (.inr last)
          by_cases isNewline : char = newline
          · subst isNewline
            rw [pieces_cons_newline, List.length_cons, rest, List.count_cons_self]
          · rw [pieces_cons_ne isNewline, List.count_cons_of_ne isNewline, ← rest]
            cases found : pieces newline (next :: text) with
            | nil => cases pieces_eq_nil_iff.mp found
            | cons piece others => rfl

theorem pieces_spec (text : List α) : Pieces newline (pieces newline text) := by
  induction text with
  | nil => exact .nil
  | cons char text induction =>
      by_cases isNewline : char = newline
      · subst isNewline
        rw [pieces_cons_newline]
        exact .cons [] List.not_mem_nil induction
      · rw [pieces_cons_ne isNewline]
        have other : ∀ {line : List α}, newline ∉ line → newline ∉ char :: line :=
          fun unbroken => List.not_mem_cons_of_ne_of_not_mem (Ne.symm isNewline) unbroken
        cases found : pieces newline text with
        | nil => exact .last [char] (List.cons_ne_nil _ _) (other List.not_mem_nil)
        | cons piece others =>
            rw [found] at induction
            cases induction with
            | last _ nonempty unbroken =>
                exact .last (char :: piece) (List.cons_ne_nil _ _) (other unbroken)
            | cons line unbroken rest => exact .cons (char :: line) (other unbroken) rest

/-- A line has no line break in it. -/
theorem not_mem_of_mem_of {carriage : α} (member : line ∈ of newline carriage text) :
    newline ∉ line := by
  rcases List.mem_map.mp member with ⟨piece, inside, rfl⟩
  have chomped : ∀ {parts : List (List α)}, Pieces newline parts → piece ∈ parts →
      newline ∉ chomp newline carriage piece := by
    intro parts spec inside
    induction spec with
    | nil => cases inside
    | last line nonempty unbroken =>
        rw [List.mem_singleton] at inside
        subst inside
        have unended : piece.getLast? ≠ some newline := fun last =>
          unbroken (List.mem_of_getLast? last)
        rw [chomp, if_neg unended]
        exact unbroken
    | cons line unbroken rest induction =>
        rcases List.mem_cons.mp inside with rfl | inside
        · rw [chomp, if_pos List.getLast?_concat, List.dropLast_concat]
          split
          · exact fun member => unbroken ((List.dropLast_sublist _).subset member)
          · exact unbroken
        · exact induction inside
  exact chomped (pieces_spec text) inside

/-- What is written on lines is read back from the text that they make up. -/
theorem of_flatMap {β : Type*} {carriage : α} (line : β → List α) (written : List β)
    (unbroken : ∀ item ∈ written, newline ∉ line item)
    (ends : ∀ item ∈ written, (line item).getLast? ≠ some carriage) :
    of newline carriage (written.flatMap fun item => line item ++ [newline]) =
      written.map line := by
  induction written with
  | nil => rfl
  | cons item written induction =>
      rw [List.forall_mem_cons] at unbroken ends
      have rest := induction unbroken.2 ends.2
      rw [of] at rest
      rw [List.flatMap_cons, List.append_assoc, List.singleton_append, of,
        pieces_line unbroken.1, List.map_cons, chomp_line ends.1, rest, List.map_cons]

theorem Pieces.pieces_flatten (spec : Pieces newline parts) :
    pieces newline parts.flatten = parts := by
  induction spec with
  | nil => rfl
  | last line nonempty unbroken =>
      rw [List.flatten_singleton]
      exact pieces_last nonempty unbroken
  | cons line unbroken rest induction =>
      rw [List.flatten_cons, List.append_assoc, List.singleton_append, pieces_line unbroken,
        induction]

end RustyDhcp.Lines
