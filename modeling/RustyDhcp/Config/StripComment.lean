import RustyDhcp.Config.Parse
import RustyDhcp.Readers
import Mathlib.Data.List.Chain

/-! # Where a value ends

A value ends in front of whitespace with a `#` behind it. The reader looks for a
blank and a `#` in the whole value, comment included, and only where there are
none for a tab, which has to be the first of the value. -/

namespace RustyDhcp.Config

/-- Whitespace is not followed by a `#`. -/
def Glued (first second : Char) : Prop := isWhitespace first = true → second ≠ '#'

/-- A blank is not followed by a `#`. -/
def Unblanked (first second : Char) : Prop := first = ' ' → second ≠ '#'

variable {before behind text value comment blanks : Text} {char : Char}

/-! ## Searching -/

theorem find_char_append (absent : char ∉ before) :
    find [char] (before ++ text) = (find [char] text).map (· + before.length) := by
  induction before with
  | nil => simp
  | cons head before induction =>
      rw [List.mem_cons, not_or] at absent
      have other : [char].isPrefixOf (head :: (before ++ text)) = false := by
        simp [List.isPrefixOf, absent.1]
      rw [List.cons_append, find, other, if_neg (by decide), induction absent.2, Option.map_map]
      congr 1

theorem find_char_cons (char : Char) (text : Text) : find [char] (char :: text) = some 0 := by
  simp [find, List.isPrefixOf]

theorem find_char_none (absent : char ∉ text) : find [char] text = none := by
  have searched : find [char] (text ++ []) = (find [char] []).map (· + text.length) :=
    find_char_append absent
  rw [List.append_nil] at searched
  exact searched

theorem not_prefix_of_unblanked {rest : Text} (clean : ∀ next ∈ rest.head?, Unblanked char next) :
    [' ', '#'].isPrefixOf (char :: rest) = false := by
  cases rest with
  | nil => simp [List.isPrefixOf]
  | cons next rest =>
      have apart : Unblanked char next := clean next rfl
      by_cases blank : char = ' '
      · simp [List.isPrefixOf, Ne.symm (apart blank)]
      · simp [List.isPrefixOf, Ne.symm blank]

/-- The search passes over a text in which no blank is followed by a `#`. -/
theorem find_blank_append (clean : (before ++ text.take 1).IsChain Unblanked) :
    find [' ', '#'] (before ++ text) = (find [' ', '#'] text).map (· + before.length) := by
  induction before with
  | nil => simp
  | cons head before induction =>
      rw [List.cons_append, List.isChain_cons] at clean
      have sameHead : (before ++ text).head? = (before ++ text.take 1).head? := by
        cases before <;> cases text <;> rfl
      rw [← sameHead] at clean
      rw [List.cons_append, find, not_prefix_of_unblanked clean.1, if_neg (by decide),
        induction clean.2, Option.map_map]
      congr 1

theorem find_blank_none (clean : text.IsChain Unblanked) : find [' ', '#'] text = none := by
  have searched : find [' ', '#'] (text ++ []) = (find [' ', '#'] []).map (· + text.length) :=
    find_blank_append (by rw [List.take_nil, List.append_nil]; exact clean)
  rw [List.append_nil] at searched
  exact searched

theorem find_blank_cons (text : Text) : find [' ', '#'] (' ' :: '#' :: text) = some 0 := by
  simp [find, List.isPrefixOf]

theorem find_blank_some (unclean : ¬text.IsChain Unblanked) :
    ∃ position, find [' ', '#'] text = some position := by
  induction text with
  | nil => exact absurd List.IsChain.nil unclean
  | cons head text induction =>
      by_cases found : [' ', '#'].isPrefixOf (head :: text) = true
      · exact ⟨0, if_pos found⟩
      · have clean : ∀ next ∈ text.head?, Unblanked head next := by
          intro next same blank hash
          cases text with
          | nil => cases same
          | cons second text =>
              cases same
              subst blank hash
              exact found (by simp [List.isPrefixOf])
        have rest : ¬text.IsChain Unblanked := fun chain =>
          unclean (List.isChain_cons.mpr ⟨clean, chain⟩)
        rcases induction rest with ⟨position, inside⟩
        exact ⟨position + 1, by rw [find, if_neg found, inside]; rfl⟩

/-! ## Chains -/

theorem Glued.unblanked {first second : Char} (glued : Glued first second) :
    Unblanked first second := by
  rintro rfl
  exact glued (by decide)

theorem isChain_of_no_hash {relation : Char → Char → Prop} (noHash : '#' ∉ text)
    (related : ∀ first second, second ≠ '#' → relation first second) :
    text.IsChain relation := by
  induction text with
  | nil => exact .nil
  | cons head text induction =>
      rw [List.mem_cons, not_or] at noHash
      refine List.isChain_cons.mpr ⟨?_, induction noHash.2⟩
      intro next member
      refine related head next ?_
      rintro rfl
      exact noHash.2 (List.mem_of_mem_head? member)

/-- Text without a `#` can be put behind anything. -/
theorem isChain_append_of_no_hash {relation : Char → Char → Prop} (noHash : '#' ∉ behind)
    (related : ∀ first second, second ≠ '#' → relation first second) :
    (before ++ behind).IsChain relation ↔ before.IsChain relation := by
  rw [List.isChain_append]
  constructor
  · exact fun chain => chain.1
  · intro chain
    refine ⟨chain, isChain_of_no_hash noHash related, ?_⟩
    intro first _ second member
    refine related first second ?_
    rintro rfl
    exact noHash (List.mem_of_mem_head? member)

/-! ## Where the reader strips -/

/-- The first tab begins no comment if it lies in text where no tab does. -/
theorem tab_no_comment (clean : before.IsChain Glued) (tab : '\t' ∈ before)
    (next : behind.head? ≠ some '#') :
    ((find ['\t'] (before ++ behind)).filter fun tab =>
      ((before ++ behind).drop (tab + 1)).head? = some '#') = none := by
  rcases List.eq_append_cons_of_mem tab with ⟨front, back, rfl, first⟩
  rw [List.append_assoc, List.cons_append, find_char_append first, find_char_cons]
  have follows : (front ++ '\t' :: (back ++ behind)).drop (0 + front.length + 1) =
      back ++ behind := by
    rw [Nat.zero_add, List.drop_length_add_append]
    rfl
  have noHash : (back ++ behind).head? ≠ some '#' := by
    cases back with
    | nil => exact next
    | cons char back =>
        intro hash
        cases hash
        rw [List.isChain_append, List.isChain_cons] at clean
        exact clean.2.1.1 '#' rfl (by decide) rfl
  rw [Option.map_some, Option.filter_some, follows, if_neg (by simpa using noHash)]

theorem stripComment_of_none (none : commentStart value = none) : stripComment value = value := by
  rw [stripComment, none]

theorem stripComment_of_blank {position : Nat} (found : find [' ', '#'] value = some position) :
    stripComment value = trimEnd (value.take position) := by
  have starts : commentStart value = some position := by
    change (find [' ', '#'] value).or _ = some position
    rw [found, Option.some_or]
  rw [stripComment, starts]

/-- Only where no blank is followed by a `#`, the first tab counts. -/
theorem commentStart_of_no_blank (absent : find [' ', '#'] value = none) :
    commentStart value = (find ['\t'] value).filter fun tab =>
      (value.drop (tab + 1)).head? = some '#' := by
  change (find [' ', '#'] value).or _ = _
  rw [absent, Option.none_or]

theorem stripComment_of_tab (absent : find [' ', '#'] (before ++ '\t' :: '#' :: behind) = none)
    (noTab : '\t' ∉ before) :
    stripComment (before ++ '\t' :: '#' :: behind) = trimEnd before := by
  have starts : commentStart (before ++ '\t' :: '#' :: behind) = some before.length := by
    rw [commentStart_of_no_blank absent, find_char_append noTab, find_char_cons, Option.map_some,
      Nat.zero_add, Option.filter_some, List.drop_length_add_append]
    rfl
  rw [stripComment, starts]
  dsimp only
  rw [List.take_left]

/-- A value without a comment stays as it is. -/
theorem stripComment_glued (clean : value.IsChain Glued) : stripComment value = value := by
  apply stripComment_of_none
  rw [commentStart_of_no_blank (find_blank_none (clean.imp fun _ _ => Glued.unblanked))]
  by_cases tab : '\t' ∈ value
  · have next : ([] : Text).head? ≠ some '#' := by decide
    have filtered := tab_no_comment clean tab next
    rw [List.append_nil] at filtered
    exact filtered
  · rw [find_char_none tab]
    rfl

/-! ## A value, whitespace and a comment -/

structure Commented (value blanks : Text) : Prop where
  nonempty : value ≠ []
  trimmed : trim value = value
  glued : value.IsChain Glued
  someBlank : blanks ≠ []
  onlyBlanks : ∀ char ∈ blanks, char = ' ' ∨ char = '\t'

/-- The reader finds the comment: it is set off by a blank, or by the only tab
while no blank comes before a `#` in the comment. -/
def Stripped (value blanks comment : Text) : Prop :=
  blanks.getLast? = some ' ' ∨
    comment.IsChain Unblanked ∧ '\t' ∉ value ∧ '\t' ∉ blanks.dropLast

theorem Commented.no_hash (commented : Commented value blanks) : '#' ∉ blanks := by
  intro member
  rcases commented.onlyBlanks '#' member with equal | equal <;> cases equal

theorem Commented.whitespace (commented : Commented value blanks) :
    ∀ char ∈ blanks, isWhitespace char = true := by
  intro char member
  rcases commented.onlyBlanks char member with rfl | rfl <;> decide

theorem Commented.glued_append (commented : Commented value blanks) :
    (value ++ blanks).IsChain Glued := by
  have related : ∀ first second, second ≠ '#' → Glued first second := fun _ _ other _ => other
  exact (isChain_append_of_no_hash commented.no_hash related).mpr commented.glued

theorem Commented.unblanked_append (commented : Commented value blanks) :
    (value ++ blanks).IsChain Unblanked :=
  commented.glued_append.imp fun _ _ => Glued.unblanked

/-- Behind a tab, a `#` follows no blank. -/
theorem Commented.unblanked_hash {front : Text} (commented : Commented value (front ++ ['\t']))
    (clean : comment.IsChain Unblanked) :
    (value ++ (front ++ ['\t']) ++ '#' :: comment).IsChain Unblanked := by
  refine List.isChain_append.mpr ⟨commented.unblanked_append, List.isChain_cons.mpr ⟨?_, clean⟩, ?_⟩
  · intro next _ blank
    cases blank
  · intro last member next _ blank
    rw [← List.append_assoc, List.getLast?_concat] at member
    cases member
    cases blank

theorem Commented.trimEnd_append {front back : Text} (commented : Commented value blanks)
    (split : blanks = front ++ back) : trimEnd (value ++ front) = value := by
  have whitespace : ∀ char ∈ front, isWhitespace char = true := by
    intro char member
    apply commented.whitespace
    rw [split]
    exact List.mem_append_left _ member
  rw [RustyDhcp.trimEnd_append _ whitespace, trimEnd_of_trim commented.trimmed]

theorem Commented.exists_last (commented : Commented value blanks) :
    ∃ front last, blanks = front ++ [last] ∧ (last = ' ' ∨ last = '\t') := by
  refine ⟨blanks.dropLast, blanks.getLast commented.someBlank,
    (List.dropLast_append_getLast commented.someBlank).symm, ?_⟩
  exact commented.onlyBlanks _ (List.getLast_mem _)

/-- A comment that the reader finds is stripped, and nothing else. -/
theorem stripComment_stripped (commented : Commented value blanks)
    (stripped : Stripped value blanks comment) :
    stripComment (value ++ blanks ++ '#' :: comment) = value := by
  rcases commented.exists_last with ⟨front, last, rfl, rfl | rfl⟩
  · have whole : value ++ (front ++ [' ']) ++ '#' :: comment =
        value ++ front ++ ' ' :: '#' :: comment := by simp
    have clean : (value ++ front ++ (' ' :: '#' :: comment).take 1).IsChain Unblanked := by
      rw [List.append_assoc]
      exact commented.unblanked_append
    have found : find [' ', '#'] (value ++ front ++ ' ' :: '#' :: comment) =
        some (value ++ front).length := by
      rw [find_blank_append clean, find_blank_cons, Option.map_some, Nat.zero_add]
    rw [whole, stripComment_of_blank found, List.take_left]
    exact commented.trimEnd_append rfl
  · rcases stripped with blank | ⟨clean, noTab, noTab'⟩
    · rw [List.getLast?_concat] at blank
      cases blank
    · rw [List.dropLast_concat] at noTab'
      have absent := find_blank_none (commented.unblanked_hash clean)
      have whole : value ++ (front ++ ['\t']) ++ '#' :: comment =
          value ++ front ++ '\t' :: '#' :: comment := by simp
      have noTabs : '\t' ∉ value ++ front := by
        rw [List.mem_append, not_or]
        exact ⟨noTab, noTab'⟩
      rw [whole] at absent
      rw [whole, stripComment_of_tab absent noTabs]
      exact commented.trimEnd_append rfl

/-- A tab in front of the last one hides the comment. -/
theorem stripComment_two_tabs {front : Text} (commented : Commented value (front ++ ['\t']))
    (clean : comment.IsChain Unblanked) (tab : '\t' ∈ value ++ front) :
    stripComment (value ++ (front ++ ['\t']) ++ '#' :: comment) =
      value ++ (front ++ ['\t']) ++ '#' :: comment := by
  have glued : (value ++ front).IsChain Glued := by
    have whole := commented.glued_append
    rw [← List.append_assoc] at whole
    exact whole.left_of_append
  have whole : value ++ (front ++ ['\t']) ++ '#' :: comment =
      value ++ front ++ '\t' :: '#' :: comment := by simp
  apply stripComment_of_none
  rw [commentStart_of_no_blank (find_blank_none (commented.unblanked_hash clean)), whole]
  exact tab_no_comment glued tab (by simp)

/-- A blank and a `#` in the comment are found in its place. -/
theorem prefix_stripComment_inner {front : Text} (commented : Commented value (front ++ ['\t']))
    (unclean : ¬comment.IsChain Unblanked) :
    value ++ (front ++ ['\t']) ++ ['#'] <+:
      stripComment (value ++ (front ++ ['\t']) ++ '#' :: comment) := by
  rcases find_blank_some unclean with ⟨position, inside⟩
  have whole : value ++ (front ++ ['\t']) ++ '#' :: comment =
      value ++ (front ++ ['\t']) ++ ['#'] ++ comment := by simp
  have apart : (value ++ (front ++ ['\t']) ++ ['#'] ++ comment.take 1).IsChain Unblanked := by
    rw [List.append_assoc _ ['#']]
    apply commented.unblanked_hash
    cases comment with
    | nil => exact .nil
    | cons char comment => exact .singleton char
  have found : find [' ', '#'] (value ++ (front ++ ['\t']) ++ ['#'] ++ comment) =
      some ((value ++ (front ++ ['\t']) ++ ['#']).length + position) := by
    rw [find_blank_append apart, inside, Option.map_some, Nat.add_comm]
  rw [whole, stripComment_of_blank found, List.take_length_add_append, List.append_assoc _ ['#'],
    List.singleton_append, trimEnd_cons _ _ (by decide)]
  exact ⟨trimEnd (comment.take position), by simp⟩

/-- A comment that the reader does not find stays, at least with its `#`. -/
theorem prefix_stripComment (commented : Commented value blanks)
    (missed : ¬Stripped value blanks comment) :
    value ++ blanks ++ ['#'] <+: stripComment (value ++ blanks ++ '#' :: comment) := by
  rcases commented.exists_last with ⟨front, last, rfl, rfl | rfl⟩
  · exact absurd (.inl List.getLast?_concat) missed
  · by_cases clean : comment.IsChain Unblanked
    · have tab : '\t' ∈ value ++ front := by
        by_contra absent
        rw [List.mem_append, not_or] at absent
        exact missed (.inr ⟨clean, absent.1, by rw [List.dropLast_concat]; exact absent.2⟩)
      rw [stripComment_two_tabs commented clean tab]
      exact ⟨comment, by simp⟩
    · exact prefix_stripComment_inner commented clean

end RustyDhcp.Config
