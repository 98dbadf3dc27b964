/-! # Round-robin scans

A scan of `count` offsets starts behind a cursor and advances it, modulo
`count`, until it meets an offset that is accepted or has used up its rounds. -/

namespace RustyDhcp.RoundRobin

def scan (count : Nat) (accept : Nat → Bool) : (rounds cursor : Nat) → Nat × Option Nat
  | 0, cursor => (cursor, none)
  | rounds + 1, cursor =>
      let next := (cursor + 1) % count
      if accept next then (next, some next) else scan count accept rounds next

/-- The offset that the scan tries in its `step`-th round. -/
def visited (count cursor step : Nat) : Nat := (cursor + step) % count

/-- `offset` is the first accepted one in the cyclic order behind the cursor. -/
def IsFirst (count : Nat) (accept : Nat → Bool) (rounds cursor offset : Nat) : Prop :=
  ∃ step, 1 ≤ step ∧ step ≤ rounds ∧ offset = visited count cursor step ∧
    accept offset = true ∧
    ∀ earlier, 1 ≤ earlier → earlier < step →
      accept (visited count cursor earlier) = false

theorem visited_advance (count cursor step : Nat) :
    visited count ((cursor + 1) % count) step = visited count cursor (step + 1) := by
  simp only [visited, Nat.mod_add_mod]
  congr 1
  omega

/-- What a scan returns is the first accepted offset, and the cursor stops
there; a scan that returns nothing has tried every offset in reach. -/
theorem scan_spec (count : Nat) (accept : Nat → Bool) (rounds cursor : Nat) :
    match scan count accept rounds cursor with
    | (last, some offset) => last = offset ∧ IsFirst count accept rounds cursor offset
    | (last, none) =>
        (last = if rounds = 0 then cursor else visited count cursor rounds) ∧
          ∀ step, 1 ≤ step → step ≤ rounds →
            accept (visited count cursor step) = false := by
  induction rounds generalizing cursor with
  | zero =>
      refine ⟨rfl, ?_⟩
      intro step positive bound
      omega
  | succ rounds induction =>
      have head : visited count cursor 1 = (cursor + 1) % count := rfl
      rw [scan]
      cases accepted : accept ((cursor + 1) % count) with
      | true =>
          refine ⟨rfl, 1, by omega, by omega, rfl, accepted, ?_⟩
          intro earlier positive before
          omega
      | false =>
          have rest := induction ((cursor + 1) % count)
          simp only [visited_advance] at rest
          simp only [Bool.false_eq_true, if_false]
          rcases result : scan count accept rounds ((cursor + 1) % count) with
            ⟨last, _ | offset⟩
          · rw [result] at rest
            refine ⟨?_, ?_⟩
            · rw [if_neg (Nat.succ_ne_zero rounds), rest.1]
              split
              · rename_i zero
                rw [zero, head]
              · rfl
            · intro step positive bound
              by_cases first : step = 1
              · rw [first, head, accepted]
              · have shifted := rest.2 (step - 1) (by omega) (by omega)
                rwa [Nat.sub_add_cancel positive] at shifted
          · rw [result] at rest
            rcases rest with ⟨same, step, positive, bound, reached, passes, before⟩
            rw [visited_advance] at reached
            refine ⟨same, step + 1, by omega, by omega, reached, passes, ?_⟩
            intro earlier earlierPositive earlierBound
            by_cases first : earlier = 1
            · rw [first, head, accepted]
            · have shifted := before (earlier - 1) (by omega) (by omega)
              rwa [visited_advance, Nat.sub_add_cancel earlierPositive] at shifted

/-- A full turn visits every offset. -/
theorem exists_visited {count cursor offset : Nat} (cursorBound : cursor < count)
    (offsetBound : offset < count) :
    ∃ step, 1 ≤ step ∧ step ≤ count ∧ visited count cursor step = offset := by
  by_cases ahead : cursor < offset
  · refine ⟨offset - cursor, by omega, by omega, ?_⟩
    rw [visited, show cursor + (offset - cursor) = offset by omega,
      Nat.mod_eq_of_lt offsetBound]
  · refine ⟨offset + count - cursor, by omega, by omega, ?_⟩
    rw [visited, show cursor + (offset + count - cursor) = offset + count by omega,
      Nat.add_mod_right, Nat.mod_eq_of_lt offsetBound]

section

variable {count cursor offset : Nat} {accept : Nat → Bool}

theorem IsFirst.accepted (first : IsFirst count accept rounds cursor offset) :
    accept offset = true := by
  rcases first with ⟨_, _, _, _, passes, _⟩
  exact passes

/-- A full turn only tries offsets below `count`. -/
theorem IsFirst.lt (first : IsFirst count accept count cursor offset) : offset < count := by
  rcases first with ⟨step, one, bound, reached, _⟩
  rw [reached]
  exact Nat.mod_lt _ (by omega)

/-- A full turn finds the first accepted offset, or there is none and the
cursor is back where it was. -/
theorem scan_turn (cursorBound : cursor < count ∨ count = 0) :
    (∃ offset, IsFirst count accept count cursor offset ∧
      scan count accept count cursor = (offset, some offset)) ∨
    (∀ offset, offset < count → accept offset = false) ∧
      scan count accept count cursor = (cursor, none) := by
  have spec := scan_spec count accept count cursor
  rcases scanned : scan count accept count cursor with ⟨last, _ | offset⟩
  · rw [scanned] at spec
    refine .inr ⟨?_, ?_⟩
    · intro offset offsetBound
      rcases exists_visited (show cursor < count by omega) offsetBound with
        ⟨step, positive, bound, reached⟩
      rw [← reached]
      exact spec.2 step positive bound
    · rw [spec.1]
      split
      · rfl
      · rw [visited, Nat.add_mod_right, Nat.mod_eq_of_lt (by omega)]
  · rw [scanned] at spec
    exact .inl ⟨offset, spec.2, by rw [spec.1]⟩

/-- The first accepted offset is what a scan finds. -/
theorem scan_of_isFirst (first : IsFirst count accept rounds cursor offset) :
    scan count accept rounds cursor = (offset, some offset) := by
  have spec := scan_spec count accept rounds cursor
  rcases first with ⟨step, positive, bound, reached, passes, before⟩
  rcases scanned : scan count accept rounds cursor with ⟨last, _ | other⟩
  · rw [scanned] at spec
    have fails := spec.2 step positive bound
    rw [← reached, passes] at fails
    cases fails
  · rw [scanned] at spec
    rcases spec with ⟨same, otherStep, otherPositive, _, otherReached, otherPasses, otherBefore⟩
    rcases Nat.lt_trichotomy step otherStep with earlier | equal | later
    · have fails := otherBefore step positive earlier
      rw [← reached, passes] at fails
      cases fails
    · rw [same, otherReached, reached, equal]
    · have fails := before otherStep otherPositive later
      rw [← otherReached, otherPasses] at fails
      cases fails

/-- A full turn that nothing stops leaves the cursor where it was. -/
theorem scan_of_rejected (cursorBound : cursor < count ∨ count = 0)
    (rejected : ∀ offset, offset < count → accept offset = false) :
    scan count accept count cursor = (cursor, none) := by
  rcases @scan_turn count cursor accept cursorBound with ⟨offset, first, _⟩ | ⟨_, scanned⟩
  · have fails := rejected offset first.lt
    rw [first.accepted] at fails
    cases fails
  · exact scanned

/-- There is only one first offset. -/
theorem IsFirst.unique {other : Nat} (first : IsFirst count accept rounds cursor offset)
    (also : IsFirst count accept rounds cursor other) : offset = other := by
  have found := scan_of_isFirst first
  rw [scan_of_isFirst also] at found
  cases found
  rfl

/-- What a full turn from `cursor` finds and where it leaves the cursor: it is
complete and it is fair. -/
structure Turn (count : Nat) (accept : Nat → Bool) (cursor last : Nat)
    (found : Option Nat) : Prop where
  first : ∀ offset, found = some offset ↔ IsFirst count accept count cursor offset
  stops : ∀ offset, found = some offset → last = offset
  nothing : found = none ↔ ∀ offset, offset < count → accept offset = false
  rests : found = none → last = cursor

theorem turn_of_isFirst (first : IsFirst count accept count cursor offset) :
    Turn count accept cursor offset (some offset) where
  first other := by
    constructor
    · intro same
      cases same
      exact first
    · intro also
      rw [first.unique also]
  stops other same := Option.some.inj same
  nothing := by
    refine iff_of_false (Option.some_ne_none _) ?_
    intro rejected
    have fails := rejected offset first.lt
    rw [first.accepted] at fails
    cases fails
  rests missing := absurd missing (Option.some_ne_none _)

theorem turn_of_rejected (rejected : ∀ offset, offset < count → accept offset = false) :
    Turn count accept cursor cursor none where
  first other := by
    refine iff_of_false (Option.some_ne_none _).symm ?_
    intro first
    have fails := rejected other first.lt
    rw [first.accepted] at fails
    cases fails
  stops other missing := absurd missing.symm (Option.some_ne_none _)
  nothing := iff_of_true rfl rejected
  rests _ := rfl

end

end RustyDhcp.RoundRobin
