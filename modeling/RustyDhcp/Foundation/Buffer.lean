import RustyDhcp.Foundation.Checked

/-! # Writing into a buffer

A buffer keeps its length. What is written one piece behind the other is the
beginning of the buffer, whatever it held before. -/

namespace RustyDhcp.Checked

/-- `buffer[start..stop].copy_from_slice(source)` -/
def copyInto (buffer : List α) (start stop : Nat) (source : List α) : Checked (List α) :=
  if start ≤ stop ∧ stop ≤ buffer.length then
    if source.length = stop - start then
      .ok (buffer.take start ++ (source ++ buffer.drop stop))
    else .error .lengthMismatch
  else .error .indexOutOfBounds

/-- `buffer[position] = value` -/
def put (buffer : List α) (position : Nat) (value : α) : Checked (List α) :=
  if position < buffer.length then .ok (buffer.set position value) else .error .indexOutOfBounds

/-- Change `buffer[start..]`. -/
def updateFrom (buffer : List α) (start : Nat) (update : List α → Checked (List α)) :
    Checked (List α) := do
  let (front, back) ← splitAt buffer start
  return front ++ (← update back)

/-- Change what `buffer.get_mut(start..stop)` is, if it is something. -/
def updateRange (buffer : List α) (start stop : Nat) (update : List α → Checked (List α)) :
    Checked (List α) :=
  if start ≤ stop ∧ stop ≤ buffer.length then do
    let range ← update ((buffer.drop start).take (stop - start))
    return buffer.take start ++ (range ++ buffer.drop stop)
  else .ok buffer

variable {written rest source : List α} {start stop : Nat} {update : List α → Checked (List α)}

theorem copyInto_append (begins : start = written.length) (ends : stop = start + source.length)
    (room : source.length ≤ rest.length) : copyInto (written ++ rest) start stop source =
      .ok (written ++ source ++ rest.drop source.length) := by
  have inside : start ≤ stop ∧ stop ≤ (written ++ rest).length := by
    rw [List.length_append]
    omega
  have exact : source.length = stop - start := by omega
  rw [copyInto, if_pos inside, if_pos exact, ends, begins, List.take_left,
    List.drop_length_add_append, List.append_assoc]

theorem copyInto_front {out : List α} (ends : stop = source.length) (room : stop ≤ out.length) :
    copyInto out 0 stop source = .ok (source ++ out.drop stop) := by
  have stops : stop = 0 + source.length := by omega
  have copied : copyInto ([] ++ out) 0 stop source = .ok ([] ++ source ++ out.drop source.length) :=
    copyInto_append rfl stops (by omega)
  rw [← ends] at copied
  exact copied

/-- Writing the next piece of a buffer of which the pieces before are written. -/
theorem copyInto_drop {buffer : List α} (begins : written.length = start)
    (ends : stop = start + source.length) (room : stop ≤ buffer.length) :
    copyInto (written ++ buffer.drop start) start stop source =
      .ok (written ++ source ++ buffer.drop stop) := by
  rw [copyInto_append begins.symm ends, List.drop_drop, ends]
  rw [List.length_drop]
  omega

theorem updateFrom_append (begins : start = written.length) :
    updateFrom (written ++ rest) start update = (do return written ++ (← update rest)) := by
  have inside : start ≤ (written ++ rest).length := by
    rw [List.length_append]
    omega
  rw [updateFrom, splitAt_eq_ok inside, begins, List.take_left, List.drop_left]
  rfl

theorem updateRange_append {count : Nat} (begins : start = written.length)
    (ends : stop = start + count) (room : count ≤ rest.length) :
    updateRange (written ++ rest) start stop update =
      (do return written ++ (← update (rest.take count)) ++ rest.drop count) := by
  have inside : start ≤ stop ∧ stop ≤ (written ++ rest).length := by
    rw [List.length_append]
    omega
  have length : stop - start = count := by omega
  rw [updateRange, if_pos inside, length, ends, begins, List.take_left, List.drop_left,
    List.drop_length_add_append]
  simp only [List.append_assoc]

/-- Writing a single value behind what is written. -/
theorem updateRange_put (begins : start = written.length) (room : 0 < rest.length) (value : α) :
    updateRange (written ++ rest) start (start + 1) (fun range => put range 0 value) =
      .ok (written ++ [value] ++ rest.drop 1) := by
  cases rest with
  | nil => exact absurd room (Nat.lt_irrefl 0)
  | cons old rest =>
      rw [updateRange_append begins rfl room]
      rfl

/-- Overwriting a piece of the buffer with one value. -/
theorem updateRange_fill {count : Nat} (begins : start = written.length)
    (ends : stop = start + count) (room : count ≤ rest.length) (value : α) :
    updateRange (written ++ rest) start stop
        (fun range => .ok (List.replicate range.length value)) =
      .ok (written ++ List.replicate count value ++ rest.drop count) := by
  rw [updateRange_append begins ends room, List.length_take, Nat.min_eq_left room]
  rfl

end RustyDhcp.Checked
