import RustyDhcp.Foundation.Calendar
import RustyDhcp.Foundation.Checked

/-! # The date of a day

The server stamps what it logs with the date of the day, counted from the first
of January 1970. -/

namespace RustyDhcp

/-- The values of a 64-bit signed integer. -/
def InI64 (value : Int) : Prop := -2 ^ 63 ≤ value ∧ value < 2 ^ 63

instance (value : Int) : Decidable (InI64 value) := inferInstanceAs (Decidable (_ ∧ _))

/-- The result of an operation on `i64`s. -/
def i64 (value : Int) : Checked Int :=
  if InI64 value then .ok value else .error .arithmeticOverflow

/-- The result of an operation on `u64`s that does not subtract. -/
def u64 (value : Nat) : Checked Nat :=
  if value < 2 ^ 64 then .ok value else .error .arithmeticOverflow

/-- `value as u64`, for an `i64`. -/
def asU64 (value : Int) : Nat := (value % 2 ^ 64).toNat

/-- `value as i64`, for a `u64`. -/
def asI64 (value : Nat) : Int := Int.bmod value (2 ^ 64)

/-- `value as u32`, for a `u64`. -/
def asU32 (value : Nat) : Nat := value % 2 ^ 32

def ymdFromDays (z : Int) : Checked (Int × Nat × Nat) := do
  let z ← i64 (z + 719468)
  let era := (← (if 0 ≤ z then .ok z else i64 (z - 146096) : Checked Int)).tdiv 146097
  let doe := asU64 (← i64 (z - (← i64 (era * 146097))))
  let days ← Checked.sub (← u64 ((← Checked.sub doe (doe / 1460)) + doe / 36524)) (doe / 146096)
  let yoe := days / 365
  let y ← i64 (asI64 yoe + (← i64 (era * 400)))
  let before ← Checked.sub (← u64 ((← u64 (365 * yoe)) + yoe / 4)) (yoe / 100)
  let doy ← Checked.sub doe before
  let mp := (← u64 ((← u64 (5 * doy)) + 2)) / 153
  let first := (← u64 ((← u64 (153 * mp)) + 2)) / 5
  let d := asU32 (← u64 ((← Checked.sub doy first) + 1))
  let m := asU32 (← (if mp < 10 then u64 (mp + 3) else Checked.sub mp 9 : Checked Nat))
  return (← (if m ≤ 2 then i64 (y + 1) else .ok y : Checked Int), m, d)

variable {z value : Int} {count doe yoe : Nat}

theorem i64_eq_ok (inside : InI64 value) : i64 value = .ok value := if_pos inside

theorem u64_eq_ok (inside : count < 2 ^ 64) : u64 count = .ok count := if_pos inside

theorem asU64_eq (positive : 0 ≤ value) (inside : InI64 value) : asU64 value = value.toNat := by
  have bound := inside.2
  rw [asU64, Int.emod_eq_of_lt positive (by omega)]

theorem asI64_eq (inside : count < 2 ^ 63) : asI64 count = count := by
  apply Int.bmod_eq_of_le <;> omega

theorem asU32_eq (inside : count < 2 ^ 32) : asU32 count = count := Nat.mod_eq_of_lt inside

/-- The adjusted quotient rounds down, and not towards zero. -/
theorem era_eq (z : Int) :
    (if 0 ≤ z then z else z - 146096).tdiv 146097 = z / 146097 := by
  by_cases positive : 0 ≤ z
  · rw [if_pos positive, Int.tdiv_eq_ediv_of_nonneg positive]
  · rw [if_neg positive, ← Int.neg_neg (z - 146096), Int.neg_tdiv,
      Int.tdiv_eq_ediv_of_nonneg (by omega)]
    omega

/-! ## The years of an era -/

/-- The year of an era that a day of the era lies in. -/
def yearOfEra (doe : Nat) : Nat := (doe - doe / 1460 + doe / 36524 - doe / 146096) / 365

/-- The day of an era on which one of its years begins. -/
def yearStart (yoe : Nat) : Nat := 365 * yoe + yoe / 4 - yoe / 100

/-- The day of an era that follows one of its years. -/
def yearEnd (yoe : Nat) : Nat := yearStart yoe + Date.marchLength yoe

theorem yearOfEra_lt (inside : doe < 146097) : yearOfEra doe < 400 := by
  rw [yearOfEra]
  omega

theorem yearOfEra_mono {first second : Nat} (ordered : first ≤ second)
    (inside : second < 146097) : yearOfEra first ≤ yearOfEra second := by
  apply Nat.div_le_div_right
  omega

/-- A year of an era begins on the day after the year before. -/
theorem yearEnd_eq (inside : yoe < 399) : yearEnd yoe = yearStart (yoe + 1) := by
  rw [yearEnd, yearStart, yearStart, Date.marchLength]
  by_cases leap : Date.IsLeap (yoe + 1)
  · rw [if_pos leap]
    rw [Date.IsLeap] at leap
    omega
  · rw [if_neg leap]
    rw [Date.IsLeap] at leap
    omega

theorem yearEnd_last : yearEnd 399 = 146097 := rfl

theorem yearEnd_le (inside : yoe < 400) : yearEnd yoe ≤ 146097 := by
  by_cases last : yoe = 399
  · rw [last, yearEnd_last]
  · rw [yearEnd_eq (by omega), yearStart]
    omega

set_option maxRecDepth 4000 in
/-- The computed year is right on the first and on the last day of each year. -/
theorem yearOfEra_edges : ∀ yoe < 400,
    yearOfEra (yearStart yoe) = yoe ∧ yearOfEra (yearEnd yoe - 1) = yoe := by
  decide +kernel

theorem yearOfEra_eq (inside : yoe < 400) (starts : yearStart yoe ≤ doe)
    (ends : doe < yearEnd yoe) : yearOfEra doe = yoe := by
  have edges := yearOfEra_edges yoe inside
  have bound := yearEnd_le inside
  apply Nat.le_antisymm
  · calc yearOfEra doe ≤ yearOfEra (yearEnd yoe - 1) := yearOfEra_mono (by omega) (by omega)
      _ = yoe := edges.2
  · calc yoe = yearOfEra (yearStart yoe) := edges.1.symm
      _ ≤ yearOfEra doe := yearOfEra_mono starts (by omega)

/-- A day lies in the year that is computed for it. -/
theorem yearOfEra_spec (inside : doe < 146097) :
    yearStart (yearOfEra doe) ≤ doe ∧ doe < yearEnd (yearOfEra doe) := by
  have small := yearOfEra_lt inside
  constructor
  · by_contra early
    have positive : yearOfEra doe ≠ 0 := by
      intro zero
      rw [zero] at early
      exact early (Nat.zero_le doe)
    have previous := (yearOfEra_edges (yearOfEra doe - 1) (by omega)).2
    have ends : yearEnd (yearOfEra doe - 1) = yearStart (yearOfEra doe - 1 + 1) :=
      yearEnd_eq (by omega)
    rw [Nat.sub_add_cancel (by omega)] at ends
    have before : doe ≤ yearEnd (yearOfEra doe - 1) - 1 := by omega
    have bound : yearEnd (yearOfEra doe - 1) ≤ 146097 := yearEnd_le (by omega)
    have below := yearOfEra_mono before (by omega)
    omega
  · by_contra late
    by_cases last : yearOfEra doe = 399
    · rw [last, yearEnd_last] at late
      exact late inside
    · rw [yearEnd_eq (by omega)] at late
      have following := (yearOfEra_edges (yearOfEra doe + 1) (by omega)).1
      have behind : yearStart (yearOfEra doe + 1) ≤ doe := by omega
      have above := yearOfEra_mono behind inside
      omega

/-! ## The calendar -/

/-- The date of a day of an era. -/
def dateIn (era : Int) (doe : Nat) : Date :=
  .ofMarch (yearOfEra doe + era * 400) (doe - yearStart (yearOfEra doe))

/-- The date of a day, counted from the first of March of the year 0. -/
def dateOf (day : Int) : Date := dateIn (day / 146097) (day % 146097).toNat

variable {era : Int}

theorem marchLength_era (yoe : Nat) (era : Int) :
    Date.marchLength (yoe + era * 400) = Date.marchLength yoe := by
  have moved : (yoe : Int) + era * 400 + 1 = yoe + 1 + era * 400 := by omega
  rw [Date.marchLength, moved, Date.marchLength]
  congr 1
  exact propext (Date.isLeap_add_cycles _ era)

/-- A day that lies in a year of an era has the date that is as far from the
first of March of that year. -/
theorem dateIn_eq (inside : yoe < 400) (starts : yearStart yoe ≤ doe) (ends : doe < yearEnd yoe) :
    dateIn era doe = .ofMarch (yoe + era * 400) (doe - yearStart yoe) := by
  rw [dateIn, yearOfEra_eq inside starts ends]

theorem valid_dateIn (era : Int) (inside : doe < 146097) : (dateIn era doe).Valid := by
  have spec := yearOfEra_spec inside
  apply Date.valid_ofMarch
  rw [marchLength_era]
  rw [yearEnd] at spec
  omega

/-- The days of an era follow each other, and the eras do. -/
theorem next_dateIn (era : Int) (inside : doe < 146097) : (dateIn era doe).next =
    if doe + 1 < 146097 then dateIn era (doe + 1) else dateIn (era + 1) 0 := by
  have small := yearOfEra_lt inside
  have spec := yearOfEra_spec inside
  rw [dateIn]
  generalize yearOfEra doe = yoe at small spec
  have bound := yearEnd_le small
  have length : yearEnd yoe = yearStart yoe + Date.marchLength yoe := rfl
  rw [Date.next_ofMarch (by rw [marchLength_era]; omega), marchLength_era]
  by_cases within : doe + 1 < yearEnd yoe
  · rw [if_pos (by omega), if_pos (by omega), dateIn_eq small (by omega) within,
      Nat.sub_add_comm spec.1]
  · rw [if_neg (by omega)]
    by_cases last : yoe = 399
    · rw [last, yearEnd_last] at within
      have first : dateIn (era + 1) 0 = .ofMarch (((0 : Nat) : Int) + (era + 1) * 400) 0 :=
        dateIn_eq (by decide) (Nat.le_refl 0) (by decide)
      rw [last, if_neg within, first]
      congr 1
      omega
    · have follows : yearEnd yoe = yearStart (yoe + 1) := yearEnd_eq (by omega)
      have inside' : yoe + 1 < 400 := by omega
      have more : yearEnd (yoe + 1) ≤ 146097 := yearEnd_le (by omega)
      have long := Date.le_marchLength (yoe + 1 : Nat)
      have next : yearEnd (yoe + 1) = yearStart (yoe + 1) + Date.marchLength (yoe + 1 : Nat) := rfl
      rw [if_pos (by omega), dateIn_eq inside' (by omega) (by omega)]
      congr 1
      · omega
      · omega

theorem valid_dateOf (day : Int) : (dateOf day).Valid :=
  valid_dateIn _ (by omega)

theorem next_dateOf (day : Int) : (dateOf day).next = dateOf (day + 1) := by
  rw [dateOf, next_dateIn _ (by omega), dateOf]
  by_cases within : (day % 146097).toNat + 1 < 146097
  · have sameEra : (day + 1) / 146097 = day / 146097 := by omega
    have following : ((day + 1) % 146097).toNat = (day % 146097).toNat + 1 := by omega
    rw [if_pos within, sameEra, following]
  · have nextEra : (day + 1) / 146097 = day / 146097 + 1 := by omega
    have first : ((day + 1) % 146097).toNat = 0 := by omega
    rw [if_neg within, nextEra, first]

/-! ## The computation -/

theorem numerator_eq (low : -2 ^ 63 + 146096 ≤ z) (inside : InI64 z) :
    (if 0 ≤ z then .ok z else i64 (z - 146096)) =
      (.ok (if 0 ≤ z then z else z - 146096) : Checked Int) := by
  have bound := inside.2
  by_cases positive : 0 ≤ z
  · rw [if_pos positive, if_pos positive]
  · rw [if_neg positive, if_neg positive]
    exact i64_eq_ok ⟨by omega, by omega⟩

/-- The computation from the day of a year on. -/
def dateInYear (y : Int) (doy : Nat) : Checked (Int × Nat × Nat) := do
  let mp := (← u64 ((← u64 (5 * doy)) + 2)) / 153
  let first := (← u64 ((← u64 (153 * mp)) + 2)) / 5
  let d := asU32 (← u64 ((← Checked.sub doy first) + 1))
  let m := asU32 (← (if mp < 10 then u64 (mp + 3) else Checked.sub mp 9 : Checked Nat))
  return (← (if m ≤ 2 then i64 (y + 1) else .ok y : Checked Int), m, d)

theorem dateInYear_eq {y : Int} {doy : Nat} (within : doy < 366) (fits : InI64 (y + 1)) :
    dateInYear y doy =
      .ok ((Date.ofMarch y doy).year, (Date.ofMarch y doy).month, (Date.ofMarch y doy).day) := by
  have starts := Date.marchStart_le doy
  have last := Date.marchMonth_lt within
  have month : (5 * doy + 2) / 153 = Date.marchMonth doy := rfl
  have start : (153 * Date.marchMonth doy + 2) / 5 = Date.marchStart (Date.marchMonth doy) := rfl
  rw [dateInYear, u64_eq_ok (by omega), Checked.bind_ok, u64_eq_ok (by omega), Checked.bind_ok,
    month]
  dsimp only
  rw [u64_eq_ok (by omega), Checked.bind_ok, u64_eq_ok (by omega), Checked.bind_ok, start,
    Checked.sub_eq_ok starts, Checked.bind_ok, u64_eq_ok (by omega), Checked.bind_ok,
    asU32_eq (by omega), Date.ofMarch_month, Date.ofMarch_day, Date.ofMarchMonth]
  by_cases early : Date.marchMonth doy < 10
  · rw [if_pos early, if_pos early, u64_eq_ok (by omega), Checked.bind_ok, asU32_eq (by omega),
      if_neg (by omega), Checked.bind_ok, Date.ofMarch_year_early early]
    rfl
  · rw [if_neg early, if_neg early, Checked.sub_eq_ok (by omega), Checked.bind_ok,
      asU32_eq (by omega), if_pos (by omega), i64_eq_ok fits, Checked.bind_ok,
      Date.ofMarch_year_late (by omega)]
    rfl

/-- The computation from the day of an era on. -/
def dateInEra (era : Int) (doe : Nat) : Checked (Int × Nat × Nat) := do
  let days ← Checked.sub (← u64 ((← Checked.sub doe (doe / 1460)) + doe / 36524)) (doe / 146096)
  let yoe := days / 365
  let y ← i64 (asI64 yoe + (← i64 (era * 400)))
  let before ← Checked.sub (← u64 ((← u64 (365 * yoe)) + yoe / 4)) (yoe / 100)
  let doy ← Checked.sub doe before
  dateInYear y doy

theorem dateInEra_eq {era : Int} (low : -2 ^ 46 ≤ era) (high : era < 2 ^ 46)
    (inside : doe < 146097) :
    dateInEra era doe =
      .ok ((dateIn era doe).year, (dateIn era doe).month, (dateIn era doe).day) := by
  have year : (doe - doe / 1460 + doe / 36524 - doe / 146096) / 365 = yearOfEra doe := rfl
  rw [dateInEra, Checked.sub_eq_ok (Nat.div_le_self _ _), Checked.bind_ok, u64_eq_ok (by omega),
    Checked.bind_ok, Checked.sub_eq_ok (by omega), Checked.bind_ok, dateIn, year]
  have small := yearOfEra_lt inside
  have spec := yearOfEra_spec inside
  have length : yearEnd (yearOfEra doe) = yearStart (yearOfEra doe) +
    Date.marchLength (yearOfEra doe) := rfl
  have short := Date.marchLength_le (yearOfEra doe)
  generalize yearOfEra doe = yoe at small spec length short
  have start : 365 * yoe + yoe / 4 - yoe / 100 = yearStart yoe := rfl
  rw [i64_eq_ok ⟨by omega, by omega⟩, Checked.bind_ok, asI64_eq (by omega),
    i64_eq_ok ⟨by omega, by omega⟩, Checked.bind_ok, u64_eq_ok (by omega), Checked.bind_ok,
    u64_eq_ok (by omega), Checked.bind_ok, Checked.sub_eq_ok (by omega), Checked.bind_ok,
    start, Checked.sub_eq_ok spec.1, Checked.bind_ok]
  exact dateInYear_eq (by omega) ⟨by omega, by omega⟩

/-- No step of the computation overflows or falls below zero, and it gives the
date of the calendar. -/
theorem ymdFromDays_eq (inside : InI64 z) (fits : InI64 (z + 719468)) :
    ymdFromDays z = .ok ((dateOf (z + 719468)).year, (dateOf (z + 719468)).month,
      (dateOf (z + 719468)).day) := by
  have low := inside.1
  have high := fits.2
  have below : -2 ^ 63 + 719468 ≤ z + 719468 := by omega
  rw [ymdFromDays, i64_eq_ok fits, Checked.bind_ok]
  generalize z + 719468 = day at fits high below
  have start : InI64 (day / 146097 * 146097) := ⟨by omega, by omega⟩
  have inEra : InI64 (day - day / 146097 * 146097) := ⟨by omega, by omega⟩
  have offset : asU64 (day - day / 146097 * 146097) = (day % 146097).toNat := by
    rw [asU64_eq (by omega) inEra]
    omega
  dsimp only
  rw [numerator_eq (by omega) fits, Checked.bind_ok, era_eq, i64_eq_ok start, Checked.bind_ok,
    i64_eq_ok inEra, Checked.bind_ok, offset]
  exact dateInEra_eq (by omega) (by omega) (by omega)

theorem ymdFromDays_calendar :
    ymdFromDays 0 = .ok (1970, 1, 1) ∧
    ∀ z, InI64 z → InI64 (z + 719468) → ∃ date : Date,
      ymdFromDays z = .ok (date.year, date.month, date.day) ∧ date.Valid ∧
      (InI64 (z + 1 + 719468) →
        ymdFromDays (z + 1) = .ok (date.next.year, date.next.month, date.next.day)) := by
  constructor
  · rw [ymdFromDays_eq (by decide) (by decide)]
    decide
  · intro z inside fits
    refine ⟨dateOf (z + 719468), ymdFromDays_eq inside fits, valid_dateOf _, ?_⟩
    intro fitsNext
    have insideNext : InI64 (z + 1) := ⟨by have low := inside.1; omega, by
      have high := fitsNext.2; omega⟩
    have following : z + 1 + 719468 = z + 719468 + 1 := by omega
    rw [ymdFromDays_eq insideNext fitsNext, next_dateOf, following]

/-- A century ends with a leap day when its number is a multiple of four. -/
theorem ymdFromDays_calendar_leapDay :
    ymdFromDays 11016 = .ok (2000, 2, 29) ∧ ymdFromDays 11017 = .ok (2000, 3, 1) := by
  rcases ymdFromDays_calendar.2 11016 (by decide) (by decide) with ⟨date, found, _, follows⟩
  have leapDay : ymdFromDays 11016 = .ok (2000, 2, 29) := by decide
  rw [leapDay, Except.ok.injEq, Prod.mk.injEq, Prod.mk.injEq] at found
  have dateEq : date = ⟨2000, 2, 29⟩ := by
    cases date
    rw [Date.mk.injEq]
    exact ⟨found.1.symm, found.2.1.symm, found.2.2.symm⟩
  rw [dateEq] at follows
  exact ⟨leapDay, follows (by decide)⟩

example : ymdFromDays (-25509) = .ok (1900, 2, 28) ∧ ymdFromDays (-25508) = .ok (1900, 3, 1) := by
  decide

end RustyDhcp
