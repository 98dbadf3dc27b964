import Mathlib.Tactic.IntervalCases

/-! # The Gregorian calendar

Dates of all years before and after the epoch, in the order of the calendar. A
year that is counted from March on ends with its leap day, if it has one. -/

namespace RustyDhcp

structure Date where
  year : Int
  month : Nat
  day : Nat
deriving DecidableEq, Repr

namespace Date

/-- Every fourth year, but of the centuries only every fourth. -/
def IsLeap (year : Int) : Prop := year % 4 = 0 ∧ (year % 100 ≠ 0 ∨ year % 400 = 0)

instance (year : Int) : Decidable (IsLeap year) := inferInstanceAs (Decidable (_ ∧ _))

def daysInMonth (year : Int) (month : Nat) : Nat :=
  if month = 2 then if IsLeap year then 29 else 28
  else if month = 4 ∨ month = 6 ∨ month = 9 ∨ month = 11 then 30
  else 31

structure Valid (date : Date) : Prop where
  month : 1 ≤ date.month ∧ date.month ≤ 12
  day : 1 ≤ date.day ∧ date.day ≤ daysInMonth date.year date.month

/-- The day after. -/
def next (date : Date) : Date :=
  if date.day < daysInMonth date.year date.month then { date with day := date.day + 1 }
  else if date.month < 12 then ⟨date.year, date.month + 1, 1⟩
  else ⟨date.year + 1, 1, 1⟩

theorem isLeap_add_cycles (year cycles : Int) : IsLeap (year + cycles * 400) ↔ IsLeap year := by
  rw [IsLeap, IsLeap]
  omega

/-! ## Years from March -/

/-- The month of a day of a year from March, March being the first. -/
def marchMonth (day : Nat) : Nat := (5 * day + 2) / 153

/-- The first day of a month of a year from March. -/
def marchStart (month : Nat) : Nat := (153 * month + 2) / 5

/-- The number that the month has in the calendar. -/
def ofMarchMonth (month : Nat) : Nat := if month < 10 then month + 3 else month - 9

/-- The day of the year that begins in March of the given one. -/
def ofMarch (year : Int) (day : Nat) : Date where
  year := if marchMonth day < 10 then year else year + 1
  month := ofMarchMonth (marchMonth day)
  day := day - marchStart (marchMonth day) + 1

/-- The number of days from one March to the next. -/
def marchLength (year : Int) : Nat := if IsLeap (year + 1) then 366 else 365

variable {year : Int} {day month : Nat}

@[simp] theorem ofMarch_month (year : Int) (day : Nat) :
    (ofMarch year day).month = ofMarchMonth (marchMonth day) := rfl

@[simp] theorem ofMarch_day (year : Int) (day : Nat) :
    (ofMarch year day).day = day - marchStart (marchMonth day) + 1 := rfl

theorem ofMarch_year_early (early : marchMonth day < 10) : (ofMarch year day).year = year :=
  if_pos early

theorem ofMarch_year_late (late : 10 ≤ marchMonth day) : (ofMarch year day).year = year + 1 :=
  if_neg (by omega)

theorem marchLength_le (year : Int) : marchLength year ≤ 366 := by
  rw [marchLength]
  split <;> omega

theorem le_marchLength (year : Int) : 365 ≤ marchLength year := by
  rw [marchLength]
  split <;> omega

theorem marchStart_le (day : Nat) : marchStart (marchMonth day) ≤ day := by
  rw [marchStart, marchMonth]
  omega

theorem lt_marchStart (day : Nat) : day < marchStart (marchMonth day + 1) := by
  rw [marchStart, marchMonth]
  omega

theorem marchMonth_lt (inside : day < 366) : marchMonth day < 12 := by
  rw [marchMonth]
  omega

theorem marchMonth_eq (starts : marchStart month ≤ day) (ends : day < marchStart (month + 1)) :
    marchMonth day = month := by
  rw [marchStart] at starts ends
  rw [marchMonth]
  omega

/-- The months are as long as in the calendar, but for February. -/
theorem daysInMonth_ofMarchMonth (early : month < 11) :
    daysInMonth year (ofMarchMonth month) = marchStart (month + 1) - marchStart month := by
  interval_cases month <;> rfl

/-- February is what the other months leave of the year. -/
theorem daysInMonth_february : daysInMonth (year + 1) 2 = marchLength year - 337 := by
  rw [daysInMonth, if_pos rfl, marchLength]
  split <;> rfl

theorem valid_ofMarch (inside : day < marchLength year) : (ofMarch year day).Valid := by
  have short := marchLength_le year
  have starts := marchStart_le day
  have ends := lt_marchStart day
  have last : marchMonth day < 12 := marchMonth_lt (by omega)
  refine ⟨?_, Nat.le_add_left _ _, ?_⟩
  · rw [ofMarch_month, ofMarchMonth]
    constructor <;> split <;> omega
  · rw [ofMarch_month, ofMarch_day]
    by_cases early : marchMonth day < 11
    · rw [daysInMonth_ofMarchMonth early]
      omega
    · have february : marchMonth day = 11 := by omega
      have second : ofMarchMonth 11 = 2 := rfl
      rw [february] at starts
      rw [february, ofMarch_year_late (by omega), second, daysInMonth_february]
      have first : marchStart 11 = 337 := rfl
      omega

/-- The last day of February is followed by the first of March. -/
theorem next_february (inside : day < marchLength year) (february : marchMonth day = 11) :
    (ofMarch year day).next =
      if day + 1 < marchLength year then ofMarch year (day + 1) else ofMarch (year + 1) 0 := by
  have short := marchLength_le year
  have starts := marchStart_le day
  have first : marchStart 11 = 337 := rfl
  rw [february] at starts
  have date : ofMarch year day = ⟨year + 1, 2, day - 337 + 1⟩ := by
    rw [ofMarch, february]
    rfl
  rw [date, next]
  dsimp only
  rw [daysInMonth_february]
  by_cases more : day + 1 < marchLength year
  · have final : day + 1 < marchStart 12 := by
      rw [marchStart]
      omega
    have still : marchMonth (day + 1) = 11 := marchMonth_eq (by omega) final
    have days : day + 1 - 337 = day - 337 + 1 := by omega
    rw [if_pos (by omega), if_pos more, ofMarch, still, first, days]
    rfl
  · rw [if_neg (by omega), if_neg more]
    rfl

theorem next_before_february (early : marchMonth day < 11) :
    (ofMarch year day).next = ofMarch year (day + 1) := by
  have starts := marchStart_le day
  have ends := lt_marchStart day
  rw [next, ofMarch_month, ofMarch_day, daysInMonth_ofMarchMonth early]
  by_cases within : day + 1 < marchStart (marchMonth day + 1)
  · have still : marchMonth (day + 1) = marchMonth day := marchMonth_eq (by omega) within
    have days : day + 1 - marchStart (marchMonth day) = day - marchStart (marchMonth day) + 1 := by
      omega
    have later : ofMarch year (day + 1) =
        { ofMarch year day with day := day - marchStart (marchMonth day) + 1 + 1 } := by
      rw [ofMarch, still, days]
      rfl
    rw [if_pos (by omega), later]
    rfl
  · have begins : day + 1 = marchStart (marchMonth day + 1) := by omega
    have follows : marchMonth (day + 1) = marchMonth day + 1 := by
      rw [begins]
      exact marchMonth_eq (Nat.le_refl _) (by rw [marchStart, marchStart]; omega)
    have later : ofMarch year (day + 1) = ⟨if marchMonth day + 1 < 10 then year else year + 1,
        ofMarchMonth (marchMonth day + 1), 1⟩ := by
      rw [ofMarch, follows, begins, Nat.sub_self]
    rw [if_neg (by omega), later, ofMarch]
    generalize marchMonth day = month at early
    interval_cases month <;> rfl

/-- The days of a year from March follow each other, and the years do. -/
theorem next_ofMarch (inside : day < marchLength year) : (ofMarch year day).next =
    if day + 1 < marchLength year then ofMarch year (day + 1) else ofMarch (year + 1) 0 := by
  by_cases early : marchMonth day < 11
  · have ends := lt_marchStart day
    have long := le_marchLength year
    have before : marchStart (marchMonth day + 1) ≤ 337 := by
      rw [marchStart]
      omega
    rw [if_pos (by omega)]
    exact next_before_february early
  · have short := marchLength_le year
    have last : marchMonth day < 12 := marchMonth_lt (by omega)
    exact next_february inside (by omega)

/-! ## The order of the dates -/

/-- Later dates rank higher. -/
def rank (date : Date) : Int := (date.year * 12 + date.month) * 31 + date.day

theorem daysInMonth_le (year : Int) (month : Nat) : daysInMonth year month ≤ 31 := by
  rw [daysInMonth]
  split
  · split <;> decide
  · split <;> decide

theorem Valid.rank_lt_next {date : Date} (valid : date.Valid) : date.rank < date.next.rank := by
  have month := valid.month
  have day := valid.day
  have short := daysInMonth_le date.year date.month
  rw [next]
  by_cases within : date.day < daysInMonth date.year date.month
  · rw [if_pos within, rank, rank]
    dsimp only
    omega
  · rw [if_neg within]
    by_cases early : date.month < 12
    · rw [if_pos early, rank, rank]
      dsimp only
      omega
    · rw [if_neg early, rank, rank]
      dsimp only
      omega

end Date

end RustyDhcp
