import VersionMatrix.Time.Calendar
import Mathlib.Tactic.Linarith
import Mathlib.Tactic.Ring
import Mathlib.Tactic.SplitIfs

/-! Dates and day counts: every day has a date of the calendar, and the date counts the same day. -/
namespace VersionMatrix.Date

variable {year day days : Int}

/-- The date of a day that is counted within a year from March on. -/
def ofYearDay (year day : Int) : Date :=
  let month := (5 * day + 2) / 153
  let dayOfMonth := day - (153 * month + 2) / 5 + 1
  if month < 10 then { year, month := (month + 3).toNat, day := dayOfMonth.toNat }
  else { year := year + 1, month := (month - 9).toNat, day := dayOfMonth.toNat }

def yearStart (year : Int) : Int := year * 365 + year / 4 - year / 100 + year / 400 - 719468

/-- A day of a year that is counted from March on. The last day of the year is the leap day. -/
structure IsYearDay (year day : Int) : Prop where
  nonneg : 0 ≤ day
  le : day ≤ 365
  leap : day = 365 → isLeapYear (year + 1) = true

theorem toDays_ofYearDay (nonneg : 0 ≤ day) (le : day ≤ 365) :
    (ofYearDay year day).toDays = yearStart year + day := by
  have months : 0 ≤ (5 * day + 2) / 153 ∧ (5 * day + 2) / 153 ≤ 11 := by omega
  rw [ofYearDay]
  split
  next early =>
      have : ¬((5 * day + 2) / 153 + 3).toNat ≤ 2 := by omega
      simp only [toDays, yearStart, if_neg this]
      omega
  next late =>
      have : ((5 * day + 2) / 153 - 9).toNat ≤ 2 := by omega
      simp only [toDays, yearStart, if_pos this]
      omega

/-- A date is in the calendar exactly if its month is one and its day is one of that month. -/
theorem isValid_iff {date : Date} :
    date.isValid = true ↔ (1 ≤ date.month ∧ date.month ≤ 12) ∧ 1 ≤ date.day ∧
      date.day ≤ daysInMonth date.year date.month := by
  simp [isValid, and_assoc]

theorem daysInMonth_le (year : Int) (month : Nat) : daysInMonth year month ≤ 31 := by
  rw [daysInMonth]
  split_ifs <;> decide

/-- A day of the year is a date of the calendar. -/
theorem isValid_ofYearDay (within : IsYearDay year day) : (ofYearDay year day).isValid = true := by
  obtain ⟨nonneg, le, leap⟩ := within
  obtain ⟨month, counted⟩ : ∃ month, month = (5 * day + 2) / 153 := ⟨_, rfl⟩
  rw [isValid_iff, ofYearDay, ← counted]
  by_cases february : month = 11
  · -- February ends the year, and has a last day in a leap year only.
    subst february
    cases isLeap : isLeapYear (year + 1) with
    | true =>
        simp [daysInMonth, isLeap]
        omega
    | false =>
        have short : day ≠ 365 := fun last => by simp [leap last] at isLeap
        simp [daysInMonth, isLeap]
        omega
  · have months : month = 0 ∨ month = 1 ∨ month = 2 ∨ month = 3 ∨ month = 4 ∨ month = 5 ∨ month = 6 ∨
        month = 7 ∨ month = 8 ∨ month = 9 ∨ month = 10 := by omega
    rcases months with rfl | rfl | rfl | rfl | rfl | rfl | rfl | rfl | rfl | rfl | rfl
    all_goals
      simp [daysInMonth]
      omega

/-- Every day lies in a century, in four years of it, and in one of these years. Only the last of four
years has a leap day, and of the centuries only the last one has it in its last year. -/
theorem exists_yearDay (nonneg : 0 ≤ day) (lt : day < 146097) :
    ∃ century quad year rest : Int, (0 ≤ century ∧ century ≤ 3) ∧ (0 ≤ quad ∧ quad ≤ 24) ∧
      (0 ≤ year ∧ year ≤ 3) ∧ (0 ≤ rest ∧ rest ≤ 365) ∧
      (rest = 365 → year = 3 ∧ (quad = 24 → century = 3)) ∧
      day = 36524 * century + 1461 * quad + 365 * year + rest := by
  obtain ⟨century, centuries⟩ : ∃ century, century = min (day / 36524) 3 := ⟨_, rfl⟩
  obtain ⟨quad, quads⟩ : ∃ quad, quad = (day - 36524 * century) / 1461 := ⟨_, rfl⟩
  obtain ⟨year, years⟩ : ∃ year, year = min ((day - 36524 * century - 1461 * quad) / 365) 3 := ⟨_, rfl⟩
  have inCentury : 0 ≤ day - 36524 * century ∧ day - 36524 * century ≤ 36524 ∧
      (day - 36524 * century = 36524 → century = 3) := by omega
  have inQuad : 0 ≤ day - 36524 * century - 1461 * quad ∧ day - 36524 * century - 1461 * quad ≤ 1460 := by
    omega
  exact ⟨century, quad, year, day - 36524 * century - 1461 * quad - 365 * year,
    by omega, by omega, by omega, by omega, by omega, by omega⟩

/-- A cycle's days since its start, without the leap days before them, count its years. -/
theorem yearOfCycle_eq {cycle century quad year rest : Int} (centuries : 0 ≤ century ∧ century ≤ 3)
    (quads : 0 ≤ quad ∧ quad ≤ 24) (years : 0 ≤ year ∧ year ≤ 3) (days : 0 ≤ rest ∧ rest ≤ 365)
    (leap : rest = 365 → year = 3 ∧ (quad = 24 → century = 3))
    (counted : cycle = 36524 * century + 1461 * quad + 365 * year + rest) :
    (cycle - cycle / 1460 + cycle / 36524 - cycle / 146096) / 365 = 100 * century + 4 * quad + year := by
  have hundreds : cycle / 36524 - cycle / 146096 = century := by
    have before : 36524 * century ≤ cycle := by omega
    have after : cycle ≤ 36524 * century + 36523 ∨ cycle = 36524 * century + 36524 ∧ century = 3 := by
      omega
    clear leap counted quads years days
    obtain rfl | rfl | rfl | rfl : century = 0 ∨ century = 1 ∨ century = 2 ∨ century = 3 := by omega
    all_goals omega
  -- Whether the leap day of the four years is taken off too depends on how late in them the day is.
  have fours : cycle / 1460 = 25 * century + quad ∧ 24 * century + quad + 365 * year + rest < 1460 ∨
      cycle / 1460 = 25 * century + quad + 1 ∧ 1460 ≤ 24 * century + quad + 365 * year + rest := by
    clear hundreds leap
    omega
  rw [Int.add_sub_assoc, hundreds]
  clear hundreds
  rcases fours with ⟨fours, early⟩ | ⟨fours, late⟩
  · rw [fours]
    clear fours
    omega
  · rw [fours]
    clear fours
    omega

/-- The fourth, hundredth and four hundredth years up to a year. -/
theorem leapYears_eq (era : Int) {century quad year years : Int}
    (centuries : 0 ≤ century ∧ century ≤ 3) (quads : 0 ≤ quad ∧ quad ≤ 24) (ones : 0 ≤ year ∧ year ≤ 3)
    (counted : years = 100 * century + 4 * quad + year + era * 400) :
    years / 4 = 25 * century + quad + 100 * era ∧ years / 100 = century + 4 * era ∧ years / 400 = era :=
  ⟨by omega, by omega, by omega⟩

/-- Every day has a date: the day is counted within a year from March on. -/
theorem exists_ofDays_eq (days : Int) :
    ∃ year day, IsYearDay year day ∧ ofDays days = ofYearDay year day ∧ days = yearStart year + day := by
  obtain ⟨era, eras⟩ : ∃ era, era = (days + 719468) / 146097 := ⟨_, rfl⟩
  obtain ⟨cycle, cycles⟩ : ∃ cycle, cycle = days + 719468 - era * 146097 := ⟨_, rfl⟩
  obtain ⟨century, quad, year, rest, centuries, quads, years, within, leap, counted⟩ :=
    @exists_yearDay cycle (by omega) (by omega)
  have yearOfCycle := yearOfCycle_eq centuries quads years within leap counted
  obtain ⟨fourths, hundredths, -⟩ := leapYears_eq 0 centuries quads years rfl
  obtain ⟨fourths', hundredths', eras'⟩ := leapYears_eq era centuries quads years rfl
  refine ⟨100 * century + 4 * quad + year + era * 400, rest, ⟨within.1, within.2, fun last => ?_⟩, ?_, ?_⟩
  · obtain ⟨rfl, century⟩ := leap last
    simp only [isLeapYear, Bool.and_eq_true, Bool.or_eq_true, beq_iff_eq, bne_iff_ne]
    omega
  · have dayOfYear : cycle - (365 * (100 * century + 4 * quad + year) +
        (100 * century + 4 * quad + year) / 4 - (100 * century + 4 * quad + year) / 100) = rest := by
      rw [Int.zero_mul, Int.add_zero] at fourths hundredths
      rw [fourths, hundredths, counted]
      ring
    rw [ofDays]
    simp only [← eras, ← cycles, yearOfCycle, dayOfYear]
    rfl
  · rw [yearStart, fourths', hundredths', eras']
    linarith only [cycles, counted]

/-- Days that are made into a date are counted back. -/
theorem toDays_ofDays (days : Int) : (ofDays days).toDays = days := by
  obtain ⟨year, day, within, same, counted⟩ := exists_ofDays_eq days
  rw [same, toDays_ofYearDay within.nonneg within.le, counted]

/-- Every day is a date of the calendar. -/
theorem isValid_ofDays (days : Int) : (ofDays days).isValid = true := by
  obtain ⟨year, day, within, same, -⟩ := exists_ofDays_eq days
  rw [same, isValid_ofYearDay within]

/-- The days of years with four digits are within bounds. -/
theorem toDays_of_fourDigits {date : Date} (valid : date.isValid = true)
    (fourDigits : 0 ≤ date.year ∧ date.year ≤ 9999) : -720000 ≤ date.toDays ∧ date.toDays ≤ 2940000 := by
  obtain ⟨month, day, days⟩ := isValid_iff.1 valid
  have := daysInMonth_le date.year date.month
  simp only [toDays]
  split <;> omega

/-- The days around those of four digit years have years of up to five digits. -/
theorem year_ofDays (least : -721000 ≤ day) (most : day ≤ 2941000) :
    -10 ≤ (ofDays day).year ∧ (ofDays day).year ≤ 10100 := by
  obtain ⟨year, rest, within, same, counted⟩ := exists_ofDays_eq day
  have start : -721365 ≤ yearStart year ∧ yearStart year ≤ 2941000 := by
    have nonneg := within.nonneg
    have le := within.le
    omega
  have bounds : -9 ≤ year ∧ year ≤ 10090 := by
    rw [yearStart] at start
    omega
  rw [same, ofYearDay]
  split <;> dsimp only <;> omega

end VersionMatrix.Date
