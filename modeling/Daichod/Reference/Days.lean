import Daichod.Engine.Days
import Daichod.Reference
import Daichod.Rpc.BalanceService
import Mathlib.Tactic.IntervalCases

/-!
# Daichod.Reference.Days

The times of days in the reference engine, and that they keep the order of days. A date is
counted by the days of the years before it, of the months before it in its year, and of its
month; each of the three starts where the previous one ends.
-/

namespace Daichod.Reference

/-! ### Counting days

The day number of a date is a sum of three counts, so its order is lexicographic as soon as each
count stays below the step of the one before it: a year is over before the next one starts, and so
is a month. -/

/-- The leap day of a year. -/
def leapDay (year : ℕ) : ℤ := if isLeapYear year then 1 else 0

/-- The days of the years before `year`, from year 1 on. -/
def yearStart (year : ℕ) : ℤ :=
  let y : ℤ := year - 1
  365 * y + y / 4 - y / 100 + y / 400

/-- The days of the year before its `month`. -/
def monthStart (year : ℕ) : ℕ → ℤ
  | 1 => 0
  | 2 => 31
  | month => (153 * (month - 3) + 2) / 5 + 59 + leapDay year

/-- A leap year has one day more, and it is a leap year by the Gregorian rule; both cases with the
remainders `omega` needs. -/
theorem leapDay_cases (year : ℕ) :
    (leapDay year = 1 ∧ year % 4 = 0 ∧ (year % 100 ≠ 0 ∨ year % 400 = 0)) ∨
      (leapDay year = 0 ∧ (year % 4 ≠ 0 ∨ (year % 100 = 0 ∧ year % 400 ≠ 0))) := by
  unfold leapDay isLeapYear
  by_cases h4 : year % 4 = 0 <;> by_cases h100 : year % 100 = 0 <;>
    by_cases h400 : year % 400 = 0 <;> simp [h4, h100, h400]

/-- A year starts where the one before it ends. -/
theorem yearStart_succ (year : ℕ) :
    yearStart (year + 1) = yearStart year + 365 + leapDay year := by
  have hleap := leapDay_cases year
  simp only [yearStart, Nat.cast_add, Nat.cast_one]
  omega

/-- A year is over before any later year starts. -/
theorem yearStart_lt {year year' : ℕ} (h : year < year') :
    yearStart year + 365 + leapDay year ≤ yearStart year' := by
  induction year', h using Nat.le_induction with
  | base => exact (yearStart_succ year).ge
  | succ year' _ ih =>
    have hleap := leapDay_cases year'
    have hsucc := yearStart_succ year'
    omega

/-- A month starts where the one before it in its year ends. -/
theorem daysInMonth_eq (year : ℕ) {month : ℕ} (h : 1 ≤ month) (h' : month < 12) :
    monthStart year (month + 1) = monthStart year month + daysInMonth year month := by
  have hfeb : (daysInMonth year 2 : ℤ) = 28 + leapDay year := by
    simp only [daysInMonth, leapDay]
    split <;> rfl
  interval_cases month <;> first | (simp only [monthStart, hfeb]; omega) | rfl |
    (simp only [monthStart, daysInMonth]; omega)

/-- A month is over before any later month of its year starts. -/
theorem monthStart_lt (year : ℕ) {month month' : ℕ} (h : 1 ≤ month) (h' : month' ≤ 12)
    (hlt : month < month') :
    monthStart year month + daysInMonth year month ≤ monthStart year month' := by
  induction month', hlt using Nat.le_induction with
  | base => exact (daysInMonth_eq year h (by omega)).ge
  | succ month' hle ih =>
    have hnext := daysInMonth_eq year (by omega : 1 ≤ month') (by omega)
    have := ih (by omega)
    omega

/-- December ends with its year. -/
theorem monthStart_last (year : ℕ) : monthStart year 12 + daysInMonth year 12
    = 365 + leapDay year := by
  simp only [monthStart, daysInMonth]
  omega

/-! ### Valid dates -/

/-- What a date counts beyond the day before year 1. -/
def ordinal (d : GDate) : ℤ :=
  yearStart d.year.toNat + monthStart d.year.toNat d.month.toNat + d.day.toNat

/-- A date lies within its year. -/
theorem ordinal_bounds {d : GDate} (h : d.valid = true) :
    yearStart d.year.toNat < ordinal d ∧
      ordinal d ≤ yearStart d.year.toNat + 365 + leapDay d.year.toNat := by
  obtain ⟨-, hmonth, hmonth', hday, hlast⟩ := GDate.valid_fields h
  have hfirst : monthStart d.year.toNat 1 = 0 := rfl
  have hyear := monthStart_last d.year.toNat
  have hbefore : 0 ≤ monthStart d.year.toNat d.month.toNat := by
    rcases hmonth.eq_or_lt with heq | hlt
    · rw [← heq, hfirst]
    · have := monthStart_lt d.year.toNat le_rfl hmonth' hlt
      omega
  have hbehind : monthStart d.year.toNat d.month.toNat + daysInMonth d.year.toNat d.month.toNat
      ≤ 365 + leapDay d.year.toNat := by
    rcases hmonth'.eq_or_lt with heq | hlt
    · rw [heq, hyear]
    · have := monthStart_lt d.year.toNat hmonth le_rfl hlt
      omega
  unfold ordinal
  omega

/-- **Dates count in their order.** -/
theorem ordinal_lt {d d' : GDate} (h : d.valid = true) (h' : d'.valid = true)
    (hlt : d.ymd < d'.ymd) : ordinal d < ordinal d' := by
  simp only [GDate.ymd, Prod.Lex.toLex_lt_toLex] at hlt
  rcases hlt with hyear | ⟨hyear, hmonth | ⟨hmonth, hday⟩⟩
  · have hd := ordinal_bounds h
    have hd' := ordinal_bounds h'
    have := yearStart_lt hyear
    omega
  · obtain ⟨-, hd, -, -, hlast⟩ := GDate.valid_fields h
    obtain ⟨-, -, hd', hday', -⟩ := GDate.valid_fields h'
    have := monthStart_lt d'.year.toNat hd hd' hmonth
    simp only [ordinal, hyear] at hlast ⊢
    omega
  · simp only [ordinal, hyear, hmonth]
    omega

/-- The days from the epoch count like the others. -/
theorem daysFromCivil_eq {d : GDate} (h : d.valid = true) :
    daysFromCivil d = ordinal d - 719163 := by
  obtain ⟨hyear, hmonth, hmonth', -, -⟩ := GDate.valid_fields h
  have hleap := leapDay_cases d.year.toNat
  unfold daysFromCivil ordinal
  generalize d.day.toNat = day
  generalize d.year.toNat = year at *
  generalize d.month.toNat = month at *
  -- The civil year begins in March: the first two months belong to the year before.
  rcases (by omega : month = 1 ∨ month = 2 ∨ 3 ≤ month) with rfl | rfl | hlate
  · simp only [yearStart, monthStart]
    omega
  · simp only [yearStart, monthStart]
    omega
  · have hstart : monthStart year month = (153 * (month - 3) + 2) / 5 + 59 + leapDay year := by
      unfold monthStart
      split <;> first | rfl | omega
    simp only [yearStart, hstart]
    omega

/-- Days are counted in the order of their dates. -/
theorem daysFromCivil_lt {d d' : GDate} (h : d.valid = true) (h' : d'.valid = true)
    (hlt : d.ymd < d'.ymd) : daysFromCivil d < daysFromCivil d' := by
  have := ordinal_lt h h' hlt
  rw [daysFromCivil_eq h, daysFromCivil_eq h']
  omega

/-! ### The times of a day

The reference engine takes a day to start at its midnight in UTC and to end one second before the
next. A date's days times the seconds of a day is far from the ends of an `Int64`, so that the
machine product is the product. -/

/-- A day begins at midnight UTC. -/
def dmy2time64 (d : GDate) : Int64 :=
  if d.Converts then Int64.ofInt (daysFromCivil d * 86400) else Int64.maxValue

/-- And ends a second before the next. -/
def dmy2time64End (d : GDate) : Int64 :=
  if d.Converts then Int64.ofInt (daysFromCivil d * 86400 + 86399) else Int64.maxValue

/-- The day's start and end of the reference engine. -/
@[reducible] def dayTimes : DayTimes := ⟨dmy2time64, dmy2time64End⟩

/-- A year has 16 bits, which keeps every valid date's day number small. -/
theorem daysFromCivil_bounds {d : GDate} (h : d.valid = true) :
    -800000 < daysFromCivil d ∧ daysFromCivil d < 25000000 := by
  have hyear := (GDate.valid_fields h).1
  have hlate : d.year.toNat < 65536 := d.year.toNat_lt
  have hleap := leapDay_cases d.year.toNat
  have hbounds := ordinal_bounds h
  rw [daysFromCivil_eq h]
  simp only [yearStart] at hbounds
  omega

/-- A second of a valid date does not overflow. -/
theorem toInt_dayTime {d : GDate} (h : d.valid = true) {seconds : ℤ} (hpos : 0 ≤ seconds)
    (hlt : seconds < 86400) :
    (Int64.ofInt (daysFromCivil d * 86400 + seconds)).toInt
      = daysFromCivil d * 86400 + seconds := by
  obtain ⟨hfirst, hlast⟩ := daysFromCivil_bounds h
  exact Int64.toInt_ofInt_of_le (by omega) (by omega)

/-- The start of a date the engine can convert, as an integer. -/
theorem toInt_dmy2time64 {d : GDate} (h : d.valid = true) (hconverts : d.Converts) :
    (dmy2time64 d).toInt = daysFromCivil d * 86400 := by
  have hfirst := toInt_dayTime h (le_refl 0) (by omega)
  rw [add_zero] at hfirst
  rw [dmy2time64, if_pos hconverts, hfirst]

/-- The end of a date the engine can convert, as an integer. -/
theorem toInt_dmy2time64End {d : GDate} (h : d.valid = true) (hconverts : d.Converts) :
    (dmy2time64End d).toInt = daysFromCivil d * 86400 + 86399 := by
  rw [dmy2time64End, if_pos hconverts]
  exact toInt_dayTime h (by omega) (by omega)

attribute [local instance] engine dayTimes

/-- The reference engine converts days as documented. -/
theorem dayTimes_lawful : DayTimes.Lawful where
  first_le_last d hvalid hconverts := by
    show dmy2time64 d ≤ dmy2time64End d
    rw [Int64.le_iff_toInt_le, toInt_dmy2time64 hvalid hconverts,
      toInt_dmy2time64End hvalid hconverts]
    omega
  last_lt_first d d' hvalid hvalid' hconverts hconverts' hlt := by
    have hdays := daysFromCivil_lt hvalid hvalid' hlt
    show dmy2time64End d < dmy2time64 d'
    rw [Int64.lt_iff_toInt_lt, toInt_dmy2time64End hvalid hconverts,
      toInt_dmy2time64 hvalid' hconverts']
    omega
  last_lt_max d hvalid hconverts := by
    have hmax : Int64.maxValue.toInt = 2 ^ 63 - 1 := rfl
    have hlast := (daysFromCivil_bounds hvalid).2
    show dmy2time64End d < Int64.maxValue
    rw [Int64.lt_iff_toInt_lt, toInt_dmy2time64End hvalid hconverts, hmax]
    omega
  first_of_other d _ hconverts := if_neg hconverts
  last_of_other d _ hconverts := if_neg hconverts

/-- The neutral time of a date, at 10:59 UTC. -/
theorem toInt_neutral {d : GDate} (h : d.valid = true) :
    (Engine.dmy2time64Neutral d).toInt = daysFromCivil d * 86400 + neutralTime :=
  toInt_dayTime h (by decide) (by decide)

/-- The reference engine keeps the order of days, as `DayTimes.KeepsOrder` asks of any engine. The
neutral time lies inside its day, so that both comparisons come down to the order of the dates. -/
theorem dayTimes_keepsOrder : DayTimes.KeepsOrder where
  neutral_le_last d d' hvalid hvalid' hle := by
    have hmax : Int64.maxValue.toInt = 2 ^ 63 - 1 := rfl
    have hneutral : neutralTime = 39540 := by decide
    have hlast := (daysFromCivil_bounds hvalid).2
    show Engine.dmy2time64Neutral d ≤ dmy2time64End d'
    rw [Int64.le_iff_toInt_le, toInt_neutral hvalid, hneutral]
    -- a date past the engine's range ends at the last time there is, which nothing exceeds
    by_cases hconverts : d'.Converts
    · rw [toInt_dmy2time64End hvalid' hconverts]
      rcases hle.lt_or_eq with hlt | heq
      · have := daysFromCivil_lt hvalid hvalid' hlt
        omega
      · rw [GDate.ymd_injective heq]
        omega
    · rw [dmy2time64End, if_neg hconverts, hmax]
      omega
  last_lt_neutral d hvalid hlate := by
    have hneutral : neutralTime = 39540 := by decide
    have hlast : GDate.valid ⟨31, 12, 9999⟩ = true := by decide
    have hdays := daysFromCivil_lt hlast hvalid (GDate.ymd_lt_of_year hlate)
    show dmy2time64End ⟨31, 12, 9999⟩ < Engine.dmy2time64Neutral d
    rw [Int64.lt_iff_toInt_lt, toInt_neutral hvalid, hneutral,
      toInt_dmy2time64End hlast (by decide)]
    omega

/-! ### Balances -/

/-- The balance of the account alone, in its own commodity. -/
@[reducible] def balances : Balances where
  balance _ account _ _ counted := fitted ((counted account).map fun s => s.amount.toRat).sum

end Daichod.Reference
