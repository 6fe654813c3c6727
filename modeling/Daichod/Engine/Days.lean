import Daichod.Engine.Book
import Mathlib.Data.Prod.Lex

/-!
# Daichod.Engine.Days

Days and times. A date bound of a request is a day, the engine compares times, so each query
turns its bounds into the first or the last time of a day (`DayTimes`). Within the years that
the engine converts, these order as the days do (`DayTimes.Lawful`); any other day it turns
into the largest time there is.
-/

namespace Daichod

/-! ### The order of dates

Dates are ordered by year, month and day. Where the years differ, nothing else matters. -/

/-- Year, month and day, compared in that order. -/
def GDate.ymd (d : GDate) : ℕ ×ₗ ℕ ×ₗ ℕ :=
  toLex (d.year.toNat, toLex (d.month.toNat, d.day.toNat))

/-- An earlier year is an earlier date. -/
theorem GDate.ymd_lt_of_year {d d' : GDate} (h : d.year.toNat < d'.year.toNat) :
    d.ymd < d'.ymd := Prod.Lex.toLex_lt_toLex.mpr (Or.inl h)

/-- An earlier date has no later year. -/
theorem GDate.year_le_of_ymd {d d' : GDate} (h : d.ymd ≤ d'.ymd) :
    d.year.toNat ≤ d'.year.toNat := by
  by_contra hlt
  exact absurd (GDate.ymd_lt_of_year (not_le.mp hlt)) (not_lt.mpr h)

/-- A date is its year, month and day. -/
theorem GDate.ymd_injective : Function.Injective GDate.ymd := by
  rintro ⟨d, m, y⟩ ⟨d', m', y'⟩ h
  simp only [GDate.ymd, EmbeddingLike.apply_eq_iff_eq, Prod.mk.injEq, UInt16.toNat_inj,
    UInt32.toNat_inj, UInt8.toNat_inj] at h
  obtain ⟨rfl, rfl, rfl⟩ := h
  rfl

/-- The years that the engine converts to times. -/
def GDate.Converts (d : GDate) : Prop := 1400 ≤ d.year.toNat ∧ d.year.toNat ≤ 9999

instance (d : GDate) : Decidable d.Converts :=
  inferInstanceAs (Decidable (_ ∧ _))

/-! ### The days of a month -/

/-- No month has more than 31 days. -/
theorem daysInMonth_le (year month : ℕ) : daysInMonth year month ≤ 31 := by
  unfold daysInMonth
  split <;> first | omega | (split <;> omega)

/-- Only months have days. -/
theorem month_of_daysInMonth_pos {year month : ℕ} (h : 0 < daysInMonth year month) :
    1 ≤ month ∧ month ≤ 12 := by
  by_contra hno
  have hzero : daysInMonth year month = 0 := by
    unfold daysInMonth
    split <;> first | rfl | omega
  omega

/-- The fields of a valid date are in their ranges. -/
theorem GDate.valid_fields {d : GDate} (h : d.valid = true) :
    1 ≤ d.year.toNat ∧ 1 ≤ d.month.toNat ∧ d.month.toNat ≤ 12 ∧ 1 ≤ d.day.toNat ∧
      d.day.toNat ≤ daysInMonth d.year.toNat d.month.toNat := by
  simp only [GDate.valid, gDateValidDmy, Bool.and_eq_true, decide_eq_true_eq] at h
  obtain ⟨⟨hyear, hday⟩, hlast⟩ := h
  have hmonth := month_of_daysInMonth_pos (by omega : 0 < daysInMonth d.year.toNat d.month.toNat)
  exact ⟨hyear, hmonth.1, hmonth.2, hday, hlast⟩

/-! ### The times of a day

What the engine is documented to do with days is `DayTimes.Lawful`. From it the comparisons of
times that a query makes become comparisons of days. -/

/-- The engine's conversions of a day to a time. -/
class DayTimes where
  /-- `gnc_dmy2time64`. -/
  dmy2time64 : GDate → Int64
  /-- `gnc_dmy2time64_end`. -/
  dmy2time64End : GDate → Int64

/-- What is documented of the conversions: the first and the last second of a day, and
`INT64_MAX` for a day that is not converted. -/
structure DayTimes.Lawful [DayTimes] : Prop where
  first_le_last : ∀ d : GDate, d.valid = true → d.Converts → dmy2time64 d ≤ dmy2time64End d
  last_lt_first : ∀ d d' : GDate, d.valid = true → d'.valid = true → d.Converts → d'.Converts →
    d.ymd < d'.ymd → dmy2time64End d < dmy2time64 d'
  last_lt_max : ∀ d : GDate, d.valid = true → d.Converts → dmy2time64End d < Int64.maxValue
  first_of_other : ∀ d : GDate, d.valid = true → ¬d.Converts → dmy2time64 d = Int64.maxValue
  last_of_other : ∀ d : GDate, d.valid = true → ¬d.Converts → dmy2time64End d = Int64.maxValue

/-- What is assumed of the conversions when a day of a post is compared with a later day: they
keep the order, and a day behind year 9999 is behind the last day before. -/
structure DayTimes.KeepsOrder [Engine] [DayTimes] : Prop where
  neutral_le_last : ∀ d d' : GDate, d.valid = true → d'.valid = true → d.ymd ≤ d'.ymd →
    Engine.dmy2time64Neutral d ≤ dmy2time64End d'
  last_lt_neutral : ∀ d : GDate, d.valid = true → 9999 < d.year.toNat →
    dmy2time64End ⟨31, 12, 9999⟩ < Engine.dmy2time64Neutral d

/-- A time within a day that the engine converts. -/
structure GDate.Holds [DayTimes] (d : GDate) (time : Int64) : Prop where
  valid : d.valid = true
  converts : d.Converts
  first_le : DayTimes.dmy2time64 d ≤ time
  le_last : time ≤ DayTimes.dmy2time64End d

namespace GDate.Holds

variable [DayTimes] {d bound : GDate} {time : Int64} (laws : DayTimes.Lawful)
  (h : d.Holds time) (hvalid : bound.valid = true)
include laws h

/-- A time on a day that is converted is not the largest. -/
theorem lt_max : time < Int64.maxValue :=
  Int64.lt_of_le_of_lt h.le_last (laws.last_lt_max _ h.valid h.converts)

include hvalid

/-- A lower bound on times is a lower bound on days, unless it lies before the years that are
converted: then no time satisfies it. -/
theorem first_le_iff :
    DayTimes.dmy2time64 bound ≤ time ↔ 1400 ≤ bound.year.toNat ∧ bound.ymd ≤ d.ymd := by
  by_cases hconverts : bound.Converts
  · rw [and_iff_right hconverts.1]
    constructor
    · intro hle
      by_contra hlt
      have hbefore := laws.last_lt_first _ _ h.valid hvalid h.converts hconverts (not_le.mp hlt)
      exact Int64.not_le.mpr (Int64.lt_of_le_of_lt h.le_last hbefore) hle
    · intro hle
      rcases hle.lt_or_eq with hlt | heq
      · have hbefore := laws.last_lt_first _ _ hvalid h.valid hconverts h.converts hlt
        have hday := Int64.lt_of_le_of_lt (laws.first_le_last _ hvalid hconverts) hbefore
        exact Int64.le_of_lt (Int64.lt_of_lt_of_le hday h.first_le)
      · rw [GDate.ymd_injective heq]
        exact h.first_le
  · rw [laws.first_of_other _ hvalid hconverts]
    have hmax := Int64.not_le.mpr (h.lt_max laws)
    refine ⟨fun hle => absurd hle hmax, fun ⟨hyear, hle⟩ => ?_⟩
    -- Behind the last year that is converted.
    have hlate : ¬bound.year.toNat ≤ 9999 := fun hle => hconverts ⟨hyear, hle⟩
    have := GDate.year_le_of_ymd hle
    have := h.converts.2
    omega

/-- An upper bound on times is an upper bound on days, unless it lies before the years that
are converted: then every time satisfies it. -/
theorem le_last_iff :
    time ≤ DayTimes.dmy2time64End bound ↔ bound.year.toNat < 1400 ∨ d.ymd ≤ bound.ymd := by
  -- a bound that is not converted is the largest time, and lets everything through
  by_cases hconverts : bound.Converts
  · rw [or_iff_right (not_lt.mpr hconverts.1)]
    constructor
    · intro hle
      by_contra hlt
      have hbefore := laws.last_lt_first _ _ hvalid h.valid hconverts h.converts (not_le.mp hlt)
      exact Int64.not_le.mpr (Int64.lt_of_lt_of_le hbefore h.first_le) hle
    · intro hle
      rcases hle.lt_or_eq with hlt | heq
      · have hbefore := laws.last_lt_first _ _ h.valid hvalid h.converts hconverts hlt
        have hday := Int64.lt_of_lt_of_le hbefore (laws.first_le_last _ hvalid hconverts)
        exact Int64.le_of_lt (Int64.lt_of_le_of_lt h.le_last hday)
      · rw [← GDate.ymd_injective heq]
        exact h.le_last
  · rw [laws.last_of_other _ hvalid hconverts]
    refine ⟨fun _ => ?_, fun _ => Int64.le_of_lt (h.lt_max laws)⟩
    by_cases hyear : bound.year.toNat < 1400
    · exact Or.inl hyear
    · have hlate : ¬bound.year.toNat ≤ 9999 := fun hle => hconverts ⟨not_lt.mp hyear, hle⟩
      refine Or.inr (GDate.ymd_lt_of_year ?_).le
      have := h.converts.2
      omega

end GDate.Holds

end Daichod
