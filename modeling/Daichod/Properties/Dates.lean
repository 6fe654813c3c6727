import Daichod.Engine.Days
import Daichod.Engine.Map

/-!
# Daichod.Properties.Dates

**Dates cross the boundary exactly** (`dates_exact`). `DateFromProto` narrows three 32-bit
fields to the widths of a `GDate`, so a field must be known to be small before it is
narrowed; the range check in front sees to that, and GLib then decides on the very numbers
that were sent.
-/

namespace Daichod

/-- A date of the proleptic Gregorian calendar, from year 1 on. -/
def IsGregorianDate (year month day : ℤ) : Prop :=
  1 ≤ year ∧ 1 ≤ month ∧ month ≤ 12 ∧ 1 ≤ day ∧ day ≤ daysInMonth year.toNat month.toNat

/-- A calendar date whose year a `GDate` can hold. -/
def Shim.Date.Valid (date : Shim.Date) : Prop :=
  IsGregorianDate date.year.toInt date.month.toInt date.day.toInt ∧ date.year.toInt ≤ 65535

/-- What passes the range check. -/
def Shim.Date.InRange (date : Shim.Date) : Prop :=
  (1 ≤ date.year.toInt ∧ date.year.toInt ≤ 65535) ∧
  (1 ≤ date.month.toInt ∧ date.month.toInt ≤ 12) ∧ 1 ≤ date.day.toInt ∧ date.day.toInt ≤ 31

section Narrowing

variable {x : Int32}

/-- A field that is not negative survives the change of sign type, -/
theorem toInt_toUInt32 (h : 0 ≤ x.toInt) : (x.toUInt32.toNat : ℤ) = x.toInt := by
  have hbits : x.toUInt32.toNat = x.toBitVec.toNat := rfl
  have hint : x.toInt = x.toBitVec.toInt := rfl
  have hcond := x.toBitVec.toInt_eq_toNat_cond
  have hlt := x.toBitVec.isLt
  rw [hbits]
  split at hcond <;> omega

/-- the narrowing to 16 bits if it is small enough, -/
theorem toInt_toUInt16 (h : 0 ≤ x.toInt) (hlt : x.toInt < 2 ^ 16) :
    (x.toUInt32.toUInt16.toNat : ℤ) = x.toInt := by
  have hwide := toInt_toUInt32 h
  rw [UInt32.toNat_toUInt16, Nat.mod_eq_of_lt (by omega), hwide]

/-- and to 8. -/
theorem toInt_toUInt8 (h : 0 ≤ x.toInt) (hlt : x.toInt < 2 ^ 8) :
    (x.toUInt32.toUInt8.toNat : ℤ) = x.toInt := by
  have hwide := toInt_toUInt32 h
  rw [UInt32.toNat_toUInt8, Nat.mod_eq_of_lt (by omega), hwide]

end Narrowing

variable {date : Shim.Date}

/-- A date of the calendar passes the range check. -/
theorem Shim.Date.Valid.inRange (h : date.Valid) : date.InRange := by
  obtain ⟨⟨hyear, hmonth, hmonth', hday, hday'⟩, hyear'⟩ := h
  have hle := daysInMonth_le date.year.toInt.toNat date.month.toInt.toNat
  exact ⟨⟨hyear, hyear'⟩, ⟨hmonth, hmonth'⟩, hday, by omega⟩

/-- The range check, on the numbers. -/
theorem inRange_iff : date.InRange ↔ ¬(date.year < 1 ∨ date.year > 65535 ∨ date.month < 1 ∨
    date.month > 12 ∨ date.day < 1 ∨ date.day > 31) := by
  have h1 : Int32.toInt 1 = 1 := rfl
  have h12 : Int32.toInt 12 = 12 := rfl
  have h31 : Int32.toInt 31 = 31 := rfl
  have h65535 : Int32.toInt 65535 = 65535 := rfl
  simp only [Shim.Date.InRange, gt_iff_lt, Int32.lt_iff_toInt_lt, h1, h12, h31, h65535]
  omega

/-- **Nothing in range changes when it is narrowed.** -/
theorem Shim.Date.InRange.narrowed (h : date.InRange) :
    (date.year.toUInt32.toUInt16.toNat : ℤ) = date.year.toInt ∧
      (date.month.toUInt32.toNat : ℤ) = date.month.toInt ∧
      (date.day.toUInt32.toUInt8.toNat : ℤ) = date.day.toInt := by
  obtain ⟨⟨hyear, hyear'⟩, ⟨hmonth, -⟩, hday, hday'⟩ := h
  exact ⟨toInt_toUInt16 (by omega) (by omega), toInt_toUInt32 (by omega),
    toInt_toUInt8 (by omega) (by omega)⟩

/-- In range, GLib's verdict on the narrowed fields is the calendar's on those sent. -/
theorem Shim.Date.InRange.valid_iff (h : date.InRange) :
    gDateValidDmy date.day.toUInt32.toUInt8 date.month.toUInt32 date.year.toUInt32.toUInt16 = true
      ↔ date.Valid := by
  obtain ⟨hyear, hmonth, hday⟩ := h.narrowed
  have hyear' : date.year.toInt.toNat = date.year.toUInt32.toUInt16.toNat := by omega
  have hmonth' : date.month.toInt.toNat = date.month.toUInt32.toNat := by omega
  simp only [gDateValidDmy, Bool.and_eq_true, decide_eq_true_eq, Shim.Date.Valid, IsGregorianDate,
    hyear', hmonth']
  obtain ⟨⟨hy, hy'⟩, ⟨hm, hm'⟩, hd, -⟩ := h
  omega

/-- **Dates cross the boundary exactly**: `DateFromProto` accepts the valid dates and no
others, narrows only what fits, keeps what it accepts as it was sent, and rejects the rest
with the one error. -/
theorem dates_exact (date : Shim.Date) (context : String) :
    ((∃ d, dateFromProto date context = .ok d) ↔ date.Valid) ∧
    (date.InRange → (date.year.toUInt32.toUInt16.toNat : ℤ) = date.year.toInt ∧
      (date.month.toUInt32.toNat : ℤ) = date.month.toInt ∧
      (date.day.toUInt32.toUInt8.toNat : ℤ) = date.day.toInt) ∧
    (∀ d, dateFromProto date context = .ok d → (d.year.toNat : ℤ) = date.year.toInt ∧
      (d.month.toNat : ℤ) = date.month.toInt ∧ (d.day.toNat : ℤ) = date.day.toInt ∧
      dateToProto d = date) ∧
    (¬date.Valid →
      dateFromProto date context = .error ⟨.invalidArgument, invalidDateMessage date, context⟩) := by
  -- within the range GLib is asked about the very numbers sent, outside it is not asked
  by_cases hrange : date.InRange
  · have hguard := inRange_iff.mp hrange
    have hrun : dateFromProto date context
        = if gDateValidDmy date.day.toUInt32.toUInt8 date.month.toUInt32
            date.year.toUInt32.toUInt16 = true
          then .ok ⟨date.day.toUInt32.toUInt8, date.month.toUInt32, date.year.toUInt32.toUInt16⟩
          else .error ⟨.invalidArgument, invalidDateMessage date, context⟩ := by
      unfold dateFromProto
      rw [if_neg hguard]
    by_cases hvalid : date.Valid
    · rw [if_pos (hrange.valid_iff.mpr hvalid)] at hrun
      refine ⟨⟨fun _ => hvalid, fun _ => ⟨_, hrun⟩⟩, fun _ => hrange.narrowed, ?_,
        fun hno => absurd hvalid hno⟩
      intro d hd
      have hproto := dateToProto_of_dateFromProto hd
      obtain rfl := Except.ok.inj (hrun.symm.trans hd)
      obtain ⟨hyear, hmonth, hday⟩ := hrange.narrowed
      exact ⟨hyear, hmonth, hday, hproto⟩
    · rw [if_neg (fun h => hvalid (hrange.valid_iff.mp h))] at hrun
      refine ⟨⟨?_, fun h => absurd h hvalid⟩, fun _ => hrange.narrowed, ?_, fun _ => hrun⟩
      · rintro ⟨d, hd⟩
        cases hrun.symm.trans hd
      · intro d hd
        cases hrun.symm.trans hd
  · have hrun : dateFromProto date context
        = .error ⟨.invalidArgument, invalidDateMessage date, context⟩ := by
      unfold dateFromProto
      rw [if_pos (not_not.mp fun h => hrange (inRange_iff.mpr h))]
    have hinvalid : ¬date.Valid := fun h => hrange h.inRange
    refine ⟨⟨?_, fun h => absurd h hinvalid⟩, fun h => absurd h hrange, ?_, fun _ => hrun⟩
    · rintro ⟨d, hd⟩
      cases hrun.symm.trans hd
    · intro d hd
      cases hrun.symm.trans hd

/-- The last day a `GDate` can hold, and the leap days of a century. -/
example : (dateFromProto ⟨65535, 12, 31⟩ "date").isOk = true ∧
    (dateFromProto ⟨2000, 2, 29⟩ "date").isOk = true ∧
    (dateFromProto ⟨1900, 2, 29⟩ "date").isOk = false ∧
    (dateFromProto ⟨65537, 1, 1⟩ "date").isOk = false := by decide +kernel

end Daichod
