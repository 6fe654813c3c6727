import Daichod.Engine.Numeric
import Mathlib.Data.List.Infix

/-!
# Daichod.Engine.RunningSum

Sums the engine keeps value by value, starting from `0/1` (`PlanTransaction`'s check, the
startup checks, the trial balance). The running sum is the exact sum over the least common
multiple of the denominators so far (`SumsTo`), for as long as that has an `int64` numerator
and an `int64` denominator; from the first prefix on that has not, it is an error value
(`check_runningSum_iff`).

Both directions are inductions along the list from its end: the sum of one value more is one
`gncNumericAdd` more, and an error value stays one.
-/

namespace Daichod

/-- The exact sum of some values. -/
def exactSum (values : List GncNumeric) : ℚ := (values.map GncNumeric.toRat).sum

/-- The least common multiple of their denominators. -/
def commonDenom (values : List GncNumeric) : ℕ :=
  values.foldl (fun d value => d.lcm value.denom.toInt.natAbs) 1

/-- The sum has an `int64` numerator over the `int64` common denominator. -/
def SumRepresentable (values : List GncNumeric) : Prop :=
  FitsInt64 (commonDenom values) ∧
    ∃ n : ℤ, FitsInt64 n ∧ exactSum values = n / (commonDenom values : ℤ)

/-- A running sum, behind some values. -/
structure SumsTo (values : List GncNumeric) (sum : GncNumeric) : Prop where
  check : sum.check = true
  exact : sum.toRat = exactSum values
  denom : sum.denom.toInt = commonDenom values

variable {values : List GncNumeric} {sum value : GncNumeric}

/-- One value more. -/
theorem exactSum_concat (values : List GncNumeric) (value : GncNumeric) :
    exactSum (values ++ [value]) = exactSum values + value.toRat := by
  simp [exactSum]

/-- One denominator more. -/
theorem commonDenom_concat (values : List GncNumeric) (value : GncNumeric) :
    commonDenom (values ++ [value]) = (commonDenom values).lcm value.denom.toInt.natAbs := by
  simp [commonDenom]

/-- The empty sum is zero over one. -/
theorem sumsTo_nil : SumsTo [] gncNumericZero :=
  ⟨rfl, by simp [exactSum], rfl⟩

/-- A sum that is not an error value has a positive denominator. -/
theorem SumsTo.denom_pos (h : SumsTo values sum) : 0 < sum.denom.toInt := by
  have hdenom := h.denom
  have hne := GncNumeric.check_iff.mp h.check
  omega

namespace SumsTo

variable (h : SumsTo values sum)
include h

/-- The common denominator of the sum and one more value. -/
theorem lcdDenom_eq (value : GncNumeric) :
    lcdDenom sum value = commonDenom (values ++ [value]) := by
  rw [lcdDenom, h.denom, commonDenom_concat, Int.lcm_def, Int.natAbs_natCast]

/-- Adding the next value to an exact sum is exact. -/
theorem exact_add (value : GncNumeric) :
    sum.toRat + value.toRat = exactSum (values ++ [value]) := by
  rw [exactSum_concat, h.exact]

/-- **One more value**, when the sum is no error value. -/
theorem add (hcheck : (gncNumericAdd sum value).check = true) :
    SumsTo (values ++ [value]) (gncNumericAdd sum value) where
  check := hcheck
  exact := (toRat_gncNumericAdd hcheck).trans (h.exact_add value)
  denom := by
    have hv := (check_gncNumericAdd_left hcheck).2
    obtain ⟨hnum, hdenom⟩ := (check_gncNumericAdd_iff h.check hv).mp hcheck
    rw [gncNumericAdd_of_fits h.check hv hnum hdenom, ← h.lcdDenom_eq]
    exact toInt_ofInt_of_fits hdenom

/-- **One more value**: the sum is no error value exactly when it is representable. -/
theorem check_add_iff (hv : value.check = true) :
    (gncNumericAdd sum value).check = true ↔ SumRepresentable (values ++ [value]) := by
  have hd : (lcdDenom sum value : ℚ) ≠ 0 := by exact_mod_cast lcdDenom_ne_zero h.check hv
  have hsum := lcdNum_div_lcdDenom h.check hv
  rw [h.exact_add] at hsum
  rw [check_gncNumericAdd_iff h.check hv, h.lcdDenom_eq]
  constructor
  · intro hfits
    obtain ⟨hnum, hdenom⟩ := hfits
    refine ⟨hdenom, lcdNum sum value, hnum, ?_⟩
    rw [← hsum, h.lcdDenom_eq]
  · intro hrepresentable
    obtain ⟨hdenom, n, hn, hexact⟩ := hrepresentable
    have hnum : lcdNum sum value = n := by
      rw [hexact, ← h.lcdDenom_eq, div_left_inj' hd] at hsum
      exact_mod_cast hsum
    exact ⟨hnum ▸ hn, hdenom⟩

end SumsTo

/-- The engine's sum of some values, one by one. -/
def runningSum (values : List GncNumeric) : GncNumeric := values.foldl gncNumericAdd gncNumericZero

/-- The loop's next round. -/
@[simp] theorem runningSum_concat (values : List GncNumeric) (value : GncNumeric) :
    runningSum (values ++ [value]) = gncNumericAdd (runningSum values) value := by
  simp [runningSum]

/-- A sum that has come out without an error value is the exact one. -/
theorem sumsTo_runningSum (h : (runningSum values).check = true) :
    SumsTo values (runningSum values) := by
  induction values using List.reverseRecOn with
  | nil => exact sumsTo_nil
  | append_singleton values value ih =>
    rw [runningSum_concat] at h ⊢
    exact (ih (check_gncNumericAdd_left h).1).add h

/-- **When a running sum is no error value**: every part of it is representable. -/
theorem check_runningSum_iff (hvalues : ∀ value ∈ values, value.check = true) :
    (runningSum values).check = true ↔ ∀ front, front <+: values → SumRepresentable front := by
  induction values using List.reverseRecOn with
  | nil =>
    refine ⟨fun _ front hfront => ?_, fun _ => rfl⟩
    obtain rfl := List.prefix_nil.mp hfront
    exact ⟨by decide, 0, by decide, by simp [exactSum, commonDenom]⟩
  | append_singleton values value ih =>
    have hvalues' : ∀ value ∈ values, value.check = true :=
      fun value hvalue => hvalues value (List.mem_append_left _ hvalue)
    have hvalue : value.check = true := hvalues value (by simp)
    rw [runningSum_concat]
    constructor
    · intro hcheck front hfront
      have hbefore := (check_gncNumericAdd_left hcheck).1
      rcases List.prefix_concat_iff.mp hfront with rfl | hfront
      · exact ((sumsTo_runningSum hbefore).check_add_iff hvalue).mp hcheck
      · exact (ih hvalues').mp hbefore front hfront
    · intro hfronts
      have hbefore := (ih hvalues').mpr fun front hfront =>
        hfronts front (hfront.trans (List.prefix_append _ _))
      exact ((sumsTo_runningSum hbefore).check_add_iff hvalue).mpr (hfronts _ List.prefix_rfl)

end Daichod
