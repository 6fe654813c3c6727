import Mathlib.Data.Rat.Cast.Order
import Mathlib.Tactic.FieldSimp
import Mathlib.Tactic.Linarith
import Mathlib.Tactic.Ring

/-!
# Daichod.Engine.Numeric

The engine's `gnc_numeric`: an `int64` over an `int64`, with every failed computation
reported in band as a value of denominator 0.

Arithmetic is stated against the rational a value denotes (`GncNumeric.toRat`). An
operation either returns the exact result or an error value, and `toRat` of a checked
result is the result of the rational operation. Rounding happens in one place only,
`gncNumericConvert`, which the split setters call; `storeRounded_exact_iff` says for
which amounts such a setter stores exactly what it is given.
-/

namespace Daichod

/-- Does an exact integer fit `int64`? -/
def FitsInt64 (z : ℤ) : Prop := -2 ^ 63 ≤ z ∧ z < 2 ^ 63

instance (z : ℤ) : Decidable (FitsInt64 z) := inferInstanceAs (Decidable (_ ∧ _))

/-- A machine integer is in its range. -/
theorem fitsInt64_toInt (x : Int64) : FitsInt64 x.toInt := ⟨x.le_toInt, x.toInt_lt⟩

/-- An integer in range survives the conversion. -/
theorem toInt_ofInt_of_fits {z : ℤ} (h : FitsInt64 z) : (Int64.ofInt z).toInt = z :=
  Int64.toInt_ofInt_of_le h.1 h.2

/-- Zero is told by its value. -/
theorem int64_toInt_eq_zero {x : Int64} : x.toInt = 0 ↔ x = 0 := by
  rw [← Int64.toInt_inj]
  simp

/-- `gnc_numeric`. -/
structure GncNumeric where
  num : Int64
  denom : Int64
  deriving Repr, DecidableEq

namespace GncNumeric

/-- The rational a value denotes (`0` for an error value). -/
def toRat (v : GncNumeric) : ℚ := v.num.toInt / v.denom.toInt

/-- `gnc_numeric_check(v) == GNC_ERROR_OK`. -/
def check (v : GncNumeric) : Bool := v.denom != 0

/-- `gnc_numeric_zero_p`. -/
def zeroP (v : GncNumeric) : Bool := v.check && v.num == 0

/-- A value is good unless its denominator is zero. -/
theorem check_iff {v : GncNumeric} : v.check = true ↔ v.denom.toInt ≠ 0 := by
  rw [Ne, int64_toInt_eq_zero]
  simp [check]

/-- A positive denominator is a good one. -/
theorem check_of_pos {v : GncNumeric} (h : 0 < v.denom.toInt) : v.check = true :=
  check_iff.mpr (by omega)

/-- The engine's test for zero, which no error value passes. -/
theorem zeroP_iff {v : GncNumeric} : v.zeroP = true ↔ v.check = true ∧ v.num.toInt = 0 := by
  simp [zeroP, int64_toInt_eq_zero]

/-- On a checked value `gnc_numeric_zero_p` decides whether the rational is zero. -/
theorem zeroP_iff_toRat {v : GncNumeric} (h : v.check = true) :
    v.zeroP = true ↔ v.toRat = 0 := by
  have hd : (v.denom.toInt : ℚ) ≠ 0 := by exact_mod_cast check_iff.mp h
  rw [zeroP_iff, toRat, div_eq_zero_iff]
  simp [h, hd]

end GncNumeric

open GncNumeric

/-! ### Arithmetic

Sums are formed over a common denominator, in integers, and then checked for the range. An operand
that is an error value makes the result one. -/

/-- `GNC_ERROR_ARG`, as `gnc_numeric_error` encodes it. -/
def gncErrorArg : GncNumeric := { num := -1, denom := 0 }

/-- `GNC_ERROR_OVERFLOW`, as `gnc_numeric_error` encodes it. -/
def gncErrorOverflow : GncNumeric := { num := -2, denom := 0 }

@[simp] theorem check_gncErrorArg : gncErrorArg.check = false := rfl
@[simp] theorem check_gncErrorOverflow : gncErrorOverflow.check = false := rfl

/-- `gnc_numeric_zero`. -/
def gncNumericZero : GncNumeric := { num := 0, denom := 1 }

@[simp] theorem check_gncNumericZero : gncNumericZero.check = true := rfl
@[simp] theorem toRat_gncNumericZero : gncNumericZero.toRat = 0 := by
  simp [gncNumericZero, toRat]

/-- `gnc_numeric_compare`; `0` where either value is an error value. -/
def gncNumericCompare (a b : GncNumeric) : ℤ :=
  if !a.check || !b.check then 0
  else if a.toRat < b.toRat then -1
  else if b.toRat < a.toRat then 1
  else 0

/-- The least common denominator of two values. -/
def lcdDenom (a b : GncNumeric) : ℤ := (Int.lcm a.denom.toInt b.denom.toInt : ℕ)

/-- The numerator of the exact sum over the least common denominator. -/
def lcdNum (a b : GncNumeric) : ℤ :=
  a.num.toInt * (lcdDenom a b / a.denom.toInt) + b.num.toInt * (lcdDenom a b / b.denom.toInt)

/-- `gnc_numeric_add(a, b, GNC_DENOM_AUTO, GNC_HOW_DENOM_LCD)`. -/
def gncNumericAdd (a b : GncNumeric) : GncNumeric :=
  if !a.check || !b.check then gncErrorArg
  else if FitsInt64 (lcdNum a b) ∧ FitsInt64 (lcdDenom a b) then
    { num := Int64.ofInt (lcdNum a b), denom := Int64.ofInt (lcdDenom a b) }
  else gncErrorOverflow

/-- The common denominator of two good values is not zero. -/
theorem lcdDenom_ne_zero {a b : GncNumeric} (ha : a.check = true) (hb : b.check = true) :
    lcdDenom a b ≠ 0 := by
  unfold lcdDenom
  exact_mod_cast Int.lcm_ne_zero (check_iff.mp ha) (check_iff.mp hb)

/-- Over the common denominator the numerator of the sum is the sum, exactly. -/
theorem lcdNum_div_lcdDenom {a b : GncNumeric} (ha : a.check = true) (hb : b.check = true) :
    (lcdNum a b : ℚ) / lcdDenom a b = a.toRat + b.toRat := by
  obtain ⟨p, hp⟩ : a.denom.toInt ∣ lcdDenom a b := Int.dvd_lcm_left _ _
  obtain ⟨q, hq⟩ : b.denom.toInt ∣ lcdDenom a b := Int.dvd_lcm_right _ _
  have hda := check_iff.mp ha
  have hdb := check_iff.mp hb
  have hd := lcdDenom_ne_zero ha hb
  have hap : lcdDenom a b / a.denom.toInt = p := by rw [hp, Int.mul_ediv_cancel_left _ hda]
  have hbq : lcdDenom a b / b.denom.toInt = q := by rw [hq, Int.mul_ediv_cancel_left _ hdb]
  have hda' : (a.denom.toInt : ℚ) ≠ 0 := by exact_mod_cast hda
  have hdb' : (b.denom.toInt : ℚ) ≠ 0 := by exact_mod_cast hdb
  have hd' : (lcdDenom a b : ℚ) ≠ 0 := by exact_mod_cast hd
  have hpq : (lcdDenom a b : ℚ) = a.denom.toInt * p := by exact_mod_cast hp
  have hqq : (lcdDenom a b : ℚ) = b.denom.toInt * q := by exact_mod_cast hq
  rw [lcdNum, hap, hbq, toRat, toRat]
  push_cast
  rw [div_add_div _ _ hda' hdb', div_eq_div_iff hd' (mul_ne_zero hda' hdb')]
  calc ((a.num.toInt : ℚ) * p + b.num.toInt * q) * (a.denom.toInt * b.denom.toInt)
      = a.num.toInt * b.denom.toInt * (a.denom.toInt * p)
          + a.denom.toInt * b.num.toInt * (b.denom.toInt * q) := by ring
    _ = (a.num.toInt * b.denom.toInt + a.denom.toInt * b.num.toInt) * lcdDenom a b := by
        rw [← hpq, ← hqq]; ring

/-- An error value is never added away. -/
theorem check_gncNumericAdd_left {a b : GncNumeric} (h : (gncNumericAdd a b).check = true) :
    a.check = true ∧ b.check = true := by
  unfold gncNumericAdd at h
  split at h
  · simp at h
  · next hab =>
    simp only [Bool.or_eq_true, Bool.not_eq_true', not_or, Bool.not_eq_false] at hab
    exact hab

/-- The sum is reported exactly when it fits, and then it is the exact sum over the
least common denominator. -/
theorem gncNumericAdd_of_fits {a b : GncNumeric} (ha : a.check = true) (hb : b.check = true)
    (hn : FitsInt64 (lcdNum a b)) (hd : FitsInt64 (lcdDenom a b)) :
    gncNumericAdd a b = ⟨Int64.ofInt (lcdNum a b), Int64.ofInt (lcdDenom a b)⟩ := by
  simp [gncNumericAdd, ha, hb, hn, hd]

/-- **A sum is good** exactly if both its parts over the common denominator fit. -/
theorem check_gncNumericAdd_iff {a b : GncNumeric} (ha : a.check = true) (hb : b.check = true) :
    (gncNumericAdd a b).check = true ↔ FitsInt64 (lcdNum a b) ∧ FitsInt64 (lcdDenom a b) := by
  constructor
  · intro h
    by_contra hno
    simp [gncNumericAdd, ha, hb, hno] at h
  · rintro ⟨hn, hd⟩
    rw [gncNumericAdd_of_fits ha hb hn hd, check_iff]
    simpa only [toInt_ofInt_of_fits hd] using lcdDenom_ne_zero ha hb

/-- **Checked addition is exact.** -/
theorem toRat_gncNumericAdd {a b : GncNumeric} (h : (gncNumericAdd a b).check = true) :
    (gncNumericAdd a b).toRat = a.toRat + b.toRat := by
  obtain ⟨ha, hb⟩ := check_gncNumericAdd_left h
  obtain ⟨hn, hd⟩ := (check_gncNumericAdd_iff ha hb).mp h
  rw [gncNumericAdd_of_fits ha hb hn hd, ← lcdNum_div_lcdDenom ha hb, toRat]
  simp only [toInt_ofInt_of_fits hn, toInt_ofInt_of_fits hd]

/-! ### Rounding to a fraction

The setters of a split convert an amount to the fraction of its commodity, rounding half up, and
refuse a conversion that leaves the range: the split then keeps what it had. -/

/-- `p / q` to the nearest integer, ties away from zero (`GNC_HOW_RND_ROUND_HALF_UP`). -/
def roundHalfUp (p q : ℤ) : ℤ :=
  if 0 ≤ p then (2 * p + q) / (2 * q) else -((2 * -p + q) / (2 * q))

/-- Multiples need no rounding. -/
theorem roundHalfUp_mul {q : ℤ} (hq : 0 < q) (k : ℤ) : roundHalfUp (k * q) q = k := by
  have half (m : ℤ) : (2 * (m * q) + q) / (2 * q) = m := by
    have h1 : 2 * (m * q) + q = q + m * (2 * q) := by ring
    -- The half that is added is too small to make a difference.
    rw [h1, Int.add_mul_ediv_right _ _ (by omega), Int.ediv_eq_zero_of_lt (by omega) (by omega)]
    omega
  unfold roundHalfUp
  split
  · exact half k
  · rw [show 2 * -(k * q) + q = 2 * (-k * q) + q by ring, half (-k), neg_neg]

/-- `gnc_numeric_convert(v, fraction, GNC_HOW_RND_ROUND_HALF_UP)`. -/
def gncNumericConvert (v : GncNumeric) (fraction : Int64) : GncNumeric :=
  if !v.check then gncErrorArg
  else
    let n := roundHalfUp (v.num.toInt * fraction.toInt) v.denom.toInt
    if FitsInt64 n then { num := Int64.ofInt n, denom := fraction } else gncErrorOverflow

/-- What `xaccSplitSetValue` and `xaccSplitSetAmount` leave in the field: the amount
rounded to `fraction`, or the old value where that fails or would turn a nonzero amount
into zero. -/
def storeRounded (fraction : Int64) (old v : GncNumeric) : GncNumeric :=
  let new := gncNumericConvert v fraction
  if new.check && !(new.zeroP && !v.zeroP) then new else old

/-- `v` is an `int64` multiple of `1 / fraction`. -/
def Representable (fraction : Int64) (v : GncNumeric) : Prop :=
  ∃ k : ℤ, FitsInt64 k ∧ v.num.toInt * fraction.toInt = k * v.denom.toInt

/-- The setter refuses `v`: rounded to `fraction` it does not fit, or it vanishes. -/
def Refused (fraction : Int64) (v : GncNumeric) : Prop :=
  ¬FitsInt64 (roundHalfUp (v.num.toInt * fraction.toInt) v.denom.toInt) ∨
    (roundHalfUp (v.num.toInt * fraction.toInt) v.denom.toInt = 0 ∧ v.num.toInt ≠ 0)

instance (fraction : Int64) (v : GncNumeric) : Decidable (Refused fraction v) :=
  inferInstanceAs (Decidable (_ ∨ _))

/-- A conversion within the range. -/
theorem gncNumericConvert_of_fits {v : GncNumeric} {f : Int64} (hv : v.check = true)
    (h : FitsInt64 (roundHalfUp (v.num.toInt * f.toInt) v.denom.toInt)) :
    gncNumericConvert v f
      = ⟨Int64.ofInt (roundHalfUp (v.num.toInt * f.toInt) v.denom.toInt), f⟩ := by
  simp [gncNumericConvert, hv, h]

/-- A refused amount leaves the old one. -/
theorem storeRounded_of_refused {f : Int64} {old v : GncNumeric} (hv : v.check = true)
    (h : Refused f v) : storeRounded f old v = old := by
  unfold storeRounded
  by_cases hn : FitsInt64 (roundHalfUp (v.num.toInt * f.toInt) v.denom.toInt)
  · obtain ⟨h0, hv0⟩ : _ ∧ _ := h.resolve_left (not_not.mpr hn)
    have hz : v.zeroP = false := by
      rw [← Bool.not_eq_true, zeroP_iff]
      exact fun hz => hv0 hz.2
    rw [gncNumericConvert_of_fits hv hn, h0, hz]
    simp [zeroP]
  · simp [gncNumericConvert, hv, hn]

/-- Any other amount is stored, rounded. -/
theorem storeRounded_of_not_refused {f : Int64} {old v : GncNumeric} (hf : 0 < f.toInt)
    (hv : v.check = true) (h : ¬Refused f v) :
    storeRounded f old v
      = ⟨Int64.ofInt (roundHalfUp (v.num.toInt * f.toInt) v.denom.toInt), f⟩ := by
  obtain ⟨hn, hz⟩ := not_or.mp h
  have hn := not_not.mp hn
  have hcheck : ∀ n : Int64, GncNumeric.check ⟨n, f⟩ = true := fun n => check_of_pos hf
  unfold storeRounded
  rw [gncNumericConvert_of_fits hv hn]
  simp only [hcheck, Bool.true_and]
  rw [if_pos]
  rw [Bool.not_eq_true', Bool.and_eq_false_iff]
  by_cases h0 : roundHalfUp (v.num.toInt * f.toInt) v.denom.toInt = 0
  · right
    rw [Bool.not_eq_false', zeroP_iff]
    exact ⟨hv, not_not.mp fun hne => hz ⟨h0, hne⟩⟩
  · left
    rw [← Bool.not_eq_true, zeroP_iff]
    rintro ⟨-, hzero⟩
    exact h0 (by rw [← toInt_ofInt_of_fits hn]; exact hzero)

/-- An amount that is a multiple of the fraction is never refused, and not rounded. -/
theorem not_refused_of_representable {f : Int64} {v : GncNumeric} (hf : 0 < f.toInt)
    (hd : 0 < v.denom.toInt) (h : Representable f v) :
    ¬Refused f v ∧ ∃ k : ℤ, v.num.toInt * f.toInt = k * v.denom.toInt ∧
      roundHalfUp (v.num.toInt * f.toInt) v.denom.toInt = k := by
  obtain ⟨k, hk, he⟩ := h
  have hr : roundHalfUp (v.num.toInt * f.toInt) v.denom.toInt = k := by
    rw [he, roundHalfUp_mul hd]
  refine ⟨?_, k, he, hr⟩
  rintro (hno | ⟨h0, hne⟩)
  · exact hno (hr ▸ hk)
  · rw [hr] at h0
    rw [h0, zero_mul] at he
    rcases mul_eq_zero.mp he with h | h
    · exact hne h
    · omega

/-- **When a setter stores exactly what it is given**: the amount is a multiple of the
smallest unit, or the setter refuses it and the old value was already equal. -/
theorem storeRounded_exact_iff {f : Int64} {old v : GncNumeric} (hf : 0 < f.toInt)
    (hd : 0 < v.denom.toInt) :
    (storeRounded f old v).toRat = v.toRat ↔
      Representable f v ∨ (Refused f v ∧ old.toRat = v.toRat) := by
  have hv := check_of_pos hd
  have hfq : (f.toInt : ℚ) ≠ 0 := by exact_mod_cast hf.ne'
  have hdq : (v.denom.toInt : ℚ) ≠ 0 := by exact_mod_cast hd.ne'
  by_cases hr : Refused f v
  · rw [storeRounded_of_refused hv hr]
    constructor
    · exact fun h => Or.inr ⟨hr, h⟩
    · rintro (hrep | ⟨-, h⟩)
      · exact absurd hr (not_refused_of_representable hf hd hrep).1
      · exact h
  · have hn := not_not.mp (not_or.mp hr).1
    rw [storeRounded_of_not_refused hf hv hr, toRat, toRat, toInt_ofInt_of_fits hn,
      div_eq_div_iff hfq hdq]
    constructor
    · intro h
      exact Or.inl ⟨_, hn, by exact_mod_cast h.symm⟩
    · rintro (hrep | ⟨hr', -⟩)
      · obtain ⟨-, k, he, hk⟩ := not_refused_of_representable hf hd hrep
        rw [hk]
        exact_mod_cast he.symm
      · exact absurd hr' hr

/-- What is stored for a representable amount has the denominator of the fraction. -/
theorem storeRounded_denom {f : Int64} {old v : GncNumeric} (hf : 0 < f.toInt)
    (hd : 0 < v.denom.toInt) (h : Representable f v) : (storeRounded f old v).denom = f := by
  rw [storeRounded_of_not_refused hf (check_of_pos hd) (not_refused_of_representable hf hd h).1]

/-- A setter never leaves an error value where there was none. -/
theorem storeRounded_denom_pos {f : Int64} {old v : GncNumeric} (hf : 0 < f.toInt)
    (hold : 0 < old.denom.toInt) : 0 < (storeRounded f old v).denom.toInt := by
  unfold storeRounded
  dsimp only
  split
  · next hnew =>
    have hcheck := (Bool.and_eq_true_iff.mp hnew).1
    unfold gncNumericConvert at hcheck ⊢
    dsimp only at hcheck ⊢
    split at hcheck
    · cases hcheck
    · next hv =>
      rw [if_neg hv]
      split at hcheck
      · next hfits =>
        rw [if_pos hfits]
        exact hf
      · cases hcheck
  · exact hold

end Daichod
