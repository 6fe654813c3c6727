import Daichod.Engine.RunningSum
import Daichod.Engine.Session
import Daichod.Library.KeyedSums
import Mathlib.Data.String.Basic

/-!
# Daichod.Engine.CurrencySums

The sums over all splits of a book, one per currency, that the startup checks and the trial
balance keep. Both walk the splits in the order in which the engine's query lists them and add
each value to the sum under its transaction's currency; they differ in how they key it. A sum
is the running sum of the values under its key, so it is no error value exactly when each part
of them, from the front, has a sum that fits (`check_sums_iff`).
-/

universe u

namespace Daichod

section Keys

variable {κ : Type u} [LinearOrder κ] (key : CommodityName → κ) {k : κ}
  {listing : Session.SplitListing}

/-- What the listed splits add to the sums; one whose transaction has no currency adds
nothing. -/
def keyedEntries (listing : Session.SplitListing) : List (κ × GncNumeric) :=
  listing.filterMap fun entry => entry.1.2.currency.map fun currency => (key currency, entry.2.value)

/-- The values of the splits under a key, in the order listed. -/
def valuesUnder (k : κ) (listing : Session.SplitListing) : List GncNumeric :=
  (listing.filter fun entry => entry.1.2.currency.map key = some k).map fun entry => entry.2.value

theorem valuesAt_keyedEntries :
    KeyedSums.valuesAt k (keyedEntries key listing) = valuesUnder key k listing := by
  induction listing with
  | nil => rfl
  | cons entry listing ih =>
    unfold KeyedSums.valuesAt keyedEntries valuesUnder at ih ⊢
    cases hcurrency : entry.1.2.currency with
    | none => simpa [hcurrency] using ih
    | some currency =>
      by_cases hkey : key currency = k
      · simpa [hcurrency, hkey] using ih
      · simpa [hcurrency, hkey] using ih

/-- A walk over the splits that adds each value under its key. -/
theorem foldl_keyedEntries :
    listing.foldl (fun sums entry =>
      match entry.1.2.currency with
      | none => sums
      | some currency =>
        KeyedSums.add gncNumericAdd gncNumericZero (key currency) entry.2.value sums) []
      = KeyedSums.sums gncNumericAdd gncNumericZero (keyedEntries key listing) := by
  rw [KeyedSums.sums, keyedEntries, List.foldl_filterMap]
  congr
  funext sums entry
  cases entry.1.2.currency <;> rfl

/-- A key with values has their running sum. -/
theorem mem_sums_iff {sum : GncNumeric} :
    (k, sum) ∈ KeyedSums.sums gncNumericAdd gncNumericZero (keyedEntries key listing) ↔
      valuesUnder key k listing ≠ [] ∧ sum = runningSum (valuesUnder key k listing) := by
  rw [KeyedSums.mem_sums, valuesAt_keyedEntries]
  rfl

variable (hvalues : ∀ entry ∈ listing, entry.2.value.check = true)
include hvalues

theorem valuesUnder_check : ∀ value ∈ valuesUnder key k listing, value.check = true := by
  intro value hvalue
  obtain ⟨entry, hentry, rfl⟩ := List.mem_map.mp hvalue
  exact hvalues entry (List.mem_filter.mp hentry).1

/-- **When no sum is an error value.** -/
theorem check_sums_iff :
    (∀ entry ∈ KeyedSums.sums gncNumericAdd gncNumericZero (keyedEntries key listing),
        entry.2.check = true) ↔
      ∀ k front, front <+: valuesUnder key k listing → SumRepresentable front := by
  constructor
  · intro h k front hfront
    by_cases hnil : valuesUnder key k listing = []
    · rw [hnil] at hfront
      exact (check_runningSum_iff (fun _ hvalue => by cases hvalue)).mp rfl front hfront
    · have hmem := (mem_sums_iff key).mpr ⟨hnil, rfl⟩
      exact (check_runningSum_iff (valuesUnder_check key hvalues)).mp (h _ hmem) front hfront
  · rintro h ⟨k, sum⟩ hmem
    obtain ⟨-, rfl⟩ := (mem_sums_iff key).mp hmem
    exact (check_runningSum_iff (valuesUnder_check key hvalues)).mpr (h k)

end Keys

end Daichod
