import Daichod.Reference.Days
import Daichod.Rpc.GetPrices

/-!
# Daichod.Properties.PriceDates

**Whether a range of dates means what it says** (`getPrices_between_iff`). `GetPrices` compares
times, and a bound in a year before 1400 has none: the engine answers `INT64_MAX` for it, so an
early lower bound drops every price and an early upper bound drops none. All other bounds,
those behind year 9999 too, are the bounds they stand for.

## Proof shape

`inTimes_iff` says in terms of days what the loop keeps: with an early bound it keeps nothing on
the lower side and everything on the upper. The rest is a case analysis on which bound is early
(`pricesBetween_eq_iff`).
-/

namespace Daichod

/-- A date between two bounds, both included; an unset bound is open. -/
def Between (dateFrom dateTo : Option GDate) (d : GDate) : Prop :=
  (∀ bound ∈ dateFrom, bound.ymd ≤ d.ymd) ∧ ∀ bound ∈ dateTo, d.ymd ≤ bound.ymd

instance (dateFrom dateTo : Option GDate) (d : GDate) : Decidable (Between dateFrom dateTo d) :=
  inferInstanceAs (Decidable (_ ∧ _))

/-- A price outside a range lies before its lower bound or behind its upper one. -/
theorem not_between_iff {dateFrom dateTo : Option GDate} {d : GDate} :
    ¬Between dateFrom dateTo d ↔
      (∃ bound ∈ dateFrom, d.ymd < bound.ymd) ∨ ∃ bound ∈ dateTo, bound.ymd < d.ymd := by
  simp only [Between, not_and_or, not_forall, not_le, exists_prop]

/-- A bound in a year before those that are converted. -/
def Early (bound : Option GDate) : Prop := ∃ d ∈ bound, d.year.toNat < 1400

instance (bound : Option GDate) : Decidable (Early bound) :=
  inferInstanceAs (Decidable (∃ d ∈ bound, _))

section Ranges

variable [Engine] [DayTimes]

/-- The day of a price. -/
def Price.day (price : Price) : GDate := Engine.time64ToGdate price.time

/-- The time of a price lies within its day, and that in years that are converted. -/
def Price.Dated (price : Price) : Prop := price.day.Holds price.time

/-- What the loop keeps, in terms of days. -/
theorem inTimes_iff (laws : DayTimes.Lawful) {price : Price} (hprice : price.Dated)
    {dateFrom dateTo : Option GDate} (hfrom : ∀ d ∈ dateFrom, d.valid = true)
    (hto : ∀ d ∈ dateTo, d.valid = true) :
    inTimes (dateFrom.map DayTimes.dmy2time64) (dateTo.map DayTimes.dmy2time64End) price.time = true
      ↔ (∀ bound ∈ dateFrom, 1400 ≤ bound.year.toNat ∧ bound.ymd ≤ price.day.ymd) ∧
        ∀ bound ∈ dateTo, bound.year.toNat < 1400 ∨ price.day.ymd ≤ bound.ymd := by
  have hlower : ∀ bound ∈ dateFrom, (¬price.time < DayTimes.dmy2time64 bound ↔
      1400 ≤ bound.year.toNat ∧ bound.ymd ≤ price.day.ymd) := by
    intro bound hbound
    rw [Int64.not_lt]
    exact hprice.first_le_iff laws (hfrom bound hbound)
  have hupper : ∀ bound ∈ dateTo, (¬price.time > DayTimes.dmy2time64End bound ↔
      bound.year.toNat < 1400 ∨ price.day.ymd ≤ bound.ymd) := by
    intro bound hbound
    rw [gt_iff_lt, Int64.not_lt]
    exact hprice.le_last_iff laws (hto bound hbound)
  have hsplit : inTimes (dateFrom.map DayTimes.dmy2time64) (dateTo.map DayTimes.dmy2time64End)
      price.time = true ↔ (∀ bound ∈ dateFrom, ¬price.time < DayTimes.dmy2time64 bound) ∧
        ∀ bound ∈ dateTo, ¬price.time > DayTimes.dmy2time64End bound := by
    simp only [inTimes, Bool.and_eq_true, Bool.not_eq_true', Option.any_map]
    rw [Bool.eq_false_iff, Bool.eq_false_iff]
    cases dateFrom <;> cases dateTo <;> simp
  rw [hsplit]
  exact and_congr (forall₂_congr hlower) (forall₂_congr hupper)

variable {dateFrom dateTo : Option GDate} {listed : List (Guid × Price)}

omit [DayTimes] in
/-- An empty message lists no price. -/
theorem priceListToProto_eq_nil_iff :
    priceListToProto listed = priceListToProto [] ↔ listed = [] := by
  simp [priceListToProto]

/-- An early lower bound drops every price. -/
theorem pricesBetween_of_early_from (laws : DayTimes.Lawful) (hdated : ∀ p ∈ listed, p.2.Dated)
    (hfrom : ∀ d ∈ dateFrom, d.valid = true) (hto : ∀ d ∈ dateTo, d.valid = true)
    (hearly : Early dateFrom) : pricesBetween dateFrom dateTo listed = [] := by
  refine List.filter_eq_nil_iff.mpr fun p hp => ?_
  rw [inTimes_iff laws (hdated p hp) hfrom hto]
  rintro ⟨hlower, -⟩
  obtain ⟨bound, hbound, hyear⟩ := hearly
  exact absurd (hlower bound hbound).1 (not_le.mpr hyear)

/-- Where the lower bound is not early, the loop is right about it, and about the upper bound
if that is not early either. -/
theorem pricesBetween_of_not_early_from (laws : DayTimes.Lawful)
    (hdated : ∀ p ∈ listed, p.2.Dated) (hfrom : ∀ d ∈ dateFrom, d.valid = true)
    (hto : ∀ d ∈ dateTo, d.valid = true) (hlate : ¬Early dateFrom) :
    pricesBetween dateFrom dateTo listed
      = listed.filter fun p => Between dateFrom (if Early dateTo then none else dateTo) p.2.day := by
  refine List.filter_congr fun p hp => ?_
  rw [Bool.eq_iff_iff, inTimes_iff laws (hdated p hp) hfrom hto, decide_eq_true_iff, Between]
  refine and_congr (forall₂_congr fun bound hbound => ?_) ?_
  · refine and_iff_right (not_lt.mp fun hyear => hlate ⟨bound, hbound, hyear⟩)
  · by_cases hearly : Early dateTo
    · rw [if_pos hearly]
      obtain ⟨bound, hbound, hyear⟩ := hearly
      refine ⟨fun _ _ h => (Option.not_mem_none _ h).elim, fun _ bound' hbound' => Or.inl ?_⟩
      rwa [Option.mem_unique hbound' hbound]
    · rw [if_neg hearly]
      exact forall₂_congr fun bound hbound =>
        or_iff_right fun hyear => hearly ⟨bound, hbound, hyear⟩

/-- Days that are converted are not early. -/
theorem Price.Dated.ymd_of_early {price : Price} (h : price.Dated) {bound : GDate}
    (hyear : bound.year.toNat < 1400) : bound.ymd < price.day.ymd :=
  GDate.ymd_lt_of_year (lt_of_lt_of_le hyear h.converts.1)

/-- **When the loop keeps exactly the prices between the bounds.** -/
theorem pricesBetween_eq_iff (laws : DayTimes.Lawful) (hdated : ∀ p ∈ listed, p.2.Dated)
    (hfrom : ∀ d ∈ dateFrom, d.valid = true) (hto : ∀ d ∈ dateTo, d.valid = true) :
    priceListToProto (pricesBetween dateFrom dateTo listed)
        = priceListToProto (listed.filter fun p => Between dateFrom dateTo p.2.day) ↔
      (Early dateFrom → ∀ p ∈ listed, ∃ bound ∈ dateTo, bound.ymd < p.2.day.ymd) ∧
      (Early dateTo → Early dateFrom ∨
        ∀ p ∈ listed, ∃ bound ∈ dateFrom, p.2.day.ymd < bound.ymd) := by
  by_cases hfirst : Early dateFrom
  · -- Nothing is kept: right where the upper bound drops everything too.
    rw [pricesBetween_of_early_from laws hdated hfrom hto hfirst, eq_comm,
      priceListToProto_eq_nil_iff, List.filter_eq_nil_iff]
    simp only [decide_eq_true_eq, not_between_iff]
    have hafter : ∀ p ∈ listed, ¬∃ bound ∈ dateFrom, p.2.day.ymd < bound.ymd := by
      rintro p hp ⟨bound, hbound, hlt⟩
      obtain ⟨bound', hbound', hyear⟩ := hfirst
      obtain rfl := Option.mem_unique hbound hbound'
      exact lt_asymm hlt ((hdated p hp).ymd_of_early hyear)
    refine ⟨fun h => ⟨fun _ p hp => (h p hp).resolve_left (hafter p hp), fun _ => Or.inl hfirst⟩,
      fun h p hp => Or.inr (h.1 hfirst p hp)⟩
  · rw [pricesBetween_of_not_early_from laws hdated hfrom hto hfirst]
    by_cases hlast : Early dateTo
    · -- Nothing should be kept, and the upper bound drops nothing.
      have hnone : listed.filter (fun p => Between dateFrom dateTo p.2.day) = [] := by
        refine List.filter_eq_nil_iff.mpr fun p hp => ?_
        obtain ⟨bound, hbound, hyear⟩ := hlast
        simp only [decide_eq_true_eq]
        exact fun hbetween => absurd (hbetween.2 bound hbound)
          (not_le.mpr ((hdated p hp).ymd_of_early hyear))
      rw [hnone, if_pos hlast, priceListToProto_eq_nil_iff, List.filter_eq_nil_iff]
      simp only [decide_eq_true_eq, not_between_iff, Option.not_mem_none, false_and, exists_false,
        or_false]
      exact ⟨fun h => ⟨fun hearly => absurd hearly hfirst, fun _ => Or.inr h⟩,
        fun h => (h.2 hlast).resolve_left hfirst⟩
    · rw [if_neg hlast]
      exact iff_of_true rfl ⟨fun h => absurd h hfirst, fun h => absurd h hlast⟩

/-- **When a range of dates means what it says.** Of the prices the engine lists, dated within
the years that it converts, `GetPrices` returns those between the dates, in the engine's order,
exactly when an early lower bound would have dropped them all anyway, for an upper bound
before them, and an early upper bound too, for a lower bound behind them. -/
theorem getPrices_between_iff [Wire] (laws : DayTimes.Lawful) {w : World}
    {list : Commodity → Option Commodity → List (Guid × Price)} {request : Shim.GetPricesRequest}
    {commodity : Commodity} {currency : Option Commodity} (hopen : w.session.isSome = true)
    (hcommodity : findCommodity w.book request.commodity "commodity" = .ok commodity)
    (hcurrency : request.currency.mapM (findCommodity w.book · "currency") = .ok currency)
    (hfrom : dateBound request.dateFrom "date_from" = .ok dateFrom)
    (hto : dateBound request.dateTo "date_to" = .ok dateTo)
    (hdated : ∀ p ∈ list commodity currency, p.2.Dated) :
    getPrices list request w = .ok (priceListToProto
        ((list commodity currency).filter fun p => Between dateFrom dateTo p.2.day)) w ↔
      (Early dateFrom →
        ∀ p ∈ list commodity currency, ∃ bound ∈ dateTo, bound.ymd < p.2.day.ymd) ∧
      (Early dateTo → Early dateFrom ∨
        ∀ p ∈ list commodity currency, ∃ bound ∈ dateFrom, p.2.day.ymd < bound.ymd) := by
  have hrun : getPrices list request w
      = .ok (priceListToProto (pricesBetween dateFrom dateTo (list commodity currency))) w :=
    getPrices_iff.mpr ⟨hopen, _, hcommodity, _, hcurrency, _, hfrom, _, hto, rfl, rfl⟩
  rw [hrun, ← pricesBetween_eq_iff laws hdated (dateBound_valid hfrom) (dateBound_valid hto)]
  constructor
  · intro h
    injection h
  · intro h
    rw [h]

end Ranges

/-! ### A lower bound in the year 1399 -/

section Witness

open Reference

attribute [local instance] Reference.engine Reference.wire Reference.dayTimes

/-- The price of a dollar on a leap day. -/
def leapDayPrice : Price where
  commodity := usd.name
  currency := usd.name
  time := Engine.dmy2time64Neutral ⟨29, 2, 2024⟩
  value := gncNumericZero
  source := "user:price"
  inDb := true

/-- The day of this price, -/
theorem leapDayPrice_day : leapDayPrice.day = ⟨29, 2, 2024⟩ := by decide +kernel

/-- and its time lies within it. -/
theorem leapDayPrice_dated : leapDayPrice.Dated := by
  refine ⟨?_, ?_, ?_, ?_⟩ <;> rw [leapDayPrice_day] <;> decide +kernel

/-- Prices of dollars between two dates. -/
def usdPrices (dateFrom dateTo : Option Shim.Date) : Shim.GetPricesRequest where
  commodity := ⟨"CURRENCY", "USD"⟩
  currency := none
  dateFrom := dateFrom
  dateTo := dateTo

/-- The example daemon has its book open, -/
theorem started_isSome : started.world.session.isSome = true := by decide +kernel

/-- with the dollar in its commodity table. -/
theorem findCommodity_usd (context : String) :
    findCommodity started.world.book ⟨"CURRENCY", "USD"⟩ context = .ok usd := by
  have hlookup : book.lookupCommodity "CURRENCY" "USD" = some usd := by decide +kernel
  rw [started_book, findCommodity, hlookup]

/-- A price of the leap day, asked for with the whole of that February. -/
theorem getPrices_between_iff_february :
    getPrices (fun _ _ => [(9, leapDayPrice)]) (usdPrices (some ⟨2024, 2, 1⟩) (some ⟨2024, 2, 29⟩))
        started.world
      = .ok (priceListToProto ([(9, leapDayPrice)].filter fun p =>
          Between (some ⟨1, 2, 2024⟩) (some ⟨29, 2, 2024⟩) p.2.day)) started.world ↔
      (Early (some ⟨1, 2, 2024⟩) → ∀ p ∈ [((9 : Guid), leapDayPrice)],
        ∃ bound ∈ some (⟨29, 2, 2024⟩ : GDate), bound.ymd < p.2.day.ymd) ∧
      (Early (some ⟨29, 2, 2024⟩) → Early (some ⟨1, 2, 2024⟩) ∨ ∀ p ∈ [((9 : Guid), leapDayPrice)],
        ∃ bound ∈ some (⟨1, 2, 2024⟩ : GDate), p.2.day.ymd < bound.ymd) := by
  have hfrom : dateBound (some ⟨2024, 2, 1⟩) "date_from" = .ok (some ⟨1, 2, 2024⟩) := by decide +kernel
  have hto : dateBound (some ⟨2024, 2, 29⟩) "date_to" = .ok (some ⟨29, 2, 2024⟩) := by decide +kernel
  refine getPrices_between_iff dayTimes_lawful started_isSome (findCommodity_usd _) rfl hfrom hto ?_
  intro p hp
  rw [List.mem_singleton.mp hp]
  exact leapDayPrice_dated

/-- Asked for the prices from the end of 1399 on, the daemon does not find one of 2024. -/
theorem prices_dropped :
    leapDayPrice.Dated ∧
    dateBound (some ⟨1399, 12, 31⟩) "date_from" = .ok (some ⟨31, 12, 1399⟩) ∧
    getPrices (fun _ _ => [(9, leapDayPrice)]) (usdPrices (some ⟨1399, 12, 31⟩) none) started.world
      ≠ .ok (priceListToProto ([(9, leapDayPrice)].filter fun p =>
          Between (some ⟨31, 12, 1399⟩) none p.2.day)) started.world := by
  have hfrom : dateBound (some ⟨1399, 12, 31⟩) "date_from" = .ok (some ⟨31, 12, 1399⟩) := by
    decide +kernel
  have hrun : getPrices (fun _ _ => [(9, leapDayPrice)]) (usdPrices (some ⟨1399, 12, 31⟩) none)
      started.world = .ok (priceListToProto (pricesBetween (some ⟨31, 12, 1399⟩) none
        [(9, leapDayPrice)])) started.world :=
    getPrices_iff.mpr ⟨started_isSome, usd, findCommodity_usd _, none, rfl, _, hfrom, _, rfl, rfl,
      rfl⟩
  refine ⟨leapDayPrice_dated, hfrom, ?_⟩
  rw [hrun]
  intro h
  injection h with h
  have hdated : ∀ p ∈ [((9 : Guid), leapDayPrice)], p.2.Dated := by
    intro p hp
    rw [List.mem_singleton.mp hp]
    exact leapDayPrice_dated
  obtain ⟨bound, hbound, -⟩ := ((pricesBetween_eq_iff dayTimes_lawful hdated
    (dateBound_valid hfrom) (dateBound_valid (rfl : dateBound none "date_to" = .ok none))).mp h).1 ⟨_, rfl, by decide⟩ _ List.mem_cons_self
  exact Option.not_mem_none _ hbound

end Witness

end Daichod
