import Daichod.Properties.StartupSums
import Daichod.Properties.WireNumerics

/-!
# Daichod.Properties.TrialBalance

**What the trial balance tells of the next start.** `GetTrialBalance` and `RunStartupChecks`
walk the same splits, the one with a sum for each namespace and mnemonic, the other with a sum
for each text of the two with a colon between them. A currency's namespace has no colon
(`Entity.denominated_steady`), so they keep the same sums: over a book that a run has filled,
the trial balance shows zeros and error values and nothing else, and the checks pass exactly
when it shows zeros and each transaction's own sum is one (`trialBalance_startup`).

## Proof shape

Both sums are `KeyedSums`, a running sum for each key over the one listing. Two keys that tell the
same currencies apart give the same sums (`currencySums_zero_iff`), which carries a fact from the
startup checks over to the trial balance and back. That a sum is zero or an error value comes from
`exactSum_valuesUnder`: over balanced transactions the exact sum is zero, and a running sum that
did not overflow is exact.
-/

namespace Daichod

/-! ### Currencies -/

/-- The name of a currency. -/
def CommodityName.IsCurrency (name : CommodityName) : Prop :=
  name.space = "CURRENCY" ∨ name.space = "GNC_LEGACY_CURRENCIES"

/-- The engine takes for a currency what is in one of two namespaces. -/
theorem gncCommodityIsCurrency_iff {c : Commodity} :
    gncCommodityIsCurrency c = true ↔ c.name.IsCurrency := by
  simp [gncCommodityIsCurrency, CommodityName.IsCurrency]

/-- The two keys tell currencies apart alike. -/
theorem currencyKey_eq_iff {name name' : CommodityName} (h : name.IsCurrency)
    (h' : name'.IsCurrency) :
    Session.currencyKey name = Session.currencyKey name' ↔ name = name' := by
  refine ⟨fun hkey => ?_, fun hname => congrArg _ hname⟩
  obtain ⟨space, mnemonic⟩ := name
  obtain ⟨space', mnemonic'⟩ := name'
  have hlists : space.toList ++ ':' :: mnemonic.toList
      = space'.toList ++ ':' :: mnemonic'.toList := by
    have htexts := congrArg String.toList hkey
    simpa [Session.currencyKey] using htexts
  rcases h with rfl | rfl <;> rcases h' with rfl | rfl
  · have hmnemonic : mnemonic = mnemonic' := String.ext (by simpa using hlists)
    rw [hmnemonic]
  · simp at hlists
  · simp at hlists
  · have hmnemonic : mnemonic = mnemonic' := String.ext (by simpa using hlists)
    rw [hmnemonic]

/-- The trial balance's key determines the name. -/
theorem trialKey_eq_iff {name name' : CommodityName} :
    trialKey name = trialKey name' ↔ name = name' := by
  obtain ⟨space, mnemonic⟩ := name
  obtain ⟨space', mnemonic'⟩ := name'
  simp [trialKey]

/-- Of a transaction: it has a currency. -/
def Entity.Denominated : (ref : EntityRef) → Entity ref → Prop
  | .transaction _, transaction =>
    ∃ name, (transaction : Transaction).currency = some name ∧ name.IsCurrency
  | _, _ => True

/-- **Transactions are in currencies**: `PlanTransaction` takes nothing else. -/
theorem Entity.denominated_steady [Engine] : Entity.Steady Entity.Denominated where
  account _ _ := trivial
  destroyed g t h := by
    unfold Transaction.destroy
    split
    · exact h
    · exact h
  settled _ _ h := h
  rerounded _ _ _ _ h := h
  priced _ _ _ _ _ _ _ := trivial
  listed _ _ _ := trivial
  relisted g t r hlisted h := by
    obtain ⟨name, hname, hcurrency⟩ := h
    exact ⟨name, hlisted.header.currency.trans hname, hcurrency⟩
  planned now b spec existing plan hplan newGuid g t _ := by
    obtain ⟨-, hcurrency, -⟩ := planTransaction_ok hplan
    exact ⟨plan.currency.name, (applyPlan_header plan t).currency,
      gncCommodityIsCurrency_iff.mp hcurrency⟩

/-! ### The two sums

A key sorts the listing's values into one list for each of its values. The lists of the two keys
are the same. -/

section Sums

variable {listing : Session.SplitListing} {name : CommodityName}

/-- A listing of splits of transactions in currencies. -/
def InCurrencies (listing : Session.SplitListing) : Prop :=
  ∀ entry ∈ listing, ∃ name, entry.1.2.currency = some name ∧ name.IsCurrency

/-- The values under a currency's text are those under its name. -/
theorem valuesUnder_currencyKey (hcurrencies : InCurrencies listing) (hname : name.IsCurrency) :
    valuesUnder Session.currencyKey (Session.currencyKey name) listing
      = valuesUnder trialKey (trialKey name) listing := by
  unfold valuesUnder
  refine congrArg _ (List.filter_congr fun entry hentry => ?_)
  obtain ⟨other, hother, hcurrency⟩ := hcurrencies entry hentry
  simp only [hother, Option.map_some, Option.some.injEq, decide_eq_decide]
  rw [currencyKey_eq_iff hcurrency hname, trialKey_eq_iff]

/-- A key with values is the key of the currency of a listed split. -/
theorem exists_of_valuesUnder {κ : Type} [LinearOrder κ] {key : CommodityName → κ} {k : κ}
    (hcurrencies : InCurrencies listing) (h : valuesUnder key k listing ≠ []) :
    ∃ entry ∈ listing, ∃ name, entry.1.2.currency = some name ∧ name.IsCurrency ∧
      key name = k := by
  obtain ⟨value, hvalue⟩ := List.exists_mem_of_ne_nil _ h
  obtain ⟨entry, hentry, -⟩ := List.mem_map.mp hvalue
  obtain ⟨hlisted, hkey⟩ := List.mem_filter.mp hentry
  obtain ⟨name, hname, hcurrency⟩ := hcurrencies entry hlisted
  refine ⟨entry, hlisted, name, hname, hcurrency, ?_⟩
  simpa [hname] using hkey

/-- A currency of some listed split has values under its key. -/
theorem valuesUnder_ne_nil {κ : Type} [LinearOrder κ] {key : CommodityName → κ}
    {entry : (Guid × Transaction) × Split} (hentry : entry ∈ listing)
    (hname : entry.1.2.currency = some name) : valuesUnder key (key name) listing ≠ [] := by
  refine List.ne_nil_of_mem (List.mem_map_of_mem (List.mem_filter.mpr ⟨hentry, ?_⟩))
  simp [hname]

/-- **The same sums** under different keys. -/
theorem currencySums_zero_iff (hcurrencies : InCurrencies listing) :
    (∀ entry ∈ Session.currencySums listing, entry.2.zeroP = true) ↔
      ∀ entry ∈ trialSums listing, entry.2.zeroP = true := by
  rw [currencySums_eq, trialSums_eq]
  constructor
  · rintro h ⟨k, sum⟩ hmem
    obtain ⟨hvalues, hsum⟩ := (mem_sums_iff trialKey).mp hmem
    obtain ⟨_, -, name, -, hcurrency, rfl⟩ := exists_of_valuesUnder hcurrencies hvalues
    rw [← valuesUnder_currencyKey hcurrencies hcurrency] at hvalues hsum
    exact h (_, sum) ((mem_sums_iff Session.currencyKey).mpr ⟨hvalues, hsum⟩)
  · rintro h ⟨k, sum⟩ hmem
    obtain ⟨hvalues, hsum⟩ := (mem_sums_iff Session.currencyKey).mp hmem
    obtain ⟨_, -, name, -, hcurrency, rfl⟩ := exists_of_valuesUnder hcurrencies hvalues
    rw [valuesUnder_currencyKey hcurrencies hcurrency] at hvalues hsum
    exact h (_, sum) ((mem_sums_iff trialKey).mpr ⟨hvalues, hsum⟩)

end Sums

/-! ### What is shown -/

/-- A rational that is zero. -/
def Shim.Numeric.IsZero (numeric : Shim.Numeric) : Prop :=
  numeric.num = 0 ∧ 0 < numeric.denom.toInt

/-- The trial balance of a book whose transactions balance. -/
structure Shim.TrialBalance.Shows (response : Shim.TrialBalance) (b : Book) : Prop where
  sorted : (response.entries.map fun entry =>
    toLex (entry.currency.space, entry.currency.mnemonic)).Pairwise (· < ·)
  /-- It has the currencies of the transactions with splits. -/
  currencies : ∀ id, id ∈ response.entries.map Shim.TrialBalanceEntry.currency ↔
    ∃ g t name, b.transaction g = some t ∧ t.splits ≠ [] ∧ t.currency = some name ∧
      id = commodityIdToProto name
  /-- What it shows is zero, or the error value of a sum that did not fit. -/
  sums : ∀ entry ∈ response.entries, entry.sum.IsZero ∨ entry.sum.denom = 0

section Shown

variable {b : Book} {listing : Session.SplitListing}

/-- A sum is shown as zero if it is one. -/
theorem isZero_iff {values : List GncNumeric} :
    (numericToProto (runningSum values)).IsZero ↔ (runningSum values).zeroP = true := by
  rw [Shim.Numeric.IsZero, GncNumeric.zeroP_iff, int64_toInt_eq_zero, ← runningSum_check_iff,
    and_comm]
  rfl

/-- A listing of the book has only transactions in currencies. -/
theorem inCurrencies_of_lists (hlists : Session.Lists listing b)
    (hdenominated : b.entities.All Entity.Denominated) : InCurrencies listing := by
  intro entry hentry
  obtain ⟨ht, -⟩ := Session.mem_of_lists hlists hentry
  exact hdenominated (.transaction entry.1.1) entry.1.2 ht

/-- A listing has every split of the book. -/
theorem listed_of_mem (hlists : Session.Lists listing b) {g : Guid} {t : Transaction} {s : Split}
    (ht : b.transaction g = some t) (hs : s ∈ t.splits) : ((g, t), s) ∈ listing := by
  have hmem : ((g, t), s) ∈ (listing : Multiset ((Guid × Transaction) × Split)) := by
    rw [hlists]
    refine Multiset.mem_bind.mpr ⟨(g, t), Book.mem_transactions.mpr ht, ?_⟩
    exact Multiset.mem_map.mpr ⟨s, hs, rfl⟩
  exact Multiset.mem_coe.mp hmem

/-- **Over a book whose transactions balance.** -/
theorem trialBalance_shows (hrest : AtRest b.entities)
    (hbalanced : b.entities.All Entity.Balanced)
    (hdenominated : b.entities.All Entity.Denominated) (hlists : Session.Lists listing b) :
    (Shim.TrialBalance.mk ((trialSums listing).map trialBalanceEntry)).Shows b := by
  -- in order: the entries are sorted, they are the currencies with splits, and each sum is zero or
  -- an error value
  have hcurrencies := inCurrencies_of_lists hlists hdenominated
  refine ⟨?_, fun id => ?_, fun entry hentry => ?_⟩
  · rw [List.map_map, trialSums_eq]
    exact (KeyedSums.sorted_sums _).map _ fun a b hab => hab
  · rw [List.map_map, List.mem_map]
    constructor
    · rintro ⟨⟨k, sum⟩, hmem, rfl⟩
      rw [trialSums_eq] at hmem
      obtain ⟨hvalues, -⟩ := (mem_sums_iff trialKey).mp hmem
      obtain ⟨entry, hentry, name, hname, -, rfl⟩ := exists_of_valuesUnder hcurrencies hvalues
      obtain ⟨ht, hs⟩ := Session.mem_of_lists hlists hentry
      exact ⟨_, _, name, ht, List.ne_nil_of_mem hs, hname, rfl⟩
    · rintro ⟨g, t, name, ht, hsplits, hname, rfl⟩
      obtain ⟨s, hs⟩ := List.exists_mem_of_ne_nil _ hsplits
      have hvalues : valuesUnder trialKey (trialKey name) listing ≠ [] :=
        valuesUnder_ne_nil (listed_of_mem hlists ht hs) hname
      refine ⟨(trialKey name, runningSum (valuesUnder trialKey (trialKey name) listing)), ?_, rfl⟩
      rw [trialSums_eq]
      exact (mem_sums_iff trialKey).mpr ⟨hvalues, rfl⟩
  · obtain ⟨⟨k, sum⟩, hmem, rfl⟩ := List.mem_map.mp hentry
    rw [trialSums_eq] at hmem
    obtain ⟨hvalues, rfl⟩ := (mem_sums_iff trialKey).mp hmem
    obtain ⟨_, -, name, -, hcurrency, rfl⟩ := exists_of_valuesUnder hcurrencies hvalues
    cases hcheck : (runningSum (valuesUnder trialKey (trialKey name) listing)).check with
    | false =>
      have hdenom : (runningSum (valuesUnder trialKey (trialKey name) listing)).denom = 0 := by
        simpa [GncNumeric.check] using hcheck
      exact Or.inr hdenom
    | true =>
      left
      refine isZero_iff.mpr ?_
      rw [GncNumeric.zeroP_iff_toRat hcheck, (sumsTo_runningSum hcheck).exact,
        ← valuesUnder_currencyKey hcurrencies hcurrency]
      exact exactSum_valuesUnder hrest hbalanced hlists _

/-- The sums are shown zero when they are. -/
theorem trialSums_zero_iff : (∀ entry ∈ trialSums listing, entry.2.zeroP = true) ↔
    ∀ entry ∈ (trialSums listing).map trialBalanceEntry, entry.sum.IsZero := by
  rw [List.forall_mem_map]
  refine forall₂_congr fun entry hentry => ?_
  obtain ⟨k, sum⟩ := entry
  rw [trialSums_eq] at hentry
  obtain ⟨-, rfl⟩ := (mem_sums_iff trialKey).mp hentry
  exact isZero_iff.symm

end Shown

/-- **The trial balance and the next start.** In every state of a run from a book without
transactions, whose requests ask for nothing that would be rounded, the trial balance lists the
currencies in use and shows no imbalance, and `RunStartupChecks` passes on the same listing
exactly when the trial balance shows zeros and the engine finds each transaction balanced. -/
theorem trialBalance_startup [Wire] [Engine] {config : Config} {b₀ : Book} {events : List Event}
    (hempty : ∀ g, b₀.transaction g = none) (hrest : AtRest b₀.entities)
    (hrun : Machine.Along Daemon.step Daemon.AtUnits (Daemon.fresh config b₀) events)
    {w : World} (hopen : w.session.isSome = true)
    (hbook : ((Daemon.fresh config b₀).run events).world.durableBook.Relisted w.book)
    {listing : Session.SplitListing} (hlists : Session.Lists listing w.book) :
    ∃ response, getTrialBalance listing w = .ok response w ∧ response.Shows w.book ∧
      ((∃ w', Session.runStartupChecks listing w = .ok () w') ↔
        (∀ entry ∈ response.entries, entry.sum.IsZero) ∧
          ∀ g t, w.book.transaction g = some t →
            (Session.xaccTransGetImbalanceValue t).zeroP = true) := by
  obtain ⟨b, hholds, hrest', hbalanced⟩ := books_balance hempty hrest hrun
  have hdenominated : b.entities.All Entity.Denominated := by
    have hstore : ((Daemon.fresh config b₀).run events).world.store.All Entity.Denominated := by
      refine Entity.denominated_steady.run (fun ref e he => ?_) fun book hbook => ?_
      · cases ref with
        | account g => trivial
        | price g => trivial
        | transaction g =>
          have hnone := hempty g
          rw [Book.transaction, he] at hnone
          cases hnone
      · have horderly : ∀ e ∈ events, e.Orderly :=
          Machine.along_of_forall.mp (hrun.mono fun _ _ he => he.1.1)
        exact absurd (horderly _ hbook) id
    rw [← hholds.durableBook]
    exact hstore.durable
  rw [hholds.durableBook] at hbook
  replace hrest' := hbook.atRest hrest'
  replace hbalanced := Entity.balanced_kept.of_relisted hbalanced hbook
  replace hdenominated := Entity.denominated_steady.of_relisted hdenominated hbook
  refine ⟨_, getTrialBalance_iff.mpr ⟨hopen, rfl, rfl⟩,
    trialBalance_shows hrest' hbalanced hdenominated hlists, ?_⟩
  rw [← trialSums_zero_iff, ← currencySums_zero_iff (inCurrencies_of_lists hlists hdenominated)]
  have hchecks : (∃ w', Session.runStartupChecks listing w = .ok () w') ↔
      Session.startupChecks listing = .ok () := by
    simp only [Session.runStartupChecks, Session.run_book_bind_iff, run_liftValid_bind_iff, hopen,
      true_and]
    constructor
    · rintro ⟨w', _, hchecks, -⟩
      exact hchecks
    · exact fun hchecks => ⟨_, (), hchecks, rfl⟩
  rw [hchecks, startupChecks_ok_iff, and_comm]
  refine and_congr_right fun _ => ⟨fun h g t ht => ?_, fun h entry hentry => ?_⟩
  · cases hsplits : t.splits with
    | nil =>
      -- Nothing to add up, and nothing of it in the listing.
      have hlive : t.liveSplits = [] := by simp [Transaction.liveSplits, hsplits]
      rw [Session.xaccTransGetImbalanceValue, hlive]
      rfl
    | cons s splits => exact h ((g, t), s) (listed_of_mem hlists ht (by simp [hsplits]))
  · obtain ⟨ht, -⟩ := Session.mem_of_lists hlists hentry
    exact h _ _ ht

/-! ### The trial balance of a large transaction -/

section Witness

open Reference

attribute [local instance] Reference.engine Reference.wire

/-- The extreme transaction's book: its sum does not fit, and the checks say so. -/
theorem trialBalance_startup_huge :
    ∃ response, getTrialBalance hugeListing hugeRun.world = .ok response hugeRun.world ∧
      response.Shows hugeRun.world.book ∧
      ((∃ w', Session.runStartupChecks hugeListing hugeRun.world = .ok () w') ↔
        (∀ entry ∈ response.entries, entry.sum.IsZero) ∧
          ∀ g t, hugeRun.world.book.transaction g = some t →
            (Session.xaccTransGetImbalanceValue t).zeroP = true) := by
  have hopen : hugeRun.world.session.isSome = true := by decide +kernel
  have hbook : hugeRun.world.durableBook.Relisted hugeRun.world.book := by
    have hsame : hugeRun.world.durableBook = hugeRun.world.book := by decide +kernel
    rw [hsame]
    exact .refl _
  have hlists : Session.Lists hugeListing hugeRun.world.book := by
    unfold Session.Lists
    decide +kernel
  exact trialBalance_startup book_transaction book_atRest hugeRun_atUnits hopen hbook hlists

end Witness

end Daichod
