import Daichod.Engine.CurrencySums
import Daichod.Entities
import Daichod.Properties.ExactMoney
import Daichod.Properties.FullReplacement
import Daichod.Properties.WireNumerics
import Mathlib.Algebra.BigOperators.Ring.Multiset

/-!
# Daichod.Properties.StartupSums

**Whether a book passes the startup checks** (`startup_iff`). What `PlanTransaction` accepts at
the smallest units of its currency is stored as it is, and balances, in every state of a run.
The startup checks add it all up again: each transaction in the order of its splits, and all of
the book in the order of the listing, one sum per currency. Each of these sums comes to zero,
and each passes exactly when no part of it, from the front, leaves the range of an `int64`.

## Proof shape

`Transaction.Balanced` is kept by every edit (`Entity.balanced_kept`, and `applyPlan_balanced` for
what a plan writes), so every stored transaction balances (`books_balance`). The exact sums of the
checks are then zero. What is left is whether the engine's running sums get there, which is a
matter of their prefixes (`zeroP_runningSum_iff`).
-/

namespace Daichod

/-! ### Stored transactions balance

The balance of a transaction is about its live splits. It has to survive everything the engine
does to a transaction: marking for destruction, settling, rounding to a commodity, loading in
another order. -/

/-- A transaction whose live splits balance, and can be replaced. -/
structure Transaction.Balanced (t : Transaction) : Prop where
  writable : t.readOnly = false
  distinct : (t.splits.map Split.guid).Nodup
  valid : ∀ s ∈ t.liveSplits, s.value.check = true
  balanced : (t.liveSplits.map fun s => s.value.toRat).sum = 0

/-- `Transaction.Balanced`, of any entity. -/
def Entity.Balanced : (ref : EntityRef) → Entity ref → Prop
  | .transaction _, transaction => Transaction.Balanced transaction
  | _, _ => True

/-- What of the splits the balance is about. -/
theorem Transaction.Balanced.of_map {t : Transaction} (h : t.Balanced) {f : Split → Split}
    (hguid : ∀ s, (f s).guid = s.guid) (hvalue : ∀ s, (f s).value = s.value)
    (hlive : ∀ s, (f s).destroying = s.destroying) :
    ({ t with splits := t.splits.map f } : Transaction).Balanced := by
  have hlives : ({ t with splits := t.splits.map f } : Transaction).liveSplits
      = t.liveSplits.map f := by
    simp only [Transaction.liveSplits, List.filter_map, Function.comp_def, hlive]
  refine ⟨h.writable, ?_, ?_, ?_⟩
  · simpa only [List.map_map, Function.comp_def, hguid] using h.distinct
  · rw [hlives]
    intro s hs
    obtain ⟨s₀, hs₀, rfl⟩ := List.mem_map.mp hs
    rw [hvalue]
    exact h.valid s₀ hs₀
  · rw [hlives]
    simpa only [List.map_map, Function.comp_def, hvalue] using h.balanced

section Stored

variable [Engine]

/-- **Everything but a plan** leaves a balanced transaction balanced: it changes neither the values
of live splits nor which are live. -/
theorem Entity.balanced_kept : Entity.Kept Entity.Balanced where
  account _ _ := trivial
  destroyed g t h := by
    have h : t.Balanced := h
    unfold Transaction.destroy
    split
    · exact h
    · exact ⟨h.writable, h.distinct, h.valid, h.balanced⟩
  settled g t h := by
    have h : t.Balanced := h
    have hlives : ({ t with splits := t.liveSplits } : Transaction).liveSplits = t.liveSplits := by
      simp [Transaction.liveSplits, List.filter_filter]
    refine ⟨h.writable, h.distinct.sublist (List.filter_sublist.map _), ?_, ?_⟩
    · rw [hlives]
      exact h.valid
    · rw [hlives]
      exact h.balanced
  rerounded g t account commodity h := by
    have h : t.Balanced := h
    refine h.of_map (fun s => ?_) (fun s => ?_) (fun s => ?_)
    all_goals split <;> rfl
  priced _ _ _ _ _ _ _ := trivial
  listed _ _ _ := trivial
  relisted g t r hlisted h :=
    ⟨hlisted.header.readOnly.trans h.writable, (hlisted.splits.map _).nodup_iff.mpr h.distinct,
      fun s hs => h.valid s (hlisted.liveSplits.mem_iff.mp hs),
      (hlisted.liveSplits.map _).sum_eq.trans h.balanced⟩

/-- The values of a request are multiples of its currency's smallest unit. -/
def Shim.Transaction.AtUnits (b : Book) (spec : Shim.Transaction) : Prop :=
  ∀ currency, planCurrency b spec = .ok currency →
    ∀ s ∈ spec.splits, Representable currency.fraction ⟨s.value.num, s.value.denom⟩

section Plans

variable {b : Book} {spec : Shim.Transaction} {t : Transaction} {plan : TransactionPlan}
  {newGuid : ℕ → Guid} {now : Int64} {existing : Option Transaction}

/-- Then so are those of its plan. -/
theorem plan_representable (hplan : planTransaction now b spec existing = .ok plan)
    (hunits : spec.AtUnits b) : ∀ p ∈ plan.splits,
      0 < p.value.denom.toInt ∧ Representable plan.currency.fraction p.value := by
  intro p hp
  have h := planTransaction_accepted hplan
  obtain ⟨hcurrency, -⟩ := planTransaction_ok hplan
  obtain ⟨requested, hrequested, hvalue, hpos, -⟩ := exists_of_forall₂_right h.requested hp
  refine ⟨hpos, ?_⟩
  rw [hvalue]
  exact hunits plan.currency hcurrency requested hrequested

/-- A live split of a planned transaction was given the value of a split plan. -/
theorem live_value (h : plan.Accepted b spec t) (hguids : UniqueGuids newGuid t)
    (hwritable : t.readOnly = false) {s : Split}
    (hs : s ∈ (applyPlan newGuid b plan t).liveSplits) :
    ∃ p ∈ plan.splits, ∃ old, s.value = storeAmount (some plan.currency.fraction) old p.value := by
  rw [liveSplits_applyPlan h hguids, List.mem_append] at hs
  rcases hs with hs | hs
  · obtain ⟨s₀, hs₀, rfl⟩ := List.mem_map.mp hs
    obtain ⟨-, -, hnamed⟩ := (mem_staying h).mp hs₀
    obtain ⟨p, hp, hexisting⟩ := List.mem_filterMap.mp (hnamed.resolve_right (by simp [hwritable]))
    obtain ⟨i, hi⟩ := List.mem_iff_getElem?.mp hp
    rw [revised_of_named h hi hexisting]
    exact ⟨p, hp, _, rfl⟩
  · obtain ⟨k, p, hk, -, rfl⟩ := mem_created.mp hs
    exact ⟨p, List.mem_of_getElem? hk, _, rfl⟩

/-- **An accepted plan stores a balanced transaction**, where nothing has to be rounded. -/
theorem applyPlan_balanced (hplan : planTransaction now b spec existing = .ok plan)
    (hunits : spec.AtUnits b) (hguids : UniqueGuids newGuid (existing.getD .blank))
    (hwritable : (existing.getD .blank).readOnly = false)
    (hlive : ∀ s ∈ (existing.getD .blank).splits, s.destroying = false) :
    (applyPlan newGuid b plan (existing.getD .blank)).Balanced := by
  have h := planTransaction_accepted hplan
  have hamounts := plan_representable hplan hunits
  generalize existing.getD .blank = t at h hguids hwritable hlive ⊢
  have hfraction : 0 < plan.currency.fraction.toInt := plan.currency.fraction_pos
  -- at the smallest units nothing is rounded
  have hkept : plan.ValuesKept newGuid t := by
    intro i p hi
    refine ⟨?_, fun f hf => ?_⟩
    · cases hg : p.existing with
      | none => simp [SplitPlan.start, hg, Split.blank]
      | some g => exact setHeader_live hlive _ (start_mem newGuid h hi hg).1
    · rw [← Option.some.inj hf]
      exact Or.inl (hamounts p (List.mem_of_getElem? hi)).2
  refine ⟨?_, applyPlan_nodup h hguids, fun s hs => ?_, ?_⟩
  · rw [(applyPlan_header plan t).readOnly]
    exact hwritable
  · obtain ⟨p, hp, old, hvalue⟩ := live_value h hguids hwritable hs
    obtain ⟨hpos, hrepresentable⟩ := hamounts p hp
    have hdenom : s.value.denom = plan.currency.fraction := by
      rw [hvalue]
      exact storeRounded_denom hfraction hpos hrepresentable
    exact GncNumeric.check_of_pos (by rw [hdenom]; exact hfraction)
  · rw [sum_stored h hguids hkept, hwritable]
    rfl

end Plans

variable [Wire]

/-- A call that asks for nothing that would have to be rounded, and for whose splits the engine
draws GUIDs that are not in use. -/
structure Mutation.AtUnits (b : Book) (m : Mutation) (fate : Fate) : Prop where
  values : ∀ spec, m.transactionSpec = some spec → spec.AtUnits b
  injective : Function.Injective fate.newGuid
  unused : ∀ g t, b.transaction g = some t → ∀ i, fate.newGuid i ∉ t.splits.map Split.guid

/-- The condition on a run: it is orderly, and its calls ask for nothing to be rounded. -/
def Daemon.AtUnits (d : Daemon) (e : Event) : Prop :=
  d.Orderly e ∧ ∀ m fate, e = .mutate m fate → m.AtUnits d.world.book fate

/-- **Every stored transaction balances**, in every state of such a run. -/
theorem books_balance {config : Config} {b₀ : Book} {events : List Event}
    (hempty : ∀ g, b₀.transaction g = none) (hrest : AtRest b₀.entities)
    (hrun : Machine.Along Daemon.step Daemon.AtUnits (Daemon.fresh config b₀) events) :
    ∃ b, ((Daemon.fresh config b₀).run events).world.Holds b ∧
      AtRest b.entities ∧ b.entities.All Entity.Balanced := by
  refine Along.book_of_calls (I := fun b => AtRest b.entities ∧ b.entities.All Entity.Balanced)
    hrun ⟨hrest, ?_⟩ (fun b o h => ?_) ?_
  · intro ref e he
    cases ref with
    | account g => trivial
    | price g => trivial
    | transaction g =>
      have hnone := hempty g
      rw [Book.transaction, he] at hnone
      cases hnone
  · exact ⟨(Book.relisted_relist o b).atRest h.1, Entity.balanced_kept.relist h.2 o⟩
  -- the one edit that writes splits is a transaction's, and its plan was accepted
  · rintro m fate b edit ⟨hrest, hbalanced⟩ hcall hfresh hplan
    refine ⟨plan_atRest hplan hrest, Entity.balanced_kept.after hplan ?_ hbalanced⟩
    intro spec existing plan g hspec hexisting haccepted
    cases existing with
    | none =>
      refine applyPlan_balanced haccepted (hcall.values spec hspec)
        ⟨hcall.injective, fun i hi => ?_, List.nodup_nil⟩ rfl fun s hs => ?_
      · cases hi
      · cases hs
    | some t =>
      have ht := hexisting t rfl
      have hold : t.Balanced := hbalanced (.transaction g) t ht
      exact applyPlan_balanced haccepted (hcall.values spec hspec)
        ⟨hcall.injective, hcall.unused g t ht, hold.distinct⟩ hold.writable
        fun s hs => ((hrest (.transaction g) t ht).splits s hs).live

end Stored

/-! ### What the startup checks add up

`RunStartupChecks` makes one running sum a transaction and one a currency. Both are running sums
of values that come to zero exactly. -/

section Checks

variable {b : Book} {listing : Session.SplitListing}

/-- The loop's map of sums is the library's, with the engine's addition. -/
theorem currencySums_eq (listing : Session.SplitListing) : Session.currencySums listing
    = KeyedSums.sums gncNumericAdd gncNumericZero (keyedEntries Session.currencyKey listing) := by
  have hadd : ∀ key value sums, Session.addToSum key value sums
      = KeyedSums.add gncNumericAdd gncNumericZero key value sums := by
    intro key value sums
    induction sums with
    | nil => rfl
    | cons entry rest ih => rw [Session.addToSum, KeyedSums.add, ih]
  rw [← foldl_keyedEntries]
  refine congrArg (fun add => listing.foldl add []) ?_
  funext sums entry
  cases entry.1.2.currency with
  | none => rfl
  | some currency => exact hadd _ _ _

/-- The sum of a transaction, in the order of its splits. -/
theorem imbalance_eq {t : Transaction} (h : t.AtRest) :
    Session.xaccTransGetImbalanceValue t = runningSum (t.splits.map Split.value) := by
  rw [Session.xaccTransGetImbalanceValue, h.liveSplits_eq, runningSum, List.foldl_map]

/-- A running sum of values that come to zero is zero, or an error value. -/
theorem zeroP_runningSum_iff {values : List GncNumeric}
    (hvalues : ∀ value ∈ values, value.check = true) (hsum : exactSum values = 0) :
    (runningSum values).zeroP = true ↔ ∀ front, front <+: values → SumRepresentable front := by
  rw [← check_runningSum_iff hvalues]
  constructor
  · exact fun h => (GncNumeric.zeroP_iff.mp h).1
  · intro h
    rw [GncNumeric.zeroP_iff_toRat h, (sumsTo_runningSum h).exact, hsum]

/-- A balanced transaction at rest adds up to zero. -/
theorem Transaction.Balanced.exactSum_eq {t : Transaction} (h : t.Balanced) (hrest : t.AtRest) :
    exactSum (t.splits.map Split.value) = 0 := by
  have hsum := h.balanced
  rw [hrest.liveSplits_eq] at hsum
  rw [exactSum, List.map_map]
  exact hsum

/-- Whether a transaction counts under a key. -/
def counts (key : String) (t : Guid × Transaction) : ℚ :=
  if t.2.currency.map Session.currencyKey = some key then 1 else 0

/-- The values under a currency's key, as a sum over the whole listing. -/
theorem exactSum_valuesUnder_eq (key : String) (listing : Session.SplitListing) :
    exactSum (valuesUnder Session.currencyKey key listing)
      = (listing.map fun entry => counts key entry.1 * entry.2.value.toRat).sum := by
  induction listing with
  | nil => rfl
  | cons entry listing ih =>
    rw [List.map_cons, List.sum_cons, ← ih]
    by_cases hkey : entry.1.2.currency.map Session.currencyKey = some key
    · have hcons : valuesUnder Session.currencyKey key (entry :: listing)
          = entry.2.value :: valuesUnder Session.currencyKey key listing := by
        rw [valuesUnder, List.filter_cons_of_pos (by simpa using hkey)]
        rfl
      rw [hcons, counts, if_pos hkey, one_mul]
      rfl
    · have hskip : valuesUnder Session.currencyKey key (entry :: listing)
          = valuesUnder Session.currencyKey key listing := by
        rw [valuesUnder, List.filter_cons_of_neg (by simpa using hkey)]
        rfl
      rw [hskip, counts, if_neg hkey, zero_mul, zero_add]

/-- The values under one currency come to zero, in whatever order they are listed. -/
theorem exactSum_valuesUnder (hrest : AtRest b.entities) (hbalanced : b.entities.All Entity.Balanced)
    (hlists : Session.Lists listing b) (key : String) :
    exactSum (valuesUnder Session.currencyKey key listing) = 0 := by
  have hbook : (b.transactions.bind fun t => (t.2.splits : Multiset Split).map (t, ·)).map
      (fun entry => counts key entry.1 * entry.2.value.toRat)
        = b.transactions.bind fun t => (t.2.splits : Multiset Split).map
            fun s => counts key t * s.value.toRat := by
    rw [Multiset.map_bind]
    simp only [Multiset.map_map, Function.comp_def]
  rw [exactSum_valuesUnder_eq, ← Multiset.sum_coe, ← Multiset.map_coe, hlists, hbook,
    Multiset.sum_bind]
  -- Transaction by transaction: each comes to zero, and counts whole or not at all.
  refine Multiset.sum_eq_zero fun x hx => ?_
  obtain ⟨⟨g, t⟩, ht, rfl⟩ := Multiset.mem_map.mp hx
  rw [Book.mem_transactions] at ht
  have ht' : t.Balanced := hbalanced (.transaction g) t ht
  have hsum := ht'.exactSum_eq (hrest (.transaction g) t ht)
  rw [exactSum, List.map_map] at hsum
  rw [Multiset.sum_map_mul_left, Multiset.map_coe, Multiset.sum_coe]
  exact (congrArg _ hsum).trans (mul_zero _)

/-- No part of a sum of the startup checks, from the front, leaves the range of an `int64`: not
of a transaction's, in the order of its splits, and not of a currency's, in the order listed. -/
structure StartupFits (b : Book) (listing : Session.SplitListing) : Prop where
  transactions : ∀ g t, b.transaction g = some t →
    ∀ front, front <+: t.splits.map Split.value → SumRepresentable front
  currencies : ∀ key front, front <+: valuesUnder Session.currencyKey key listing →
    SumRepresentable front

/-- What the checks look at. -/
theorem startupChecks_ok_iff [Engine] : Session.startupChecks listing = .ok () ↔
    (∀ entry ∈ listing, (Session.xaccTransGetImbalanceValue entry.1.2).zeroP = true) ∧
    ∀ entry ∈ Session.currencySums listing, entry.2.zeroP = true := by
  unfold Session.startupChecks
  cases hfind : listing.find? fun entry => !(Session.xaccTransGetImbalanceValue entry.1.2).zeroP with
  | some entry =>
    have hbad := List.find?_some hfind
    refine iff_of_false (by simp) fun h => ?_
    rw [h.1 entry (List.mem_of_find?_eq_some hfind)] at hbad
    cases hbad
  | none =>
    have hbalanced : ∀ entry ∈ listing,
        (Session.xaccTransGetImbalanceValue entry.1.2).zeroP = true := by
      simpa using List.find?_eq_none.mp hfind
    dsimp only
    cases hsum : (Session.currencySums listing).find? fun entry => !entry.2.zeroP with
    | some entry =>
      have hbad := List.find?_some hsum
      refine iff_of_false (by simp) fun h => ?_
      rw [h.2 entry (List.mem_of_find?_eq_some hsum)] at hbad
      cases hbad
    | none => exact iff_of_true rfl ⟨hbalanced, by simpa using List.find?_eq_none.mp hsum⟩

/-- **The checks on a balanced book.** -/
theorem startupChecks_iff [Engine] (hrest : AtRest b.entities)
    (hbalanced : b.entities.All Entity.Balanced) (hlists : Session.Lists listing b) :
    Session.startupChecks listing = .ok () ↔ StartupFits b listing := by
  have hvalues : ∀ g t, b.transaction g = some t → ∀ s ∈ t.splits, s.value.check = true := by
    intro g t ht s hs
    have ht' : t.Balanced := hbalanced (.transaction g) t ht
    refine ht'.valid s ?_
    rw [(hrest (.transaction g) t ht : t.AtRest).liveSplits_eq]
    exact hs
  have hlisted : ∀ entry ∈ listing, entry.2.value.check = true := by
    intro entry hentry
    obtain ⟨ht, hs⟩ := Session.mem_of_lists hlists hentry
    exact hvalues _ _ ht _ hs
  have htransaction : ∀ g t, b.transaction g = some t →
      ((Session.xaccTransGetImbalanceValue t).zeroP = true ↔
        ∀ front, front <+: t.splits.map Split.value → SumRepresentable front) := by
    intro g t ht
    have hrest' : t.AtRest := hrest (.transaction g) t ht
    have hbalanced' : t.Balanced := hbalanced (.transaction g) t ht
    rw [imbalance_eq hrest']
    refine zeroP_runningSum_iff (fun value hvalue => ?_) (hbalanced'.exactSum_eq hrest')
    obtain ⟨s, hs, rfl⟩ := List.mem_map.mp hvalue
    exact hvalues g t ht s hs
  have hcurrencies : (∀ entry ∈ Session.currencySums listing, entry.2.zeroP = true) ↔
      ∀ key front, front <+: valuesUnder Session.currencyKey key listing →
        SumRepresentable front := by
    rw [currencySums_eq, ← check_sums_iff Session.currencyKey hlisted]
    refine forall₂_congr fun entry hentry => ?_
    obtain ⟨-, hsum⟩ := (mem_sums_iff Session.currencyKey).mp hentry
    rw [hsum, zeroP_runningSum_iff (valuesUnder_check Session.currencyKey hlisted)
      (exactSum_valuesUnder hrest hbalanced hlists entry.1),
      check_runningSum_iff (valuesUnder_check Session.currencyKey hlisted)]
  rw [startupChecks_ok_iff, hcurrencies]
  constructor
  · rintro ⟨htransactions, hsums⟩
    refine ⟨fun g t ht => ?_, hsums⟩
    cases hsplits : t.splits with
    | nil =>
      -- No split of it is listed, and there is nothing to add up.
      intro front hfront
      obtain rfl := List.prefix_nil.mp hfront
      exact (check_runningSum_iff fun _ hvalue => by cases hvalue).mp rfl [] List.prefix_rfl
    | cons s splits =>
      rw [← hsplits]
      refine (htransaction g t ht).mp (htransactions ((g, t), s) ?_)
      have hmem : ((g, t), s) ∈ (listing : Multiset ((Guid × Transaction) × Split)) := by
        rw [hlists]
        refine Multiset.mem_bind.mpr ⟨(g, t), Book.mem_transactions.mpr ht, ?_⟩
        exact Multiset.mem_map.mpr ⟨s, by simp [hsplits], rfl⟩
      exact Multiset.mem_coe.mp hmem
  · rintro ⟨htransactions, hsums⟩
    refine ⟨fun entry hentry => ?_, hsums⟩
    obtain ⟨ht, -⟩ := Session.mem_of_lists hlists hentry
    exact (htransaction _ _ ht).mpr (htransactions _ _ ht)

end Checks

/-- **When the startup checks let an accepted book pass.** In every run from a book without
transactions, whose requests ask for nothing that would be rounded, `RunStartupChecks` on the
book the run leaves, in whatever order it is loaded, does not throw exactly when no part of its
sums leaves the range of an `int64`, in the order in which the query lists the splits. -/
theorem startup_iff [Wire] [Engine] {config : Config} {b₀ : Book} {events : List Event}
    (hempty : ∀ g, b₀.transaction g = none) (hrest : AtRest b₀.entities)
    (hrun : Machine.Along Daemon.step Daemon.AtUnits (Daemon.fresh config b₀) events)
    {w : World} (hopen : w.session.isSome = true)
    (hbook : ((Daemon.fresh config b₀).run events).world.durableBook.Relisted w.book)
    {listing : Session.SplitListing} (hlists : Session.Lists listing w.book) :
    (∃ w', Session.runStartupChecks listing w = .ok () w') ↔ StartupFits w.book listing := by
  obtain ⟨b, hholds, hrest', hbalanced⟩ := books_balance hempty hrest hrun
  rw [hholds.durableBook] at hbook
  rw [← startupChecks_iff (hbook.atRest hrest') (Entity.balanced_kept.of_relisted hbalanced hbook)
    hlists]
  simp only [Session.runStartupChecks, Session.run_book_bind_iff, run_liftValid_bind_iff, hopen,
    true_and]
  constructor
  · rintro ⟨w', _, hchecks, -⟩
    exact hchecks
  · exact fun hchecks => ⟨_, (), hchecks, rfl⟩

/-! ### A transaction that the next process does not start on

A listing from which the running sum overflows, though every transaction in the book balances. -/

section Witness

open Reference

attribute [local instance] Reference.engine Reference.wire

/-- The large transaction is in whole cents. -/
theorem postHuge_atUnits :
    ∀ spec, postHuge.transactionSpec = some spec → spec.AtUnits book := by
  intro spec hspec currency hcurrency s hs
  obtain rfl := Option.some.inj hspec
  have husd : planCurrency book (transaction "" [split 2 9000000000000000000,
      split 3 (-9000000000000000000), split 2 9000000000000000000,
      split 3 (-9000000000000000000)]) = .ok usd := by decide +kernel
  obtain rfl := Except.ok.inj (husd.symm.trans hcurrency)
  have hcents : ∀ n : Int64, Representable usd.fraction ⟨n, 100⟩ := fun n =>
    ⟨n.toInt, fitsInt64_toInt n, rfl⟩
  simp only [transaction, List.mem_cons, List.not_mem_nil, or_false] at hs
  rcases hs with rfl | rfl | rfl | rfl <;> exact hcents _

/-- The post is answered OK, and the daemon does not come up again: the query lists the
deposits first, and behind the second of them their sum is an error value. -/
theorem restart_refused :
    (∀ g, book.transaction g = none) ∧
    (∀ spec, postHuge.transactionSpec = some spec → spec.AtUnits book) ∧
    (replyOf (postHuge.run (calm 16) started.world)).isOk = true ∧
    Session.Lists depositsFirst hugeRun.world.durableBook ∧
    Session.startupChecks depositsFirst = .error
      ⟨.engineError, "startup check failed: trial balance is nonzero", "CURRENCY:USD"⟩ ∧
    ((hugeRun.step .kill).step (.start (starts depositsFirst))).serving = false := by
  have hdurable : hugeRun.world.durableBook = hugeRun.world.book := by decide +kernel
  refine ⟨book_transaction, postHuge_atUnits, by decide +kernel, ?_, ?_, ?_⟩
  · rw [hdurable]
    exact depositsFirst_lists
  · decide +kernel
  · decide +kernel

/-- The splits of the transaction as it has them. -/
def hugeListing : Session.SplitListing := huge.splits.map ((16, huge), ·)

/-- The extreme post is one at the smallest units. -/
theorem hugeRun_atUnits : Machine.Along Daemon.step Daemon.AtUnits (Daemon.fresh config book)
    [.start (starts []), .mutate postHuge (calm 16)] := by
  refine ⟨⟨⟨trivial, fun m fate h => ?_⟩, fun m fate h => ?_⟩, ?_, trivial⟩
  · cases h
  · cases h
  have hcall : ∀ d : Daemon, d.world.book = book →
      d.AtUnits (.mutate postHuge (calm 16)) := by
    intro d hd
    refine ⟨⟨⟨rfl, trivial⟩, fun m fate h => ?_⟩, fun m fate h => ?_⟩
    · cases h
      rw [hd]
      exact calm_fresh (by decide) none
    · cases h
      rw [hd]
      refine ⟨postHuge_atUnits, fun i j hij => Nat.add_left_cancel hij, fun g t ht => ?_⟩
      rw [book_transaction] at ht
      cases ht
  exact hcall started started_book

/-- The equivalence at the book of that post. -/
theorem startup_iff_huge :
    (∃ w', Session.runStartupChecks hugeListing hugeRun.world = .ok () w') ↔
      StartupFits hugeRun.world.book hugeListing := by
  have hopen : hugeRun.world.session.isSome = true := by decide +kernel
  have hbook : hugeRun.world.durableBook.Relisted hugeRun.world.book := by
    have hsame : hugeRun.world.durableBook = hugeRun.world.book := by decide +kernel
    rw [hsame]
    exact .refl _
  have hlists : Session.Lists hugeListing hugeRun.world.book := by
    unfold Session.Lists
    decide +kernel
  exact startup_iff book_transaction book_atRest hugeRun_atUnits hopen hbook hlists

end Witness

end Daichod
