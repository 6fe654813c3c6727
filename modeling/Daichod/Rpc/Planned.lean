import Daichod.Library.KeyedList
import Daichod.Rpc.TransactionService

/-!
# Daichod.Rpc.Planned

What an accepted plan leaves in its transaction, split by split. `PlanTransaction` lets no
split be named twice (`planSplits_claims`), so the rounds of `ApplyPlan`'s loop do not
interfere: the transaction ends up with its old splits, each as its own round left it, and
behind them the new ones (`applySplitPlans_splits`).

## Proof shape

The rounds of the loop are about different splits (`planSplits_claims`), so a round changes the
splits of the others in no way. `applySplitPlans_splits` is the induction over the rounds: the
list is the old splits, each changed by its own round if it has had one, and behind them the new
ones in the order of the request. The header and the destruction of splits come before the loop
and are maps over the list. `liveSplits_applyPlan` puts the three together.
-/

namespace Daichod

/-! ### Setters -/

/-- The setter stores `v` exactly: there is nothing to round to, or `v` is a multiple of the
smallest unit, or the setter refuses `v` and the old amount is equal to it. -/
def Keeps (fraction : Option Int64) (old v : GncNumeric) : Prop :=
  ∀ f, fraction = some f → Representable f v ∨ (Refused f v ∧ old.toRat = v.toRat)

/-- **A setter stores exactly what it is given** if that is a multiple of the fraction, and not
refused. -/
theorem storeAmount_exact_iff {b : Book} (name : Option CommodityName) {old v : GncNumeric}
    (hd : 0 < v.denom.toInt) :
    (storeAmount (name.bind b.fraction) old v).toRat = v.toRat
      ↔ Keeps (name.bind b.fraction) old v := by
  cases hfraction : name.bind b.fraction with
  | none => simp [storeAmount, Keeps]
  | some f =>
    obtain ⟨name, -, hname⟩ := Option.bind_eq_some_iff.mp hfraction
    rw [storeAmount, storeRounded_exact_iff (Book.fraction_pos hname) hd]
    simp [Keeps]

/-- The fraction of the account's commodity. -/
theorem amountFraction_eq (b : Book) (account : Guid) :
    amountFraction b account = ((b.account account).bind Account.commodity).bind b.fraction := by
  unfold amountFraction
  cases b.account account <;> rfl

/-! ### The loop, split by split -/

section Loop

variable {book : Book} {fraction : Option Int64} {newGuid : ℕ → Guid} {plans : List SplitPlan}
  {t : Transaction}

/-- The setters keep the GUID, -/
@[simp] theorem SplitPlan.set_guid (plan : SplitPlan) (s : Split) :
    (plan.set book fraction s).guid = s.guid := rfl

/-- and the mark for destruction; -/
@[simp] theorem SplitPlan.set_destroying (plan : SplitPlan) (s : Split) :
    (plan.set book fraction s).destroying = s.destroying := rfl

/-- the value is rounded to the currency of the transaction, -/
@[simp] theorem SplitPlan.set_value (plan : SplitPlan) (s : Split) :
    (plan.set book fraction s).value = storeAmount fraction s.value plan.value := rfl

/-- and the quantity to the commodity of the account. -/
@[simp] theorem SplitPlan.set_amount (plan : SplitPlan) (s : Split) :
    (plan.set book fraction s).amount
      = storeAmount (amountFraction book plan.account) s.amount plan.quantity := rfl

/-- The splits of the transaction that the plans name. -/
def claims (plans : List SplitPlan) : List Guid := plans.filterMap SplitPlan.existing

/-- What the loop makes of a split that was there before. -/
def updated (book : Book) (fraction : Option Int64) (plans : List SplitPlan) (s : Split) : Split :=
  KeyedList.update Split.guid SplitPlan.existing (SplitPlan.set book fraction) plans s

/-- The splits the loop allocates, from the `i`-th plan on. -/
def created (book : Book) (fraction : Option Int64) (newGuid : ℕ → Guid) :
    ℕ → List SplitPlan → List Split
  | _, [] => []
  | i, plan :: plans =>
    match plan.existing with
    | some _ => created book fraction newGuid (i + 1) plans
    | none => plan.set book fraction (Split.blank (newGuid (i + 1)) plan.account) ::
        created book fraction newGuid (i + 1) plans

/-- Setting a split does not change the currency. -/
theorem applySplitPlan_fraction (guid : Guid) (plan : SplitPlan) :
    (applySplitPlan book guid t plan).valueFraction book = t.valueFraction book := by
  unfold Transaction.valueFraction
  rw [(applySplitPlan_header guid t plan).currency]

/-- **The rounds do not interfere**: given that no split is named twice and the new GUIDs
are not in use, the loop leaves each old split as its own round does, and then the new
ones. -/
theorem applySplitPlans_splits (hclaims : (claims plans).Nodup)
    (hunused : ∀ i, newGuid i ∉ claims plans) (i : ℕ) :
    (applySplitPlans book newGuid i t plans).splits
      = t.splits.map (updated book (t.valueFraction book) plans)
          ++ created book (t.valueFraction book) newGuid i plans := by
  -- On the rounds still to come: those done have no say in the splits of the next one.
  induction plans generalizing i t with
  | nil =>
    have hid : updated book (t.valueFraction book) [] = id := rfl
    rw [hid, List.map_id]
    exact (List.append_nil _).symm
  | cons plan plans ih =>
    have hround : applySplitPlans book newGuid i t (plan :: plans)
        = applySplitPlans book newGuid (i + 1) (applySplitPlan book (newGuid (i + 1)) t plan)
            plans := rfl
    cases hexisting : plan.existing with
    | none =>
      have hrest : claims (plan :: plans) = claims plans := List.filterMap_cons_none hexisting
      rw [hrest] at hclaims hunused
      have hsplits : (applySplitPlan book (newGuid (i + 1)) t plan).splits = t.splits
          ++ [plan.set book (t.valueFraction book) (Split.blank (newGuid (i + 1)) plan.account)] := by
        rw [applySplitPlan, hexisting]
        rfl
      have hskip : updated book (t.valueFraction book) (plan :: plans)
          = updated book (t.valueFraction book) plans :=
        funext fun s => KeyedList.update_cons_of_none hexisting
      have hnew : updated book (t.valueFraction book) plans
          (plan.set book (t.valueFraction book) (Split.blank (newGuid (i + 1)) plan.account))
          = plan.set book (t.valueFraction book) (Split.blank (newGuid (i + 1)) plan.account) :=
        KeyedList.update_of_not_mem (hunused (i + 1))
      rw [hround, ih hclaims hunused (i + 1), applySplitPlan_fraction, hsplits, hskip,
        List.map_append, List.map_singleton, hnew, List.append_assoc]
      simp only [created, hexisting]
      rfl
    | some g =>
      have hrest : claims (plan :: plans) = g :: claims plans := List.filterMap_cons_some hexisting
      rw [hrest] at hclaims hunused
      rw [List.nodup_cons] at hclaims
      have hsplits : (applySplitPlan book (newGuid (i + 1)) t plan).splits = t.splits.map fun s =>
          if s.guid = g then plan.set book (t.valueFraction book) s else s := by
        rw [applySplitPlan, hexisting]
        rfl
      have hstep : ∀ s, updated book (t.valueFraction book) (plan :: plans) s
          = updated book (t.valueFraction book) plans
              (if s.guid = g then plan.set book (t.valueFraction book) s else s) := fun s =>
        KeyedList.update_cons_of_some (fun _ _ => rfl) hexisting hclaims.1
      rw [hround, ih hclaims.2 (fun j hj => hunused j (List.mem_cons_of_mem _ hj)) (i + 1),
        applySplitPlan_fraction, hsplits, List.map_map]
      simp only [created, hexisting]
      exact congrArg (· ++ _) (List.map_congr_left fun s _ => (hstep s).symm)

/-- The new splits are those whose plan names none. -/
theorem mem_created {i : ℕ} {s : Split} :
    s ∈ created book fraction newGuid i plans ↔
      ∃ (k : ℕ) (plan : SplitPlan), plans[k]? = some plan ∧ plan.existing = none ∧
        s = plan.set book fraction (Split.blank (newGuid (i + k + 1)) plan.account) := by
  -- On the plans; a plan that names a split adds nothing.
  induction plans generalizing i with
  | nil => simp [created]
  | cons plan plans ih =>
    have hrest : s ∈ created book fraction newGuid (i + 1) plans ↔
        ∃ (k : ℕ) (p : SplitPlan), (plan :: plans)[k + 1]? = some p ∧ p.existing = none ∧
          s = p.set book fraction (Split.blank (newGuid (i + (k + 1) + 1)) p.account) := by
      rw [ih]
      simp only [List.getElem?_cons_succ, Nat.add_right_comm i 1, Nat.add_assoc i]
    constructor
    · intro hs
      unfold created at hs
      split at hs
      · obtain ⟨k, p, h⟩ := hrest.mp hs
        exact ⟨k + 1, p, h⟩
      · next hexisting =>
        rcases List.mem_cons.mp hs with rfl | hs
        · exact ⟨0, plan, rfl, hexisting, rfl⟩
        · obtain ⟨k, p, h⟩ := hrest.mp hs
          exact ⟨k + 1, p, h⟩
    · intro hcreated
      obtain ⟨k, p, hk, hp, hs⟩ := hcreated
      unfold created
      cases k with
      | zero =>
        obtain rfl := Option.some.inj hk
        split
        · next hsome => rw [hp] at hsome; cases hsome
        · rw [hs]
          exact List.mem_cons_self
      | succ k =>
        have hmem := hrest.mpr ⟨k, p, hk, hp, hs⟩
        split
        · exact hmem
        · exact List.mem_cons_of_mem _ hmem

/-- The requested values of the new splits, in order. -/
theorem sum_created {M : Type*} [AddCommMonoid M] {f : Split → M} {v : SplitPlan → M} {i : ℕ}
    (h : ∀ (k : ℕ) (plan : SplitPlan), plans[k]? = some plan → plan.existing = none →
      f (plan.set book fraction (Split.blank (newGuid (i + k + 1)) plan.account)) = v plan) :
    ((created book fraction newGuid i plans).map f).sum
      = ((plans.filter fun p => !p.existing.isSome).map v).sum := by
  induction plans generalizing i with
  | nil => rfl
  | cons plan plans ih =>
    have hrest := ih (i := i + 1) fun k p hk hp => by
      have := h (k + 1) p hk hp
      rwa [show i + (k + 1) + 1 = i + 1 + k + 1 by omega] at this
    cases hexisting : plan.existing with
    | some g =>
      simp only [created, hexisting]
      rw [hrest, List.filter_cons_of_neg (by simp [hexisting])]
    | none =>
      simp only [created, hexisting]
      rw [List.map_cons, List.sum_cons, hrest, List.filter_cons_of_pos (by simp [hexisting]),
        List.map_cons, List.sum_cons]
      exact congrArg (· + _) (h 0 plan rfl hexisting)

end Loop

/-! ### The splits left out -/

/-- What destroying the splits of a list does to one split; a read-only transaction keeps
them. -/
def dropped (readOnly : Bool) (doomed : List Guid) (s : Split) : Split :=
  { s with destroying := s.destroying || (!readOnly && decide (s.guid ∈ doomed)) }

/-- **The splits left out** are marked, unless the transaction is read-only, and then they stay. -/
theorem destroySplits_splits (doomed : List Guid) (t : Transaction) :
    (doomed.foldl (fun t split => t.destroySplit split) t).splits
      = t.splits.map (dropped t.readOnly doomed) := by
  -- On the GUIDs to be destroyed, each of which marks at most one split.
  induction doomed generalizing t with
  | nil =>
    have hid : dropped t.readOnly [] = id := by
      funext s
      simp [dropped]
    rw [hid, List.map_id]
    rfl
  | cons g doomed ih =>
    rw [List.foldl_cons, ih, (destroySplit_header g t).readOnly]
    unfold Transaction.destroySplit
    cases hreadOnly : t.readOnly with
    | true =>
      have hkept : dropped true doomed = dropped true (g :: doomed) := by
        funext s
        simp [dropped]
      simp only [if_true, hkept]
    | false =>
      simp only [Bool.false_eq_true, if_false, Transaction.editSplit, List.map_map]
      refine List.map_congr_left fun s _ => ?_
      by_cases hg : s.guid = g
      · simp [dropped, hg]
      · simp [dropped, hg]

section Header

variable [Engine] (plan : TransactionPlan) (t : Transaction)

/-- A change of currency re-rates splits and changes nothing else of them. -/
theorem setHeader_splits : ∃ rated : Split → GncNumeric,
    (plan.setHeader t).splits = t.splits.map fun s => { s with value := rated s } := by
  have hsplits : (plan.setHeader t).splits = (t.setCurrency plan.currency).splits := rfl
  rw [hsplits, Transaction.setCurrency]
  dsimp only
  split
  · exact ⟨Split.value, (List.map_id' _).symm⟩
  · exact ⟨_, rfl⟩

/-- A new header has the same splits under it. -/
theorem setHeader_guids : (plan.setHeader t).splits.map Split.guid = t.splits.map Split.guid := by
  obtain ⟨rated, hsplits⟩ := setHeader_splits plan t
  rw [hsplits, List.map_map]
  rfl

end Header

/-! ### What a plan claims -/

section Claims

variable [Engine] {book : Book} {engineSplits : Option (List Split)}

/-- What a spec split names: nothing, or a split of the transaction that none before it has named.
-/
theorem findExisting_ok {claimed : List String} {field : String} {spec : Shim.Split}
    {existing : Option Guid} (h : findExisting engineSplits claimed field spec = .ok existing) :
    (spec.guid.isEmpty = true ∧ existing = none) ∨
    (spec.guid.isEmpty = false ∧ spec.guid ∉ claimed ∧ ∃ split ∈ engineSplits.getD [],
      existing = some split.guid ∧ Engine.guidToString split.guid = spec.guid) := by
  unfold findExisting at h
  split at h
  · next hempty =>
    cases h
    exact Or.inl ⟨hempty, rfl⟩
  · next hempty =>
    split at h
    · cases h
    · next splits =>
      split at h
      · cases h
      · next split hfound =>
        split at h
        · cases h
        · next hclaimed =>
          cases h
          have hguid : Engine.guidToString split.guid = spec.guid := by
            simpa using List.find?_some hfound
          exact Or.inr ⟨by simpa using hempty, hclaimed, split, List.mem_of_find?_eq_some hfound,
            rfl, hguid⟩

/-- **What the loop over the spec has checked of the names**: the splits named are splits
of the transaction, none is named twice, and the names it collects are theirs. -/
theorem planSplits_claims {i : ℕ} {claimed : List String} {sum : GncNumeric}
    {specs : List Shim.Split} {r : List SplitPlan × List String × GncNumeric}
    (h : planSplits book engineSplits i claimed sum specs = .ok r) :
    (claims r.1).Nodup ∧
      (∀ g ∈ claims r.1, g ∈ (engineSplits.getD []).map Split.guid ∧
        Engine.guidToString g ∉ claimed) ∧
      ∀ g, Engine.guidToString g ∈ r.2.1 ↔ Engine.guidToString g ∈ claimed ∨ g ∈ claims r.1 := by
  -- On the spec splits; what the earlier ones have claimed is handed on.
  induction specs generalizing i claimed sum r with
  | nil =>
    obtain rfl := Except.ok.inj h
    refine ⟨List.nodup_nil, ?_, ?_⟩
    · intro g hg
      cases hg
    · intro g
      simp [claims]
  | cons spec specs ih =>
    obtain ⟨plan, plans, hplan, -, hrest, hr⟩ := planSplits_cons_ok h
    obtain ⟨hexisting, -⟩ := planSplit_ok hplan
    obtain ⟨hnodup, hclaims, hnames⟩ := ih hrest
    rw [hr]
    rcases findExisting_ok hexisting with ⟨hempty, hnone⟩ |
      ⟨hempty, hclaimed, split, hsplit, hsome, hguid⟩
    · have hcons : claims (plan :: plans) = claims plans := List.filterMap_cons_none hnone
      rw [if_pos hempty] at hclaims hnames
      rw [hcons]
      exact ⟨hnodup, hclaims, hnames⟩
    · have hcons : claims (plan :: plans) = split.guid :: claims plans :=
        List.filterMap_cons_some hsome
      rw [if_neg (by simp [hempty])] at hclaims hnames
      rw [hcons]
      refine ⟨List.nodup_cons.mpr ⟨fun hmem => ?_, hnodup⟩, fun g hg => ?_, fun g => ?_⟩
      · exact (hclaims _ hmem).2 (hguid ▸ List.mem_cons_self)
      · rcases List.mem_cons.mp hg with rfl | hg
        · exact ⟨List.mem_map_of_mem hsplit, hguid ▸ hclaimed⟩
        · exact ⟨(hclaims g hg).1, fun hmem => (hclaims g hg).2 (List.mem_cons_of_mem _ hmem)⟩
      · have heq : Engine.guidToString g = spec.guid ↔ g = split.guid := by
          rw [← hguid]
          exact Engine.guidToString_injective.eq_iff
        rw [hnames, List.mem_cons, List.mem_cons, heq]
        tauto

/-- The sum the loop computes is the exact sum of the values it read. -/
theorem planSplits_sum {i : ℕ} {claimed : List String} {sum : GncNumeric}
    {specs : List Shim.Split} {r : List SplitPlan × List String × GncNumeric}
    (h : planSplits book engineSplits i claimed sum specs = .ok r) :
    r.2.2.toRat = sum.toRat + (r.1.map fun plan => plan.value.toRat).sum ∧
      (sum.check = true → r.2.2.check = true) := by
  induction specs generalizing i claimed sum r with
  | nil =>
    obtain rfl := Except.ok.inj h
    simp
  | cons spec specs ih =>
    obtain ⟨plan, plans, -, hcheck, hrest, hr⟩ := planSplits_cons_ok h
    obtain ⟨hsum, hchecked⟩ := ih hrest
    dsimp only at hsum hchecked
    refine ⟨?_, fun _ => hchecked hcheck⟩
    rw [hr, List.map_cons, List.sum_cons, hsum, toRat_gncNumericAdd hcheck, add_assoc]

/-- What an accepted plan says of itself. -/
structure TransactionPlan.Accepted (book : Book) (spec : Shim.Transaction) (t : Transaction)
    (plan : TransactionPlan) : Prop where
  fraction : book.fraction plan.currency.name = some plan.currency.fraction
  /-- Every split plan carries the amounts of its spec split. -/
  requested : List.Forall₂ (fun (spec : Shim.Split) (splitPlan : SplitPlan) =>
    splitPlan.value = ⟨spec.value.num, spec.value.denom⟩ ∧ 0 < splitPlan.value.denom.toInt ∧
      splitPlan.quantity = ⟨spec.quantity.num, spec.quantity.denom⟩ ∧
        0 < splitPlan.quantity.denom.toInt) spec.splits plan.splits
  distinct : (claims plan.splits).Nodup
  owned : ∀ g ∈ claims plan.splits, g ∈ t.splits.map Split.guid
  doomed : ∀ s ∈ t.splits, s.guid ∈ plan.doomed ↔ s.guid ∉ claims plan.splits
  balanced : (plan.splits.map fun splitPlan => splitPlan.value.toRat).sum = 0

/-- **What acceptance means.** -/
theorem planTransaction_accepted {now : Int64} {spec : Shim.Transaction}
    {existing : Option Transaction} {plan : TransactionPlan}
    (h : planTransaction now book spec existing = .ok plan) :
    plan.Accepted book spec (existing.getD .blank) := by
  -- What the checks of the source leave, the sum of the values among them.
  obtain ⟨hcurrency, -, -, -, claimed, sum, hsplits, hzero, hdoomed, -⟩ := planTransaction_ok h
  have hlist : (existing.map Transaction.splits).getD [] = (existing.getD .blank).splits := by
    cases existing <;> rfl
  obtain ⟨hdistinct, howned, hnames⟩ := planSplits_claims hsplits
  obtain ⟨hsum, hchecked⟩ := planSplits_sum hsplits
  dsimp only at hdistinct howned hnames hsum hchecked
  refine ⟨?_, ?_, hdistinct, fun g hg => hlist ▸ (howned g hg).1, fun s hs => ?_, ?_⟩
  · unfold planCurrency at hcurrency
    split at hcurrency
    · cases hcurrency
    · exact findCommodity_ok hcurrency
  · refine planSplits_forall (fun claimed field spec splitPlan hplan => ?_) hsplits
    obtain ⟨-, -, hvalue, hquantity, -⟩ := planSplit_ok hplan
    obtain ⟨hv, hvpos⟩ := numericFromProto_ok hvalue
    obtain ⟨hq, hqpos⟩ := numericFromProto_ok hquantity
    exact ⟨hv, hvpos, hq, hqpos⟩
  · have hname := hnames s.guid
    simp only [List.not_mem_nil, false_or] at hname
    rw [hdoomed, doomedSplits, hlist]
    constructor
    · intro hmem hclaim
      obtain ⟨s', hs', hguid⟩ := List.mem_map.mp hmem
      have hunnamed := (List.mem_filter.mp hs').2
      rw [hguid, decide_eq_true_eq] at hunnamed
      exact hunnamed (hname.mpr hclaim)
    · intro hclaim
      refine List.mem_map.mpr ⟨s, List.mem_filter.mpr ⟨hs, ?_⟩, rfl⟩
      simpa using fun hmem => hclaim (hname.mp hmem)
  · have hchecked := hchecked check_gncNumericZero
    rw [GncNumeric.zeroP_iff_toRat hchecked, hsum, toRat_gncNumericZero, zero_add] at hzero
    exact hzero

end Claims

/-- The rational of a wire amount. -/
def Shim.Numeric.toRat (numeric : Shim.Numeric) : ℚ := numeric.num.toInt / numeric.denom.toInt

section Accepted

variable {book : Book} {spec : Shim.Transaction} {t : Transaction} {plan : TransactionPlan}
  {i : ℕ} {requested : Shim.Split} {p : SplitPlan}

namespace TransactionPlan.Accepted

/-- Every split plan has its spec split. -/
theorem exists_requested (h : plan.Accepted book spec t) (hi : plan.splits[i]? = some p) :
    ∃ requested, spec.splits[i]? = some requested := by
  obtain ⟨hlt, -⟩ := List.getElem?_eq_some_iff.mp hi
  have hlength : spec.splits.length = plan.splits.length := h.requested.length_eq
  exact ⟨_, List.getElem?_eq_getElem (hlength ▸ hlt)⟩

/-- The amounts planned are those requested, with positive denominators. -/
theorem amounts (h : plan.Accepted book spec t) (hrequested : spec.splits[i]? = some requested)
    (hi : plan.splits[i]? = some p) :
    p.value = ⟨requested.value.num, requested.value.denom⟩ ∧ 0 < p.value.denom.toInt ∧
      p.quantity = ⟨requested.quantity.num, requested.quantity.denom⟩ ∧
        0 < p.quantity.denom.toInt := by
  obtain ⟨hlt, rfl⟩ := List.getElem?_eq_some_iff.mp hi
  obtain ⟨hlt', rfl⟩ := List.getElem?_eq_some_iff.mp hrequested
  exact (List.forall₂_iff_get.mp h.requested).2 i hlt' hlt

/-- The amounts of a split plan are those requested. -/
theorem requested_eq (h : plan.Accepted book spec t)
    (hrequested : spec.splits[i]? = some requested) (hi : plan.splits[i]? = some p) :
    p.value.toRat = requested.value.toRat ∧ p.quantity.toRat = requested.quantity.toRat := by
  obtain ⟨hv, -, hq, -⟩ := h.amounts hrequested hi
  rw [hv, hq]
  exact ⟨rfl, rfl⟩

/-- Both denominators are positive. -/
theorem pos (h : plan.Accepted book spec t) (hi : plan.splits[i]? = some p) :
    0 < p.value.denom.toInt ∧ 0 < p.quantity.denom.toInt := by
  obtain ⟨requested, hrequested⟩ := h.exists_requested hi
  obtain ⟨-, hv, -, hq⟩ := h.amounts hrequested hi
  exact ⟨hv, hq⟩

end TransactionPlan.Accepted

end Accepted

/-! ### The planned transaction -/

section Planned

variable [Engine] {book : Book} {spec : Shim.Transaction} {t : Transaction}
  {plan : TransactionPlan} {newGuid : ℕ → Guid}

/-- The engine allocates its GUIDs once. -/
structure UniqueGuids (newGuid : ℕ → Guid) (t : Transaction) : Prop where
  injective : Function.Injective newGuid
  unused : ∀ i, newGuid i ∉ t.splits.map Split.guid
  distinct : (t.splits.map Split.guid).Nodup

/-- The old splits, as the plan leaves them. -/
def TransactionPlan.revised (book : Book) (plan : TransactionPlan) (t : Transaction) : Split → Split :=
  fun s => updated book (some plan.currency.fraction) plan.splits (dropped t.readOnly plan.doomed s)

/-- The new splits. -/
def TransactionPlan.added (book : Book) (newGuid : ℕ → Guid) (plan : TransactionPlan) :
    List Split :=
  created book (some plan.currency.fraction) newGuid 0 plan.splits

/-- **The splits an accepted plan leaves.** -/
theorem applyPlan_splits (h : plan.Accepted book spec t) (hguids : UniqueGuids newGuid t) :
    (applyPlan newGuid book plan t).splits
      = (plan.setHeader t).splits.map (plan.revised book t) ++ plan.added book newGuid := by
  have hfraction : (plan.doomed.foldl (fun t split => t.destroySplit split)
      (plan.setHeader t)).valueFraction book = some plan.currency.fraction := by
    rw [Transaction.valueFraction, (destroySplits_header _ _).currency]
    exact h.fraction
  have hreadOnly : (plan.setHeader t).readOnly = t.readOnly := rfl
  rw [applyPlan_eq, applySplitPlans_splits h.distinct (fun i hi => hguids.unused i (h.owned _ hi)),
    hfraction, destroySplits_splits, List.map_map, hreadOnly]
  rfl

omit [Engine] in
/-- A round marks nothing. -/
theorem updated_destroying {fraction : Option Int64} {plans : List SplitPlan} (s : Split) :
    (updated book fraction plans s).destroying = s.destroying := by
  unfold updated KeyedList.update
  split <;> rfl

omit [Engine] in
/-- The new splits are live. -/
theorem added_live {s : Split} (hs : s ∈ plan.added book newGuid) : s.destroying = false := by
  obtain ⟨k, p, -, -, rfl⟩ := mem_created.mp hs
  rfl

/-- An old split stays if it was live and is named, or cannot be destroyed. -/
theorem revised_live (h : plan.Accepted book spec t) {s : Split}
    (hs : s ∈ (plan.setHeader t).splits) :
    (plan.revised book t s).destroying = false ↔
      s.destroying = false ∧ (s.guid ∈ claims plan.splits ∨ t.readOnly = true) := by
  have hdoomed : s.guid ∈ plan.doomed ↔ s.guid ∉ claims plan.splits := by
    have hguid : s.guid ∈ t.splits.map Split.guid :=
      setHeader_guids plan t ▸ List.mem_map_of_mem hs
    obtain ⟨s', hs', hguid'⟩ := List.mem_map.mp hguid
    rw [← hguid']
    exact h.doomed s' hs'
  rw [TransactionPlan.revised, updated_destroying, dropped]
  simp only [Bool.or_eq_false_iff, Bool.and_eq_false_iff, Bool.not_eq_false', decide_eq_false_iff_not,
    hdoomed, not_not]
  tauto

/-! ### The split of a split plan -/

variable {i : ℕ} {p : SplitPlan}

/-- The split that the `i`-th split plan is about. -/
def SplitPlan.target (newGuid : ℕ → Guid) (i : ℕ) (p : SplitPlan) : Guid :=
  p.existing.getD (newGuid (i + 1))

/-- That split as the loop finds it. -/
def SplitPlan.start (newGuid : ℕ → Guid) (t : Transaction) (i : ℕ) (p : SplitPlan) : Split :=
  match p.existing with
  | some g => (t.splits.find? (·.guid = g)).getD (Split.blank g p.account)
  | none => Split.blank (newGuid (i + 1)) p.account

omit [Engine] in
/-- A split that is named is claimed. -/
theorem mem_claims (hi : plan.splits[i]? = some p) {g : Guid} (hg : p.existing = some g) :
    g ∈ claims plan.splits :=
  List.mem_filterMap.mpr ⟨p, List.mem_of_getElem? hi, hg⟩

/-- A split that a plan names is there. -/
theorem start_mem (newGuid : ℕ → Guid) (h : plan.Accepted book spec t)
    (hi : plan.splits[i]? = some p) {g : Guid}
    (hg : p.existing = some g) :
    p.start newGuid (plan.setHeader t) i ∈ (plan.setHeader t).splits ∧
      (p.start newGuid (plan.setHeader t) i).guid = g := by
  have hmem : g ∈ (plan.setHeader t).splits.map Split.guid := by
    rw [setHeader_guids]
    exact h.owned g (mem_claims hi hg)
  obtain ⟨s, hs, hguid⟩ := List.mem_map.mp hmem
  obtain ⟨s', hs'⟩ : ∃ s', (plan.setHeader t).splits.find? (·.guid = g) = some s' := by
    rw [← Option.isSome_iff_exists, List.find?_isSome]
    exact ⟨s, hs, by simpa using hguid⟩
  have hstart : p.start newGuid (plan.setHeader t) i = s' := by
    rw [SplitPlan.start, hg]
    show ((plan.setHeader t).splits.find? (·.guid = g)).getD _ = s'
    rw [hs']
    rfl
  rw [hstart]
  exact ⟨List.mem_of_find?_eq_some hs', by simpa using List.find?_some hs'⟩

omit [Engine] in
/-- The plan's own round is what a named split goes through. -/
theorem revised_of_named (h : plan.Accepted book spec t) (hi : plan.splits[i]? = some p)
    {s : Split} (hs : p.existing = some s.guid) :
    plan.revised book t s = p.set book (some plan.currency.fraction)
      (dropped t.readOnly plan.doomed s) := by
  refine KeyedList.update_of_find ?_
  exact KeyedList.find_of_mem h.distinct (List.mem_of_getElem? hi) hs

/-- The old splits that stay. -/
def TransactionPlan.staying (book : Book) (plan : TransactionPlan) (t : Transaction) : List Split :=
  (plan.setHeader t).splits.filter fun s => !(plan.revised book t s).destroying

/-- **What is left and live**: the splits that stay, each revised, and the new ones. -/
theorem liveSplits_applyPlan (h : plan.Accepted book spec t) (hguids : UniqueGuids newGuid t) :
    (applyPlan newGuid book plan t).liveSplits
      = (plan.staying book t).map (plan.revised book t) ++ plan.added book newGuid := by
  have hadded : (plan.added book newGuid).filter (fun s => !s.destroying)
      = plan.added book newGuid :=
    List.filter_eq_self.mpr fun s hs => by rw [added_live hs]; rfl
  rw [Transaction.liveSplits, applyPlan_splits h hguids, List.filter_append, hadded,
    List.filter_map]
  rfl

/-- A split stays if it is named, or if the transaction is read-only. -/
theorem mem_staying (h : plan.Accepted book spec t) {s : Split} :
    s ∈ plan.staying book t ↔ s ∈ (plan.setHeader t).splits ∧ s.destroying = false ∧
      (s.guid ∈ claims plan.splits ∨ t.readOnly = true) := by
  rw [TransactionPlan.staying, List.mem_filter, Bool.not_eq_true']
  exact and_congr_right fun hs => revised_live h hs

end Planned

end Daichod
