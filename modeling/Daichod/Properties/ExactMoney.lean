import Daichod.Reference
import Daichod.Rpc.Planned

/-!
# Daichod.Properties.ExactMoney

**Requested and stored amounts.** The balance check of `PlanTransaction` adds up the values
a request asks for; the setters of `ApplyPlan` round what they store to the currency's and
the account commodity's smallest units, and keep the old amount where rounding would lose
the new one. So an accepted transaction is stored exactly when every amount is a multiple of
the unit it is stored in (`exactMoney_iff`, which also counts the ways in which a setter or
a destroyed split can leave the right amount behind by accident).

## Proof shape

A plan of a split is kept (`AllKept`) if what the setters store is what was asked for, amount for
amount. The sum of what is stored splits into the named splits, the added ones and those that
nobody named (`sum_named`, `sum_added`, `sum_unnamed`); the first two make up the requested sum,
which the check has found to be zero.
-/

namespace Daichod

section ExactMoney

variable [Engine] {book : Book} {spec : Shim.Transaction} {t : Transaction}
  {plan : TransactionPlan} {newGuid : ℕ → Guid} {i : ℕ} {p : SplitPlan}

/-! ### Plans that are kept

Each split plan is compared with the split it ends up in, told by its GUID. -/

/-- The split plan's value is stored exactly, in a split that stays. -/
structure SplitPlan.ValueKept (currency : Commodity) (start : Split) (p : SplitPlan) : Prop where
  live : start.destroying = false
  value : Keeps (some currency.fraction) start.value p.value

/-- So is its quantity. -/
structure SplitPlan.Kept (book : Book) (currency : Commodity) (start : Split) (p : SplitPlan) :
    Prop extends p.ValueKept currency start where
  quantity : Keeps (amountFraction book p.account) start.amount p.quantity

/-- All of a plan is kept. -/
def TransactionPlan.AllKept (book : Book) (newGuid : ℕ → Guid) (plan : TransactionPlan)
    (t : Transaction) : Prop :=
  ∀ (i : ℕ) (p : SplitPlan), plan.splits[i]? = some p →
    p.Kept book plan.currency (p.start newGuid (plan.setHeader t) i)

/-- All values of a plan are kept. -/
def TransactionPlan.ValuesKept (newGuid : ℕ → Guid) (plan : TransactionPlan) (t : Transaction) :
    Prop :=
  ∀ (i : ℕ) (p : SplitPlan), plan.splits[i]? = some p →
    p.ValueKept plan.currency (p.start newGuid (plan.setHeader t) i)

/-- Where the values and the amounts are kept, the values are. -/
theorem TransactionPlan.AllKept.valuesKept (h : plan.AllKept book newGuid t) :
    plan.ValuesKept newGuid t := fun i p hi => (h i p hi).toValueKept

/-- Everything a request asks for is stored exactly, and what is stored is balanced. -/
structure ExactMoney (newGuid : ℕ → Guid) (spec : Shim.Transaction) (plan : TransactionPlan)
    (t : Transaction) : Prop where
  stored : ∀ (i : ℕ) (requested : Shim.Split) (p : SplitPlan), spec.splits[i]? = some requested →
    plan.splits[i]? = some p → ∃ s ∈ t.liveSplits, s.guid = p.target newGuid i ∧
      s.value.toRat = requested.value.toRat ∧ s.amount.toRat = requested.quantity.toRat
  balanced : (t.liveSplits.map fun s => s.value.toRat).sum = 0

/-- The splits a plan leaves out and cannot destroy, if the transaction is read-only. -/
def TransactionPlan.leftOver (plan : TransactionPlan) (t : Transaction) : List Split :=
  (plan.setHeader t).splits.filter fun s => !s.destroying && decide (s.guid ∉ claims plan.splits)

/-- **What is stored** under the GUID of a split plan. -/
theorem stored_eq (h : plan.Accepted book spec t) (hguids : UniqueGuids newGuid t)
    (hi : plan.splits[i]? = some p) {s : Split}
    (hs : s ∈ (applyPlan newGuid book plan t).liveSplits) (hguid : s.guid = p.target newGuid i) :
    (p.start newGuid (plan.setHeader t) i).destroying = false ∧
      s.value = storeAmount (some plan.currency.fraction)
        (p.start newGuid (plan.setHeader t) i).value p.value ∧
      s.amount = storeAmount (amountFraction book p.account)
        (p.start newGuid (plan.setHeader t) i).amount p.quantity := by
  obtain ⟨hs, hlive⟩ := List.mem_filter.mp hs
  rw [applyPlan_splits h hguids, List.mem_append] at hs
  have hold : ∀ s₀ ∈ (plan.setHeader t).splits, s₀.guid ∈ t.splits.map Split.guid := fun s₀ hs₀ =>
    setHeader_guids plan t ▸ List.mem_map_of_mem hs₀
  have hkey : ∀ s₀, (plan.revised book t s₀).guid = s₀.guid := by
    intro s₀
    unfold TransactionPlan.revised updated KeyedList.update
    split <;> rfl
  unfold SplitPlan.target at hguid
  cases hg : p.existing with
  | none =>
    rw [hg, Option.getD_none] at hguid
    rcases hs with hs | hs
    · obtain ⟨s₀, hs₀, rfl⟩ := List.mem_map.mp hs
      rw [hkey] at hguid
      exact absurd (hguid ▸ hold s₀ hs₀) (hguids.unused _)
    · obtain ⟨k, p', hk, -, rfl⟩ := mem_created.mp hs
      have hki : 0 + k + 1 = i + 1 := hguids.injective hguid
      obtain rfl : k = i := by omega
      rw [hi] at hk
      obtain rfl := Option.some.inj hk
      rw [SplitPlan.start, hg]
      exact ⟨rfl, rfl, rfl⟩
  | some g =>
    rw [hg, Option.getD_some] at hguid
    obtain ⟨hstart, hstartGuid⟩ := start_mem newGuid h hi hg
    rcases hs with hs | hs
    · obtain ⟨s₀, hs₀, rfl⟩ := List.mem_map.mp hs
      rw [hkey] at hguid
      have hsame : s₀ = p.start newGuid (plan.setHeader t) i := by
        refine List.inj_on_of_nodup_map ?_ hs₀ hstart (hguid.trans hstartGuid.symm)
        rw [setHeader_guids]
        exact hguids.distinct
      have hlive₀ := (revised_live h hs₀).mp (by simpa using hlive)
      rw [← hsame, revised_of_named h hi (hg.trans (congrArg some hguid.symm))]
      exact ⟨hlive₀.1, rfl, rfl⟩
    · obtain ⟨k, p', -, -, rfl⟩ := mem_created.mp hs
      have hunused := h.owned g (mem_claims hi hg)
      rw [← hguid] at hunused
      exact absurd hunused (hguids.unused _)

/-- A split plan whose split stays finds its amounts stored. -/
theorem exists_stored (h : plan.Accepted book spec t) (hguids : UniqueGuids newGuid t)
    (hi : plan.splits[i]? = some p)
    (hlive : (p.start newGuid (plan.setHeader t) i).destroying = false) :
    ∃ s ∈ (applyPlan newGuid book plan t).liveSplits, s.guid = p.target newGuid i := by
  unfold SplitPlan.target Transaction.liveSplits
  rw [applyPlan_splits h hguids]
  cases hg : p.existing with
  | none =>
    refine ⟨p.set book (some plan.currency.fraction) (Split.blank (newGuid (i + 1)) p.account),
      List.mem_filter.mpr ⟨List.mem_append_right _ ?_, rfl⟩, rfl⟩
    exact mem_created.mpr ⟨i, p, hi, hg, by rw [zero_add]⟩
  | some g =>
    obtain ⟨hstart, hstartGuid⟩ := start_mem newGuid h hi hg
    have hclaim : (p.start newGuid (plan.setHeader t) i).guid ∈ claims plan.splits :=
      hstartGuid ▸ mem_claims hi hg
    refine ⟨plan.revised book t (p.start newGuid (plan.setHeader t) i),
      List.mem_filter.mpr ⟨List.mem_append_left _ (List.mem_map_of_mem hstart), ?_⟩, ?_⟩
    · have := (revised_live h hstart).mpr ⟨hlive, Or.inl hclaim⟩
      simpa using this
    · rw [revised_of_named h hi (hg.trans (congrArg some hstartGuid.symm))]
      exact hstartGuid

/-! ### The balance of what is stored

The live splits behind `ApplyPlan` are of three kinds: those that a plan names, those that it
adds, and, in a read-only transaction, those that could not be destroyed. -/

omit [Engine] in
/-- A kept value is stored as it was asked for. -/
theorem SplitPlan.ValueKept.value_eq (h : plan.Accepted book spec t)
    (hi : plan.splits[i]? = some p) {start : Split} (hkept : p.ValueKept plan.currency start) :
    (storeAmount (some plan.currency.fraction) start.value p.value).toRat = p.value.toRat := by
  have hvalue := hkept.value
  rw [← h.fraction] at hvalue ⊢
  exact (storeAmount_exact_iff (some plan.currency.name) (h.pos hi).1).mpr hvalue

section Kept

variable (h : plan.Accepted book spec t) (hguids : UniqueGuids newGuid t)
  (hkept : plan.ValuesKept newGuid t)

include h hguids hkept

/-- A named split is live, and becomes worth what its plan says. -/
theorem revised_value {s : Split} (hs : s ∈ (plan.setHeader t).splits)
    (hclaim : s.guid ∈ claims plan.splits) :
    s.destroying = false ∧ (plan.revised book t s).value.toRat
      = ((KeyedList.find SplitPlan.existing plan.splits s.guid).map fun p => p.value.toRat).getD 0 := by
  obtain ⟨p, hmem, hp⟩ := List.mem_filterMap.mp hclaim
  obtain ⟨i, hi⟩ := List.mem_iff_getElem?.mp hmem
  obtain ⟨hstart, hstartGuid⟩ := start_mem newGuid h hi hp
  have hsame : s = p.start newGuid (plan.setHeader t) i := by
    refine List.inj_on_of_nodup_map ?_ hs hstart hstartGuid.symm
    rw [setHeader_guids]
    exact hguids.distinct
  have hkeptHere := hkept i p hi
  rw [← hsame] at hkeptHere
  refine ⟨hkeptHere.live, ?_⟩
  rw [revised_of_named h hi hp, KeyedList.find_of_mem h.distinct hmem hp]
  have hvalue := hkeptHere.value_eq h hi
  exact hvalue

/-- The named splits add up to their plans. -/
theorem sum_named :
    (((plan.staying book t).filter fun s => s.guid ∈ claims plan.splits).map
        fun s => (plan.revised book t s).value.toRat).sum
      = ((plan.splits.filter fun p => p.existing.isSome).map fun p => p.value.toRat).sum := by
  have hnodup : ((plan.setHeader t).splits.map Split.guid).Nodup := by
    rw [setHeader_guids]
    exact hguids.distinct
  rw [← KeyedList.sum_found Split.guid
    (l := (plan.staying book t).filter fun s => s.guid ∈ claims plan.splits)
    (hnodup.sublist ((List.filter_sublist.trans List.filter_sublist).map _)) h.distinct]
  · refine congrArg List.sum (List.map_congr_left fun s hs => ?_)
    obtain ⟨hs, hclaim⟩ := List.mem_filter.mp hs
    exact (revised_value h hguids hkept ((mem_staying h).mp hs).1 (of_decide_eq_true hclaim)).2
  · intro g hg
    have hmem : g ∈ (plan.setHeader t).splits.map Split.guid := by
      rw [setHeader_guids]
      exact h.owned g hg
    obtain ⟨s, hs, rfl⟩ := List.mem_map.mp hmem
    have hlive := (revised_value h hguids hkept hs hg).1
    exact List.mem_map_of_mem
      (List.mem_filter.mpr ⟨(mem_staying h).mpr ⟨hs, hlive, Or.inl hg⟩, decide_eq_true hg⟩)

omit hguids in
/-- And so do the new ones. -/
theorem sum_added :
    ((plan.added book newGuid).map fun s => s.value.toRat).sum
      = ((plan.splits.filter fun p => !p.existing.isSome).map fun p => p.value.toRat).sum := by
  refine sum_created fun k p hk hp => ?_
  have hkeptHere := hkept k p hk
  rw [SplitPlan.start, hp] at hkeptHere
  rw [zero_add]
  exact hkeptHere.value_eq h hk

end Kept

/-- The unnamed splits that stay are those of a read-only transaction. -/
theorem sum_unnamed (h : plan.Accepted book spec t) :
    (((plan.staying book t).filter fun s => ¬s.guid ∈ claims plan.splits).map
        fun s => (plan.revised book t s).value.toRat).sum
      = if t.readOnly then ((plan.leftOver t).map fun s => s.value.toRat).sum else 0 := by
  have hkeep : ∀ s : Split, s.guid ∉ claims plan.splits →
      (plan.revised book t s).value = s.value := by
    intro s hclaim
    have hdropped : plan.revised book t s = dropped t.readOnly plan.doomed s :=
      KeyedList.update_of_not_mem hclaim
    rw [hdropped]
    rfl
  have hlist : ((plan.staying book t).filter fun s => ¬s.guid ∈ claims plan.splits)
      = if t.readOnly then plan.leftOver t else [] := by
    unfold TransactionPlan.staying TransactionPlan.leftOver
    cases hreadOnly : t.readOnly with
    | true =>
      rw [if_pos rfl, List.filter_filter]
      refine List.filter_congr fun s hs => ?_
      have hlive : (plan.revised book t s).destroying = s.destroying := by
        have := revised_live h hs
        rw [hreadOnly] at this
        simp only [or_true, and_true] at this
        exact Bool.eq_iff_iff.mpr (not_iff_not.mp (by simpa using this))
      rw [hlive, Bool.and_comm]
    | false =>
      rw [if_neg (by simp), List.filter_eq_nil_iff]
      intro s hs hclaim
      obtain ⟨-, -, hstays⟩ := (mem_staying h).mp hs
      rw [hreadOnly] at hstays
      exact of_decide_eq_true hclaim (hstays.resolve_right (by simp))
  rw [hlist]
  cases t.readOnly with
  | false => rfl
  | true =>
    rw [if_pos rfl, if_pos rfl]
    refine congrArg List.sum (List.map_congr_left fun s hs => ?_)
    have hclaim := (List.mem_filter.mp hs).2
    rw [Bool.and_eq_true, decide_eq_true_eq] at hclaim
    rw [hkeep s hclaim.2]

/-- **What is stored adds up** to what was asked for, and to the splits that could not be
destroyed, once every split plan is kept. -/
theorem sum_stored (h : plan.Accepted book spec t) (hguids : UniqueGuids newGuid t)
    (hkept : plan.ValuesKept newGuid t) :
    ((applyPlan newGuid book plan t).liveSplits.map fun s => s.value.toRat).sum
      = if t.readOnly then ((plan.leftOver t).map fun s => s.value.toRat).sum else 0 := by
  have hold := List.sum_map_filter_add_sum_map_filter_not
    (fun s : Split => s.guid ∈ claims plan.splits)
    (fun s => (plan.revised book t s).value.toRat) (plan.staying book t)
  have hrequested := List.sum_map_filter_add_sum_map_filter_not
    (fun p : SplitPlan => p.existing.isSome = true) (fun p => p.value.toRat) plan.splits
  have hnew : (plan.splits.filter fun p => !p.existing.isSome)
      = plan.splits.filter fun p => ¬p.existing.isSome = true :=
    List.filter_congr fun p _ => by cases p.existing <;> rfl
  have hnamed : (plan.splits.filter fun p => p.existing.isSome)
      = plan.splits.filter fun p => p.existing.isSome = true :=
    List.filter_congr fun p _ => by cases p.existing <;> rfl
  rw [sum_named h hguids hkept, sum_unnamed h, hnamed] at hold
  have hadded := sum_added h hkept
  rw [hnew] at hadded
  rw [h.balanced] at hrequested
  rw [liveSplits_applyPlan h hguids, List.map_append, List.sum_append, List.map_map, hadded]
  calc _ + ((plan.splits.filter fun p => ¬p.existing.isSome = true).map fun p => p.value.toRat).sum
      = (((plan.splits.filter fun p => p.existing.isSome = true).map fun p => p.value.toRat).sum
          + ((plan.splits.filter fun p => ¬p.existing.isSome = true).map fun p => p.value.toRat).sum)
          + (if t.readOnly then ((plan.leftOver t).map fun s => s.value.toRat).sum else 0) := by
        rw [add_right_comm]
        exact congrArg (· + _) hold.symm
    _ = _ := by rw [hrequested, zero_add]

/-- **When an accepted request is stored exactly**: every amount is a multiple of the unit
it is stored in (or the setter leaves an equal amount in its place), every split it names
is still there, and the splits it leaves out are gone or balance. -/
theorem exactMoney_iff {now : Int64} {existing : Option Transaction}
    (hplan : planTransaction now book spec existing = .ok plan)
    (hguids : UniqueGuids newGuid (existing.getD .blank)) :
    ExactMoney newGuid spec plan (applyPlan newGuid book plan (existing.getD .blank)) ↔
      plan.AllKept book newGuid (existing.getD .blank) ∧
      ((existing.getD .blank).readOnly = true →
        ((plan.leftOver (existing.getD .blank)).map fun s => s.value.toRat).sum = 0) := by
  have h := planTransaction_accepted hplan
  generalize existing.getD .blank = t at h hguids ⊢
  have hleft : plan.AllKept book newGuid t →
      (((applyPlan newGuid book plan t).liveSplits.map fun s => s.value.toRat).sum = 0 ↔
        (t.readOnly = true → ((plan.leftOver t).map fun s => s.value.toRat).sum = 0)) := by
    intro hkept
    rw [sum_stored h hguids hkept.valuesKept]
    cases t.readOnly <;> simp
  constructor
  · intro hexact
    have hkept : plan.AllKept book newGuid t := by
      intro i p hi
      obtain ⟨requested, hrequested⟩ := h.exists_requested hi
      obtain ⟨s, hs, hguid, hvalue, hquantity⟩ := hexact.stored i requested p hrequested hi
      obtain ⟨hv, hq⟩ := h.requested_eq hrequested hi
      obtain ⟨hlive, hsvalue, hsamount⟩ := stored_eq h hguids hi hs hguid
      rw [hsvalue, ← hv, ← h.fraction] at hvalue
      rw [hsamount, ← hq, amountFraction_eq] at hquantity
      refine ⟨⟨hlive, ?_⟩, ?_⟩
      · rw [← h.fraction]
        exact (storeAmount_exact_iff (some plan.currency.name) (h.pos hi).1).mp hvalue
      · rw [amountFraction_eq]
        exact (storeAmount_exact_iff _ (h.pos hi).2).mp hquantity
    exact ⟨hkept, (hleft hkept).mp hexact.balanced⟩
  · intro hboth
    obtain ⟨hkept, hreadOnly⟩ := hboth
    refine ⟨fun i requested p hrequested hi => ?_, (hleft hkept).mpr hreadOnly⟩
    obtain ⟨⟨hlive, hvalue⟩, hquantity⟩ := hkept i p hi
    obtain ⟨hv, hq⟩ := h.requested_eq hrequested hi
    obtain ⟨s, hs, hguid⟩ := exists_stored h hguids hi hlive
    obtain ⟨-, hsvalue, hsamount⟩ := stored_eq h hguids hi hs hguid
    refine ⟨s, hs, hguid, ?_, ?_⟩
    · rw [hsvalue, ← hv]
      exact (hkept i p hi).toValueKept.value_eq h hi
    · rw [amountFraction_eq] at hquantity
      rw [hsamount, ← hq, amountFraction_eq]
      exact (storeAmount_exact_iff _ (h.pos hi).2).mpr hquantity

end ExactMoney

section Thirds

open Reference

attribute [local instance] Reference.engine Reference.wire

/-- A split of a request, in thirds of a dollar. -/
def thirds (account : Guid) (amount : Int64) : Shim.Split :=
  { split account 0 with value := ⟨amount, 3⟩, quantity := ⟨amount, 3⟩ }

/-- Two thirds of a dollar, paid in two parts. -/
def postThirds : Mutation :=
  .postTransaction ⟨⟨mutationId '1'⟩, transaction "" [thirds 2 1, thirds 3 1, thirds 2 (-2)]⟩

/-- The numbers from 16 on are in nobody's use. -/
theorem uniqueGuids_blank : UniqueGuids (calm 16).newGuid Transaction.blank where
  injective i j h := Nat.add_left_cancel h
  unused i h := by cases h
  distinct := List.nodup_nil

/-- It is accepted, and stored one cent short of balance. -/
theorem postThirds_not_exact :
    (replyOf (postThirds.run (calm 16) started.world)).isOk = true ∧
    ∃ plan, planTransaction 0 book (transaction "" [thirds 2 1, thirds 3 1, thirds 2 (-2)]) none
        = .ok plan ∧
      ((applyPlan (calm 16).newGuid book plan .blank).liveSplits.map fun s => s.value.toRat).sum
        = -1 / 100 ∧
      ¬ExactMoney (calm 16).newGuid
        (transaction "" [thirds 2 1, thirds 3 1, thirds 2 (-2)]) plan
        (applyPlan (calm 16).newGuid book plan .blank) := by
  refine ⟨by decide +kernel, ?_⟩
  have hsum : ((planTransaction 0 book (transaction "" [thirds 2 1, thirds 3 1, thirds 2 (-2)])
      none).toOption.map fun plan =>
        ((applyPlan (calm 16).newGuid book plan .blank).liveSplits.map fun s => s.value.toRat).sum)
      = some (-1 / 100) := by decide +kernel
  cases hplan : planTransaction 0 book (transaction "" [thirds 2 1, thirds 3 1, thirds 2 (-2)])
      none with
  | error e => rw [hplan] at hsum; cases hsum
  | ok plan =>
    rw [hplan] at hsum
    have hsum := Option.some.inj hsum
    refine ⟨plan, rfl, hsum, fun hexact => ?_⟩
    have hzero : (-1 / 100 : ℚ) = 0 := hsum.symm.trans hexact.balanced
    norm_num at hzero

/-- A post of one dollar, in cents. -/
theorem exactMoney_iff_post :
    ∃ plan, planTransaction 0 book (transaction "" [split 2 (-100), split 3 100]) none = .ok plan ∧
      (ExactMoney (calm 16).newGuid (transaction "" [split 2 (-100), split 3 100]) plan
          (applyPlan (calm 16).newGuid book plan .blank) ↔
        plan.AllKept book (calm 16).newGuid .blank ∧ (Transaction.blank.readOnly = true →
          ((plan.leftOver .blank).map fun s => s.value.toRat).sum = 0)) := by
  have haccepted : (planTransaction 0 book (transaction "" [split 2 (-100), split 3 100])
      none).isOk = true := by decide +kernel
  cases hplan : planTransaction 0 book (transaction "" [split 2 (-100), split 3 100]) none with
  | error e => rw [hplan] at haccepted; cases haccepted
  | ok plan => exact ⟨plan, rfl, exactMoney_iff hplan uniqueGuids_blank⟩

end Thirds

end Daichod
