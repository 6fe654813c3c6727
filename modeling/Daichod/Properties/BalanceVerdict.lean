import Daichod.Engine.RunningSum
import Daichod.Rpc.TransactionService
import Daichod.Rpc.Verdicts

/-!
# Daichod.Properties.BalanceVerdict

**What `PlanTransaction` says about the balance is so** (`verdict_sound`): a plan it returns
balances exactly, a request it calls unbalanced does not, and where it gives up on a split
the sum up to there has no `int64` form over the common denominator.

The loop keeps a running sum, which is what `Daichod.Engine.RunningSum` says of it. Which
check threw is read off the error: its code tells the verdict on the balance from all
others, its context the overflow.

## Proof shape

A plan fails by exactly one check, and the error names it: `Blames context x` says that whatever
`x` throws has this context. Contexts of different checks are different texts
(`append_ne_splitField`), so an overflow of the sum, which is reported at the split itself, cannot
be mistaken for a check on one of its fields. With that `planSplits_sound` is an induction over
the spec splits in which the running sum is exact up to the split at hand.
-/

namespace Daichod

/-- The values a request names. -/
def requestedValues (specs : List Shim.Split) : List GncNumeric :=
  specs.map fun spec => { num := spec.value.num, denom := spec.value.denom }

/-- The values of the splits up to one more. -/
theorem requestedValues_concat (specs : List Shim.Split) (spec : Shim.Split) :
    requestedValues (specs ++ [spec])
      = requestedValues specs ++ [⟨spec.value.num, spec.value.denom⟩] := by
  simp [requestedValues]

/-! ### Which check threw

The context of an error is the path of the field, and the paths are told apart by how they end. -/

/-- The error of a split at which the sum overflows. -/
def overflowAt (i : ℕ) : ShimError :=
  ⟨.invalidArgument, "split values overflow engine arithmetic", splitField i⟩

/-- An error that says nothing about the sum of the values. -/
def ShimError.Elsewhere (e : ShimError) : Prop :=
  e.code ≠ .unbalancedTransaction ∧ ∀ i, e.context ≠ splitField i

/-- A number between brackets. -/
theorem toList_bracketed (s : String) (i : ℕ) :
    (s ++ toString i ++ "]").toList = s.toList ++ (toString i).toList ++ [']'] := by
  rw [String.toList_append, String.toList_append]
  rfl

/-- The path of a split. -/
theorem splitField_toList (i : ℕ) :
    (splitField i).toList = "transaction.splits[".toList ++ (toString i).toList ++ [']'] :=
  toList_bracketed _ i

/-- Different splits have different paths. -/
theorem splitField_injective : Function.Injective splitField := by
  intro i j hij
  have hlist := congrArg String.toList hij
  rw [splitField_toList, splitField_toList] at hlist
  have hdigits := List.append_cancel_left (List.append_cancel_right hlist)
  have hvalue := congrArg (fun digits => Nat.ofDigitChars 10 digits 0) hdigits
  simpa [Nat.toString_eq_ofList_toDigits] using hvalue

/-- The name of a split ends in a bracket. -/
theorem ne_splitField {context : String} (h : context.toList.getLast? ≠ some ']') (i : ℕ) :
    context ≠ splitField i := by
  rintro rfl
  rw [splitField_toList, List.getLast?_concat] at h
  exact h rfl

/-- The path of a field of a split is not that of a split. -/
theorem append_ne_splitField {field suffix : String} (h : suffix.toList.getLast? ≠ some ']')
    (hne : suffix.toList ≠ []) (i : ℕ) : field ++ suffix ≠ splitField i := by
  refine ne_splitField ?_ i
  rwa [String.toList_append, List.getLast?_append_of_ne_nil _ hne]

/-- A computation blames one field, and not for the balance. -/
abbrev Blames {α : Type} (context : String) (x : Except ShimError α) : Prop :=
  Throws (fun e => e.code ≠ .unbalancedTransaction ∧ e.context = context) x

/-- An error at a field is no verdict on the sum. -/
theorem Blames.elsewhere {α : Type} {context : String} {x : Except ShimError α}
    (h : Blames context x) (hcontext : ∀ i, context ≠ splitField i) :
    Throws ShimError.Elsewhere x := by
  intro e he
  obtain ⟨hcode, hfield⟩ := h e he
  exact ⟨hcode, fun i => hfield ▸ hcontext i⟩

section Checks

variable [Engine] {book : Book}

omit [Engine] in
/-- Amounts blame their own field, -/
theorem blames_numericFromProto (numeric : Shim.Numeric) (context : String) :
    Blames context (numericFromProto numeric context) := by
  unfold numericFromProto
  split
  · exact throws_error ⟨by simp, rfl⟩
  · exact throws_ok _

/-- accounts theirs, -/
theorem blames_findAccount (book : Book) (guid context : String) :
    Blames context (findAccount book guid context) := by
  have hguid : Blames context (stringToGuid guid context) := by
    unfold stringToGuid
    split
    · exact throws_ok _
    · exact throws_error ⟨by simp, rfl⟩
  refine hguid.bind fun parsed => ?_
  split
  · exact throws_ok _
  · exact throws_error ⟨by simp, rfl⟩

/-- commodities theirs, -/
theorem blames_findCommodity (id : Shim.CommodityId) (context : String) :
    Blames context (findCommodity book id context) := by
  unfold findCommodity
  split
  · exact throws_ok _
  · exact throws_error ⟨by simp, rfl⟩

omit [Engine] in
/-- dates theirs, -/
theorem blames_dateFromProto (date : Shim.Date) (context : String) :
    Blames context (dateFromProto date context) := by
  unfold dateFromProto
  split
  · exact throws_error ⟨by simp, rfl⟩
  · dsimp only
    split
    · exact throws_ok _
    · exact throws_error ⟨by simp, rfl⟩

/-- GUIDs theirs, -/
theorem blames_findExisting (engineSplits : Option (List Split)) (claimed : List String)
    (field : String) (requested : Shim.Split) :
    Blames (field ++ ".guid") (findExisting engineSplits claimed field requested) := by
  unfold findExisting
  split
  · exact throws_ok _
  · split
    · exact throws_error ⟨by simp, rfl⟩
    · split
      · exact throws_error ⟨by simp, rfl⟩
      · split
        · exact throws_error ⟨by simp, rfl⟩
        · exact throws_ok _

omit [Engine] in
/-- and reconcile states theirs. -/
theorem blames_planReconcile (state : Shim.ReconcileState) (field : String) :
    Blames (field ++ ".reconcile_state") (planReconcile state field) := by
  unfold planReconcile
  split
  · exact throws_ok _
  · cases state <;> first | exact throws_ok _ | exact throws_error ⟨by simp, rfl⟩

/-- The checks of a split, up to the sum, blame one of its own fields. -/
theorem planSplit_elsewhere (engineSplits : Option (List Split)) (claimed : List String)
    (field : String) (requested : Shim.Split) :
    Throws ShimError.Elsewhere (planSplit book engineSplits claimed field requested) := by
  have blamed : ∀ {α : Type} {suffix : String} {x : Except ShimError α},
      suffix.toList.getLast? ≠ some ']' → suffix.toList ≠ [] → Blames (field ++ suffix) x →
      Throws ShimError.Elsewhere x :=
    fun hlast hne hx => Blames.elsewhere hx (append_ne_splitField hlast hne)
  have hguid := blamed (by decide) (by decide)
    (blames_findExisting engineSplits claimed field requested)
  have haccount := blamed (by decide) (by decide)
    (blames_findAccount book requested.accountGuid (field ++ ".account_guid"))
  have hvalue := blamed (by decide) (by decide)
    (blames_numericFromProto requested.value (field ++ ".value"))
  have hquantity := blamed (by decide) (by decide)
    (blames_numericFromProto requested.quantity (field ++ ".quantity"))
  have hreconcile := blamed (by decide) (by decide)
    (blames_planReconcile requested.reconcileState field)
  exact hguid.bind fun _ => haccount.bind fun _ => hvalue.bind fun _ => hquantity.bind fun _ =>
    hreconcile.bind fun _ => throws_ok _

end Checks

/-! ### The verdict -/

/-- What an error of `PlanTransaction` says about the sums of a request. -/
structure ShimError.SoundFor (specs : List Shim.Split) (e : ShimError) : Prop where
  unbalanced : e.code = .unbalancedTransaction → exactSum (requestedValues specs) ≠ 0
  overflow : ∀ i, e = overflowAt i → ¬SumRepresentable (requestedValues (specs.take (i + 1)))

/-- Of an error that is no verdict on the sum nothing is claimed. -/
theorem ShimError.Elsewhere.soundFor {e : ShimError} (h : e.Elsewhere)
    (specs : List Shim.Split) : e.SoundFor specs where
  unbalanced hcode := absurd hcode h.1
  overflow i he := absurd (congrArg ShimError.context he) (h.2 i)

variable [Engine] {book : Book}

/-- **The loop**: behind the splits `done`, an error is sound for the whole list, and a
result is the sum of the whole list. -/
theorem planSplits_sound (book : Book) (engineSplits : Option (List Split))
    (claimed : List String) (done : List Shim.Split) {sum : GncNumeric}
    (h : SumsTo (requestedValues done) sum) (specs : List Shim.Split) :
    Throws (ShimError.SoundFor (done ++ specs))
      (planSplits book engineSplits done.length claimed sum specs) ∧
    ∀ r, planSplits book engineSplits done.length claimed sum specs = .ok r →
      SumsTo (requestedValues (done ++ specs)) r.2.2 := by
  induction specs generalizing claimed done sum with
  | nil =>
    refine ⟨throws_ok _, ?_⟩
    intro r hr
    obtain rfl := Except.ok.inj hr
    simpa using h
  | cons spec specs ih =>
    have hlength : (done ++ [spec]).length = done.length + 1 := List.length_append
    have happend : done ++ [spec] ++ specs = done ++ spec :: specs := by simp
    have hvalue : ∀ {plan : SplitPlan},
        planSplit book engineSplits claimed (splitField done.length) spec = .ok plan →
        requestedValues (done ++ [spec]) = requestedValues done ++ [plan.value] ∧
          plan.value.check = true := by
      intro plan hplan
      obtain ⟨hvalue, hpos⟩ := numericFromProto_ok (planSplit_ok hplan).2.2.1
      exact ⟨by rw [requestedValues_concat, hvalue], GncNumeric.check_of_pos hpos⟩
    have hround : ∀ {plan : SplitPlan},
        planSplit book engineSplits claimed (splitField done.length) spec = .ok plan →
        (gncNumericAdd sum plan.value).check = true →
        SumsTo (requestedValues (done ++ [spec])) (gncNumericAdd sum plan.value) := by
      intro plan hplan hcheck
      rw [(hvalue hplan).1]
      exact h.add hcheck
    constructor
    · unfold planSplits
      refine Throws.bind_ok ?_ fun plan hplan => Throws.bind_ok ?_ fun _ hcheck =>
        Throws.bind ?_ fun _ => throws_ok _
      · intro e he
        exact (planSplit_elsewhere _ _ _ _ e he).soundFor _
      · -- The sum up to this split overflows.
        intro e he
        have hcheck : (gncNumericAdd sum plan.value).check ≠ true := by
          intro hcheck
          rw [ensure, if_pos hcheck] at he
          cases he
        rw [ensure, if_neg hcheck] at he
        obtain rfl := Except.error.inj he
        refine ⟨by simp, fun i hi => ?_⟩
        obtain rfl := splitField_injective (congrArg ShimError.context hi)
        obtain ⟨hvalues, hchecked⟩ := hvalue hplan
        rw [← happend, ← hlength, List.take_left, hvalues, ← h.check_add_iff hchecked]
        exact hcheck
      · have hrest := (ih (if spec.guid.isEmpty then claimed else spec.guid :: claimed) _
          (hround hplan (ensure_ok hcheck))).1
        rwa [happend, hlength] at hrest
    · intro r hr
      obtain ⟨plan, plans, hplan, hcheck, hrest, -⟩ := planSplits_cons_ok hr
      rw [← hlength] at hrest
      have hsums := (ih _ _ (hround hplan hcheck)).2 _ hrest
      rwa [happend] at hsums

/-- **The verdict on the balance is sound**, whatever it is. -/
theorem verdict_sound (now : Int64) (book : Book) (spec : Shim.Transaction)
    (existing : Option Transaction) :
    match planTransaction now book spec existing with
    | .ok _ => exactSum (requestedValues spec.splits) = 0
    | .error e =>
      (e.code = .unbalancedTransaction → exactSum (requestedValues spec.splits) ≠ 0) ∧
      ∀ i, e = overflowAt i →
        ¬SumRepresentable (requestedValues (spec.splits.take (i + 1))) := by
  have hloop := planSplits_sound book (existing.map Transaction.splits) [] [] sumsTo_nil
    spec.splits
  rw [List.nil_append] at hloop
  cases hplan : planTransaction now book spec existing with
  | ok plan =>
    obtain ⟨-, -, -, -, claimed, sum, hsplits, hzero, -⟩ := planTransaction_ok hplan
    have hsums := hloop.2 _ hsplits
    exact hsums.exact.symm.trans ((GncNumeric.zeroP_iff_toRat hsums.check).mp hzero)
  | error e =>
    have hcurrency : Throws (ShimError.SoundFor spec.splits) (planCurrency book spec) := by
      intro e he
      refine ShimError.Elsewhere.soundFor ?_ _
      unfold planCurrency at he
      split at he
      · obtain rfl := Except.error.inj he
        exact ⟨by simp, ne_splitField (by decide)⟩
      · exact Blames.elsewhere (blames_findCommodity _ _) (ne_splitField (by decide)) e he
    have hdate : Throws (ShimError.SoundFor spec.splits) (planPostDate spec) := by
      intro e he
      refine ShimError.Elsewhere.soundFor ?_ _
      unfold planPostDate at he
      split at he
      · obtain rfl := Except.error.inj he
        exact ⟨by simp, ne_splitField (by decide)⟩
      · exact Blames.elsewhere (blames_dateFromProto _ _) (ne_splitField (by decide)) e he
    have hensure : ∀ (p : Prop) [Decidable p] (code : ErrorCode) (message context : String),
        (⟨code, message, context⟩ : ShimError).Elsewhere →
        Throws (ShimError.SoundFor spec.splits) (ensure p code message context) := by
      intro p _ code message context helsewhere
      unfold ensure
      split
      · exact throws_ok _
      · exact throws_error (helsewhere.soundFor _)
    have hthrows : Throws (ShimError.SoundFor spec.splits)
        (planTransaction now book spec existing) := by
      refine hcurrency.bind fun currency => ?_
      refine (hensure _ _ _ _ ⟨by simp, ne_splitField (by decide)⟩).bind fun _ => ?_
      refine hdate.bind fun postDate => ?_
      refine (hensure _ _ _ _ ⟨by simp, ne_splitField (by decide)⟩).bind fun _ => ?_
      refine hloop.1.bind_ok fun r hr => ?_
      refine Throws.bind ?_ fun _ => throws_ok _
      -- The loop is through, and the sum is not zero.
      intro e he
      have hsums := hloop.2 _ hr
      have hzero : r.2.2.zeroP ≠ true := by
        intro hzero
        rw [ensure, if_pos hzero] at he
        cases he
      rw [ensure, if_neg hzero] at he
      obtain rfl := Except.error.inj he
      refine ⟨fun _ hsum => ?_, fun i hi => ?_⟩
      · exact hzero ((GncNumeric.zeroP_iff_toRat hsums.check).mpr (hsums.exact.trans hsum))
      · exact absurd (congrArg ShimError.code hi) (by simp [overflowAt])
    obtain ⟨hunbalanced, hoverflow⟩ := hthrows e hplan
    exact ⟨hunbalanced, hoverflow⟩

end Daichod
